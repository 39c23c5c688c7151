import Tabular.Decimal
import Tabular.Binary64.Basic

namespace Tabular.Binary64

/-- The number `digits` times ten to the power `exponent`; `plain` tells that it was written
without a point and without an exponent. -/
structure Numeral where
  digits : Nat
  exponent : Int
  plain : Bool

def scanExponent (s : List Char) : Option (Int × List Char) :=
  match s with
  | [] => none
  | m :: s =>
    if m = 'e' ∨ m = 'E' then
      let negative := s.head? == some '-'
      let s := if s.head? == some '-' || s.head? == some '+' then s.tail else s
      let ds := s.takeWhile Char.isDigit
      if ds.isEmpty then none
      else
        let n : Int := Nat.ofDigitChars 10 ds 0
        some (if negative then -n else n, s.dropWhile Char.isDigit)
    else none

def scanFraction (s : List Char) : Option (List Char × List Char) :=
  match s with
  | [] => none
  | c :: s => if c = '.' then some (s.takeWhile Char.isDigit, s.dropWhile Char.isDigit) else none

def Numeral.scan (s : List Char) : Option (Numeral × List Char) :=
  let whole := s.takeWhile Char.isDigit
  let rest := s.dropWhile Char.isDigit
  let point := scanFraction rest
  let frac := (point.map Prod.fst).getD []
  let rest := (point.map Prod.snd).getD rest
  if whole.isEmpty && frac.isEmpty then none
  else
    let power := scanExponent rest
    let e := (power.map Prod.fst).getD 0
    let rest := (power.map Prod.snd).getD rest
    some (⟨Nat.ofDigitChars 10 (whole ++ frac) 0, e - frac.length, point.isNone && power.isNone⟩,
      rest)

/-- Far outside the range of the exponent the powers of ten are not computed. -/
def Numeral.toBinary64 (negative : Bool) (n : Numeral) : Binary64 :=
  let top := n.exponent + (Decimal.digits n.digits).length
  if n.digits = 0 || top < -400 then ofMagnitude negative 0
  else if 400 < top then infinity negative
  else ofRatio negative (n.digits * Nat.pow 10 n.exponent.toNat) (Nat.pow 10 (-n.exponent).toNat)

def scanSign : List Char → Bool × List Char
  | [] => (false, [])
  | c :: s => if c = '-' then (true, s) else if c = '+' then (false, s) else (false, c :: s)

def read? (s : List Char) : Option Binary64 :=
  let (negative, s) := scanSign s
  let word := s.map Char.toLower
  if word = ['i', 'n', 'f'] ∨ word = ['i', 'n', 'f', 'i', 'n', 'i', 't', 'y'] then
    some (infinity negative)
  else if word = ['n', 'a', 'n'] then some nan
  else
    match Numeral.scan s with
    | some (n, []) => some (n.toBinary64 negative)
    | _ => none

end Tabular.Binary64
