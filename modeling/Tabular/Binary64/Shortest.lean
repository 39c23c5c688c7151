import Tabular.Decimal
import Tabular.Binary64.Basic

namespace Tabular.Binary64

def decade (num den : Nat) : Int :=
  if den ≤ num then (Decimal.digits (num / den)).length
  else 1 - ((Decimal.digits ((den - 1) / num)).length : Int)

/-- The numbers that read back to a finite one, in quarter units: the two ends of the interval,
with the number itself between them. -/
structure ReadBack where
  low : Nat
  mid : Nat
  high : Nat
  closed : Bool

def readBack (x : Binary64) : ReadBack :=
  let u := Nat.pow 2 x.shift
  let atPower := x.significand = Nat.pow 2 52 ∧ 1 < x.exponentField
  { low := (4 * x.significand - if atPower then 1 else 2) * u
    mid := 4 * x.significand * u
    high := (4 * x.significand + 2) * u
    closed := x.significand % 2 == 0 }

def ReadBack.contains (r : ReadBack) (num den : Nat) : Bool :=
  if r.closed then r.low * den ≤ num && num ≤ r.high * den
  else r.low * den < num && num < r.high * den

structure Scaled where
  digits : Nat
  exponent : Int

def quarterUnits : Nat := 4 * unitsPerOne

/-- The grid of decimals with the given exponent: of the two next to the number, the nearer one
that reads back; at equal distance the larger. -/
def onGrid? (r : ReadBack) (k : Int) : Option Scaled :=
  let up := Nat.pow 10 k.toNat * quarterUnits
  let down := Nat.pow 10 (-k).toNat
  let d := r.mid * down / up
  let left := r.contains (d * up) down
  let right := r.contains ((d + 1) * up) down
  let nearer := (2 * d + 1) * up ≤ 2 * r.mid * down
  if left && right then some ⟨if nearer then d + 1 else d, k⟩
  else if left then some ⟨d, k⟩
  else if right then some ⟨d + 1, k⟩
  else none

def shortest (x : Binary64) : Scaled :=
  let r := x.readBack
  let p := decade r.mid quarterUnits
  ((List.range 17).findSome? fun (i : Nat) => onGrid? r (p - 1 - i)).getD ⟨0, 0⟩

def dropTrailingZeros (s : List Char) : List Char := (s.reverse.dropWhile (· = '0')).reverse

def Scaled.positional (d : Scaled) : List Char :=
  let ds := Decimal.digits d.digits
  if 0 ≤ d.exponent then ds ++ List.replicate d.exponent.toNat '0'
  else
    let places := d.exponent.natAbs
    let ds := ds.leftpad (places + 1) '0'
    let frac := dropTrailingZeros (ds.drop (ds.length - places))
    ds.take (ds.length - places) ++ if frac.isEmpty then [] else '.' :: frac

def text (x : Binary64) : String :=
  if x.isNaN then "NaN"
  else
    let size :=
      if x.isInfinite then ['i', 'n', 'f']
      else if x.significand = 0 then ['0']
      else x.shortest.positional
    String.ofList (if x.isNegative then '-' :: size else size)

end Tabular.Binary64
