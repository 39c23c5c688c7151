import Tabular.Binary64.Numeral
import Tabular.Binary64.Shortest
import Tabular.Value.Basic

namespace Tabular

namespace Binary64

/-- The number rounded to a count of significant digits, a half away from zero: the digits, and
the power of ten that the number lies just below. -/
def significant (count : Nat) (x : Binary64) : Nat × Int :=
  let p := decade x.absUnits unitsPerOne
  let k := p - count
  let num := x.absUnits * Nat.pow 10 (-k).toNat
  let den := unitsPerOne * Nat.pow 10 k.toNat
  let d := (2 * num + den) / (2 * den)
  if d = Nat.pow 10 count then (Nat.pow 10 (count - 1), p + 1) else (d, p)

def storedDigits : Nat := 15

def fractionDigits (s : List Char) : List Char :=
  let s := dropTrailingZeros s
  if s.isEmpty then ['0'] else s

/-- Fifteen digits at most. The point is always written, and an exponent where the first digit
stands more than four places behind the point or the point behind the last digit. -/
def storedText (x : Binary64) : String :=
  let size :=
    if x.isInfinite then ['I', 'n', 'f']
    else if x.absUnits = 0 then ['0', '.', '0']
    else
      let (d, p) := x.significant storedDigits
      let ds := Decimal.digits d
      let e := p - 1
      if e < -4 || (storedDigits : Int) ≤ e then
        ds.take 1 ++ '.' :: fractionDigits (ds.drop 1) ++ 'e' :: (if e < 0 then '-' else '+') ::
          Decimal.padded 2 e.natAbs
      else if e < 0 then
        '0' :: '.' :: List.replicate (e.natAbs - 1) '0' ++ fractionDigits ds
      else ds.take (e.toNat + 1) ++ '.' :: fractionDigits (ds.drop (e.toNat + 1))
  String.ofList (if x.isNegative && x.absUnits != 0 then '-' :: size else size)

end Binary64

namespace Database

def isSpace (c : Char) : Bool := c == ' ' || (0x9 ≤ c.toNat && c.toNat ≤ 0xd)

/-- The whole numbers that a float may be turned into; the two outermost stay floats. -/
def integral? (x : Binary64) : Option Int64 :=
  (x.whole?.bind Decimal.toInt64?).filter fun n => n != Int64.minValue && n != Int64.maxValue

def signed? (s : List Char) : Option (Datum × List Char) :=
  let (negative, s) := Binary64.scanSign (s.dropWhile isSpace)
  (Binary64.Numeral.scan s).map fun (n, rest) =>
    let digits : Int := if negative then -n.digits else n.digits
    let whole := if n.plain then Decimal.toInt64? digits else none
    (match whole with
      | some m => .integer m
      | none => .real (n.toBinary64 negative), rest)

def number? (s : String) : Option Datum :=
  (signed? s.toList).bind fun r => if r.2.all isSpace then some r.1 else none

def leadingNumber (s : String) : Datum := ((signed? s.toList).map Prod.fst).getD (.integer 0)

def clampInt64 (n : Int) : Int64 :=
  Int64.ofInt (max Int64.minValue.toInt (min Int64.maxValue.toInt n))

def leadingInt (s : String) : Int64 :=
  let (negative, s) := Binary64.scanSign (s.toList.dropWhile isSpace)
  let n : Int := Nat.ofDigitChars 10 (s.takeWhile Char.isDigit) 0
  clampInt64 (if negative then -n else n)

/-- The characters before the first NUL; where a text is measured or matched, it ends there. -/
def beforeNul (s : String) : List Char := s.toList.takeWhile (· != '\x00')

/-- Bytes read as text; text that is not well formed is not told apart. -/
def blobText (b : List UInt8) : String :=
  (String.fromUTF8? ⟨b.toArray⟩).getD (String.ofList (b.map fun u => Char.ofNat u.toNat))

end Database

namespace Datum

def text? : Datum → Option String
  | .null => none
  | .integer n => some (String.ofList (Decimal.ofInt n.toInt))
  | .real x => some x.storedText
  | .text s => some s
  | .blob b => some (Database.blobText b)

def number? : Datum → Option Datum
  | .null => none
  | .integer n => some (.integer n)
  | .real x => some (.real x)
  | .text s => some (Database.leadingNumber s)
  | .blob b => some (Database.leadingNumber (Database.blobText b))

def truth (d : Datum) : Option Bool :=
  match d.number? with
  | some (.integer n) => some (n != 0)
  | some (.real x) => some (x.absUnits != 0)
  | _ => none

def ofTruth : Option Bool → Datum
  | some b => .integer (if b then 1 else 0)
  | none => .null

/-- The whole part of a number, and the whole number that a text begins with, digits alone; either
is kept inside the range of integers. -/
def int? : Datum → Option Int64
  | .null => none
  | .integer n => some n
  | .real x => some (Database.clampInt64 (x.units.tdiv Binary64.unitsPerOne))
  | .text s => some (Database.leadingInt s)
  | .blob b => some (Database.leadingInt (Database.blobText b))

def float? (d : Datum) : Option Binary64 :=
  match d.number? with
  | some (.integer n) => some (Binary64.ofInt n.toInt)
  | some (.real x) => some x
  | _ => none

end Datum

end Tabular
