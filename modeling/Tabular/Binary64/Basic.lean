/-! Floating-point numbers with 53 significant bits, kept as their 64-bit words. All arithmetic on
them is exact: a finite number is a whole multiple of the smallest positive one, `units`. -/

namespace Tabular

structure Binary64 where
  bits : UInt64
  deriving DecidableEq

namespace Binary64

def infinityMagnitude : Nat := 0x7ff0000000000000

def isNegative (x : Binary64) : Bool := decide (Nat.pow 2 63 ≤ x.bits.toNat)

def magnitude (x : Binary64) : Nat := x.bits.toNat % Nat.pow 2 63

def isNaN (x : Binary64) : Bool := decide (infinityMagnitude < x.magnitude)

def isInfinite (x : Binary64) : Bool := decide (x.magnitude = infinityMagnitude)

def isFinite (x : Binary64) : Bool := decide (x.magnitude < infinityMagnitude)

def exponentField (x : Binary64) : Nat := x.magnitude / Nat.pow 2 52

def significand (x : Binary64) : Nat :=
  let fraction := x.magnitude % Nat.pow 2 52
  if x.exponentField = 0 then fraction else Nat.pow 2 52 + fraction

def shift (x : Binary64) : Nat := x.exponentField - 1

/-- The size of the number in units of two to the power -1074. -/
def absUnits (x : Binary64) : Nat := x.significand * Nat.pow 2 x.shift

/-- The number in units of two to the power -1074; an infinity lies beyond every finite one. -/
def units (x : Binary64) : Int := if x.isNegative then -(x.absUnits : Int) else x.absUnits

def unitsPerOne : Nat := Nat.pow 2 1074

def ofMagnitude (negative : Bool) (m : Nat) : Binary64 :=
  ⟨UInt64.ofNat (if negative then Nat.pow 2 63 + m else m)⟩

def zero : Binary64 := ⟨0⟩

def nan : Binary64 := ⟨0x7ff8000000000000⟩

def infinity (negative : Bool) : Binary64 := ofMagnitude negative infinityMagnitude

def abs (x : Binary64) : Binary64 := ofMagnitude false x.magnitude

def divEven (num den : Nat) : Nat :=
  let q := num / den
  let r := num % den
  if 2 * r < den then q else if den < 2 * r then q + 1 else q + q % 2

def log2Ratio (num den : Nat) : Int :=
  let k : Int := (Nat.log2 num : Int) - Nat.log2 den
  if den * Nat.pow 2 k.toNat ≤ num * Nat.pow 2 (-k).toNat then k else k - 1

def nearestMagnitude (num den : Nat) : Nat :=
  if num = 0 then 0
  else
    let e : Int := max (log2Ratio num den - 52) (-1074)
    let q := divEven (num * Nat.pow 2 (-e).toNat) (den * Nat.pow 2 e.toNat)
    min ((e + 1074).toNat * Nat.pow 2 52 + q) infinityMagnitude

def ofRatio (negative : Bool) (num den : Nat) : Binary64 :=
  ofMagnitude negative (nearestMagnitude num den)

def ofInt (n : Int) : Binary64 := ofRatio (decide (n < 0)) n.natAbs 1

def ofBinary32 (bits : UInt32) : Binary64 :=
  let w := bits.toNat
  let negative := decide (Nat.pow 2 31 ≤ w)
  let e := w / Nat.pow 2 23 % Nat.pow 2 8
  let f := w % Nat.pow 2 23
  if e = 255 then if f = 0 then infinity negative else nan
  else if e = 0 then ofRatio negative f (Nat.pow 2 149)
  else ofRatio negative ((Nat.pow 2 23 + f) * Nat.pow 2 e) (Nat.pow 2 150)

def roundEven? (x : Binary64) : Option Int :=
  if x.isFinite then
    let n := divEven x.absUnits unitsPerOne
    some (if x.isNegative then -(n : Int) else n)
  else none

def whole? (x : Binary64) : Option Int :=
  if x.isFinite && x.absUnits % unitsPerOne == 0 then some (x.units.tdiv unitsPerOne) else none

/-- Order by value; it means nothing on an argument that is no number. -/
def compare (x y : Binary64) : Ordering := Ord.compare x.units y.units

def compareInt (x : Binary64) (n : Int) : Ordering := Ord.compare x.units (n * unitsPerOne)

end Binary64

end Tabular
