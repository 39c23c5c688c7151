import Tabular.Proofs.Binary64.Whole
import Tabular.Proofs.Value.Casting
import Tabular.Value.Datum

namespace Tabular.Capture

inductive Integer
  | int8 (n : Int8)
  | int16 (n : Int16)
  | int32 (n : Int32)
  | int64 (n : Int64)
  | uint8 (n : UInt8)
  | uint16 (n : UInt16)
  | uint32 (n : UInt32)
  | uint64 (n : UInt64)
  deriving DecidableEq

namespace Integer

def kind : Integer → Kind
  | .int8 _ => .int8
  | .int16 _ => .int16
  | .int32 _ => .int32
  | .int64 _ => .int64
  | .uint8 _ => .uint8
  | .uint16 _ => .uint16
  | .uint32 _ => .uint32
  | .uint64 _ => .uint64

def toInt : Integer → Int
  | .int8 n => n.toInt
  | .int16 n => n.toInt
  | .int32 n => n.toInt
  | .int64 n => n.toInt
  | .uint8 n => n.toNat
  | .uint16 n => n.toNat
  | .uint32 n => n.toNat
  | .uint64 n => n.toNat

def toValue : Integer → Value
  | .int8 n => Capture.toValue n
  | .int16 n => Capture.toValue n
  | .int32 n => Capture.toValue n
  | .int64 n => Capture.toValue n
  | .uint8 n => Capture.toValue n
  | .uint16 n => Capture.toValue n
  | .uint32 n => Capture.toValue n
  | .uint64 n => Capture.toValue n

variable {x y : Integer}

theorem isWhole_kind (x : Integer) : x.kind.isWhole := by
  cases x <;> rfl

theorem holds_kind (x : Integer) : x.kind.holds x.toInt := by
  cases x <;> simp only [kind, toInt, Kind.holds]
  case int8 n => exact decide_eq_true ⟨n.le_toInt, n.toInt_lt⟩
  case int16 n => exact decide_eq_true ⟨n.le_toInt, n.toInt_lt⟩
  case int32 n => exact decide_eq_true ⟨n.le_toInt, n.toInt_lt⟩
  case uint8 n => exact decide_eq_true ⟨Int.natCast_nonneg _, Int.ofNat_lt.2 n.toNat_lt⟩
  case uint16 n => exact decide_eq_true ⟨Int.natCast_nonneg _, Int.ofNat_lt.2 n.toNat_lt⟩
  case uint32 n => exact decide_eq_true ⟨Int.natCast_nonneg _, Int.ofNat_lt.2 n.toNat_lt⟩
  case uint64 n => exact decide_eq_true (Int.natCast_nonneg _)

theorem eq_of_toInt_eq (hk : x.kind = y.kind) (h : x.toInt = y.toInt) : x = y := by
  cases x <;> cases y <;> cases hk <;> congr 1
  · exact Int8.toInt_inj.1 h
  · exact Int16.toInt_inj.1 h
  · exact Int32.toInt_inj.1 h
  · exact Int64.toInt_inj.1 h
  · exact UInt8.toNat_inj.1 (Int.ofNat.inj h)
  · exact UInt16.toNat_inj.1 (Int.ofNat.inj h)
  · exact UInt32.toNat_inj.1 (Int.ofNat.inj h)
  · exact UInt64.toNat_inj.1 (Int.ofNat.inj h)

theorem toValue_of_lt (h : x.toInt < 2 ^ 63) :
    ∃ m : Int64, m.toInt = x.toInt ∧ x.toValue = .int m := by
  have small {n : Nat} (hn : n < 2 ^ 63) : (Int64.ofNat n).toInt = n := Int64.toInt_ofNat_of_lt hn
  cases x with
  | int8 n => exact ⟨_, n.toInt_toInt64, rfl⟩
  | int16 n => exact ⟨_, n.toInt_toInt64, rfl⟩
  | int32 n => exact ⟨_, n.toInt_toInt64, rfl⟩
  | int64 n => exact ⟨n, rfl, rfl⟩
  | uint8 n => exact ⟨_, small (Nat.lt_trans n.toNat_lt (by decide)), rfl⟩
  | uint16 n => exact ⟨_, small (Nat.lt_trans n.toNat_lt (by decide)), rfl⟩
  | uint32 n => exact ⟨_, small (Nat.lt_trans n.toNat_lt (by decide)), rfl⟩
  | uint64 n =>
    have fits := small (Int.ofNat_lt.1 h)
    have read : Decimal.toInt64? n.toNat = some (Int64.ofNat n.toNat) :=
      Decimal.toInt64?_eq_some.2 fits
    exact ⟨_, fits, by simp only [toValue, Capture.toValue, read]⟩

/-- Only the largest type has numbers beyond a signed word. -/
theorem toValue_of_le (h : 2 ^ 63 ≤ x.toInt) :
    x.kind = .uint64 ∧ x.toInt < 2 ^ 64 ∧ x.toValue = .float (Binary64.ofInt x.toInt) := by
  cases x with
  | int8 n => exact absurd n.toInt_lt (by simp only [toInt] at h; omega)
  | int16 n => exact absurd n.toInt_lt (by simp only [toInt] at h; omega)
  | int32 n => exact absurd n.toInt_lt (by simp only [toInt] at h; omega)
  | int64 n => exact absurd n.toInt_lt (by simp only [toInt] at h; omega)
  | uint8 n => exact absurd n.toNat_lt (by simp only [toInt] at h; omega)
  | uint16 n => exact absurd n.toNat_lt (by simp only [toInt] at h; omega)
  | uint32 n => exact absurd n.toNat_lt (by simp only [toInt] at h; omega)
  | uint64 n =>
    have beyond : Decimal.toInt64? n.toNat = none := by
      refine Option.eq_none_iff_forall_ne_some.2 fun m hm => ?_
      have := Decimal.toInt64?_eq_some.1 hm
      have := m.toInt_lt
      simp only [toInt] at h
      omega
    exact ⟨rfl, Int.ofNat_lt.2 n.toNat_lt, by simp only [toValue, Capture.toValue, beyond, toInt]⟩

theorem convert_of_lt (h : x.toInt < 2 ^ 63) : x.toValue.convert x.kind = .ok x.toValue := by
  obtain ⟨m, number, value⟩ := toValue_of_lt h
  rw [value, Value.convert_whole x.isWhole_kind rfl, number, if_pos x.holds_kind]

theorem convert_of_le (h : 2 ^ 63 ≤ x.toInt) :
    x.toValue.convert x.kind = .error (.conversion x.toValue x.kind) := by
  obtain ⟨kind, most, value⟩ := toValue_of_le h
  obtain ⟨n, number⟩ := Int.eq_ofNat_of_zero_le (show 0 ≤ x.toInt by omega)
  have low : 2 ^ (52 + 11) ≤ n := by omega
  have high : n < 2 ^ (53 + 11) := by omega
  have least := (Binary64.divEven_bounds low high).1
  have read : x.toValue.toInteger? = none := by
    rw [value, number, Value.toInteger?, Binary64.roundEven?_ofInt low high (by decide)]
    refine Option.eq_none_iff_forall_ne_some.2 fun m hm => ?_
    have := Decimal.toInt64?_eq_some.1 hm
    have := m.toInt_lt
    omega
  have ne : x.toValue.isNull = false := by rw [value]; rfl
  rw [Value.convert, ne, Value.convert?_whole x.isWhole_kind, read]
  rfl

theorem toDatum_of_lt (h : x.toInt < 2 ^ 63) (ticks : Bool) :
    ∃ m : Int64, m.toInt = x.toInt ∧ x.toValue.toDatum ticks = .ok (.integer m) := by
  obtain ⟨m, number, value⟩ := toValue_of_lt h
  exact ⟨m, number, by rw [value]; rfl⟩

theorem toDatum_of_le (h : 2 ^ 63 ≤ x.toInt) (ticks : Bool) :
    x.toValue.toDatum ticks = .ok (.real (Binary64.ofInt x.toInt)) := by
  rw [(toValue_of_le h).2.2]
  rfl

theorem ofInt_toInt_eq_iff (hx : 2 ^ 63 ≤ x.toInt) (hy : 2 ^ 63 ≤ y.toInt) :
    Binary64.ofInt x.toInt = Binary64.ofInt y.toInt ↔
      Binary64.divEven x.toInt.toNat 2048 = Binary64.divEven y.toInt.toNat 2048 := by
  have mostx := (toValue_of_le hx).2.1
  have mosty := (toValue_of_le hy).2.1
  rw [← Int.toNat_of_nonneg (show 0 ≤ x.toInt by omega),
    ← Int.toNat_of_nonneg (show 0 ≤ y.toInt by omega), Int.toNat_natCast, Int.toNat_natCast]
  exact Binary64.ofInt_eq_ofInt_iff (s := 11) (by omega) (by omega) (by omega) (by omega)
    (by decide)

theorem convert_toValue :
    (∀ x : Integer,
      (x.toInt < 2 ^ 63 → (∃ m : Int64, m.toInt = x.toInt ∧ x.toValue = .int m) ∧
        x.toValue.convert x.kind = .ok x.toValue) ∧
      (2 ^ 63 ≤ x.toInt → x.kind = .uint64 ∧ x.toValue = .float (Binary64.ofInt x.toInt) ∧
        x.toValue.convert x.kind = .error (.conversion x.toValue x.kind))) ∧
    ∀ (x y : Integer) (ticks : Bool), x.kind = y.kind → x ≠ y →
      ∃ d e, x.toValue.toDatum ticks = .ok d ∧ y.toValue.toDatum ticks = .ok e ∧
        (d = e ↔ 2 ^ 63 ≤ x.toInt ∧ 2 ^ 63 ≤ y.toInt ∧
          Binary64.divEven x.toInt.toNat 2048 = Binary64.divEven y.toInt.toNat 2048) := by
  refine ⟨fun x => ⟨fun h => ⟨toValue_of_lt h, convert_of_lt h⟩, fun h => ?_⟩,
    fun x y ticks hk ne => ?_⟩
  · exact ⟨(toValue_of_le h).1, (toValue_of_le h).2.2, convert_of_le h⟩
  · rcases Int.lt_or_le x.toInt (2 ^ 63) with hx | hx <;>
      rcases Int.lt_or_le y.toInt (2 ^ 63) with hy | hy
    · obtain ⟨m, numberx, datumx⟩ := toDatum_of_lt hx ticks
      obtain ⟨m', numbery, datumy⟩ := toDatum_of_lt hy ticks
      refine ⟨_, _, datumx, datumy, iff_of_false ?_ fun h => absurd h.1 (Int.not_le.2 hx)⟩
      rintro ⟨⟩
      exact ne (eq_of_toInt_eq hk (numberx.symm.trans numbery))
    · obtain ⟨m, _, datumx⟩ := toDatum_of_lt hx ticks
      exact ⟨_, _, datumx, toDatum_of_le hy ticks,
        iff_of_false nofun fun h => absurd h.1 (Int.not_le.2 hx)⟩
    · obtain ⟨m, _, datumy⟩ := toDatum_of_lt hy ticks
      exact ⟨_, _, toDatum_of_le hx ticks, datumy,
        iff_of_false nofun fun h => absurd h.2.1 (Int.not_le.2 hy)⟩
    · refine ⟨_, _, toDatum_of_le hx ticks, toDatum_of_le hy ticks, ?_⟩
      rw [Datum.real.injEq, ofInt_toInt_eq_iff hx hy]
      exact ⟨fun h => ⟨hx, hy, h⟩, fun h => h.2.2⟩

theorem convert_toValue_boundary :
    let x : Integer := .uint64 9223372036854775807
    let y : Integer := .uint64 9223372036854775808
    (x.toInt < 2 ^ 63 ∧ x.toValue.convert .uint64 = .ok x.toValue) ∧
      (2 ^ 63 ≤ y.toInt ∧ y.toValue.convert .uint64 = .error (.conversion y.toValue .uint64)) ∧
      (x.kind = y.kind ∧ x ≠ y) ∧
      ∃ d e, x.toValue.toDatum false = .ok d ∧ y.toValue.toDatum false = .ok e ∧ d ≠ e := by
  intro x y
  have hx : x.toInt < 2 ^ 63 := by decide
  have hy : 2 ^ 63 ≤ y.toInt := by decide
  have differ : x ≠ y := by decide
  obtain ⟨d, e, hd, he, same⟩ := convert_toValue.2 x y false rfl differ
  refine ⟨⟨hx, ((convert_toValue.1 x).1 hx).2⟩, ⟨hy, ((convert_toValue.1 y).2 hy).2.2⟩,
    ⟨rfl, differ⟩, d, e, hd, he, fun h => ?_⟩
  exact absurd (same.1 h).1 (Int.not_le.2 hx)

theorem beyond_word_lost :
    let x : Integer := .uint64 9223372036854775808
    let y : Integer := .uint64 9223372036854775809
    x ≠ y ∧ x.toValue.convert x.kind = .error (.conversion x.toValue x.kind) ∧
      y.toValue.convert y.kind = .error (.conversion y.toValue y.kind) ∧
      x.toValue.toDatum false = y.toValue.toDatum false :=
  ⟨by decide, convert_of_le (by decide), convert_of_le (by decide), rfl⟩

end Integer

end Tabular.Capture
