import Mathlib.Algebra.Group.Nat.Defs
import Tabular.Binary64.Basic

namespace Tabular.Binary64

variable {den n n' q s t : Nat}

theorem unitsPerOne_pos : 0 < unitsPerOne := by
  unfold unitsPerOne
  -- The power is not to be computed.
  generalize 1074 = n
  exact Nat.two_pow_pos n

theorem two_pow_add_1074 (s : Nat) : 2 ^ (s + 1074) = 2 ^ s * unitsPerOne := by
  unfold unitsPerOne
  generalize 1074 = n
  exact Nat.pow_add 2 s n

theorem divEven_mul_self (n : Nat) (h : 0 < den) : divEven (n * den) den = n := by
  simp [divEven, h]

theorem div_le_divEven (num den : Nat) : num / den ≤ divEven num den := by
  rw [divEven]
  split
  · exact Nat.le_refl _
  · split <;> exact Nat.le_add_right ..

theorem divEven_le (num den : Nat) : divEven num den ≤ num / den + 1 := by
  rw [divEven]
  split
  · exact Nat.le_succ _
  · split
    · exact Nat.le_refl _
    · exact Nat.add_le_add_left (Nat.le_of_lt_succ (Nat.mod_lt _ (by decide))) _

theorem divEven_bounds (low : 2 ^ (52 + s) ≤ n) (high : n < 2 ^ (53 + s)) :
    2 ^ 52 ≤ divEven n (2 ^ s) ∧ divEven n (2 ^ s) ≤ 2 ^ 53 := by
  have least : 2 ^ 52 ≤ n / 2 ^ s := by
    rw [Nat.le_div_iff_mul_le (Nat.two_pow_pos s), ← Nat.pow_add]
    exact low
  have most : n / 2 ^ s < 2 ^ 53 := by
    rw [Nat.div_lt_iff_lt_mul (Nat.two_pow_pos s), ← Nat.pow_add]
    exact high
  exact ⟨Nat.le_trans least (div_le_divEven ..), Nat.le_trans (divEven_le ..) most⟩

theorem log2Ratio_one (h : n ≠ 0) : log2Ratio n 1 = n.log2 := by
  have self : 2 ^ n.log2 ≤ n := Nat.log2_self_le h
  have one : Nat.log2 1 = 0 := by decide
  simp only [log2Ratio, one, Int.ofNat_zero, Int.sub_zero]
  rw [if_pos]
  simpa using self

theorem nearestMagnitude_one (low : 2 ^ (52 + s) ≤ n) (high : n < 2 ^ (53 + s)) (hs : s ≤ 970) :
    nearestMagnitude n 1 = (s + 1074) * 2 ^ 52 + divEven n (2 ^ s) := by
  have ne : n ≠ 0 := Nat.ne_of_gt (Nat.lt_of_lt_of_le (Nat.two_pow_pos _) low)
  have size : n.log2 = 52 + s := (Nat.log2_eq_iff ne).2 ⟨low, by rwa [Nat.add_right_comm]⟩
  have exponent : max (log2Ratio n 1 - 52) (-1074) = (s : Int) := by
    rw [log2Ratio_one ne, size]
    omega
  have place : ((s : Int) + 1074).toNat = s + 1074 := by omega
  have most := (divEven_bounds low high).2
  simp only [nearestMagnitude, if_neg ne, exponent, infinityMagnitude, Nat.pow_eq]
  simp only [Int.toNat_neg_natCast, Int.toNat_natCast, Nat.pow_zero, Nat.mul_one, Nat.one_mul,
    place]
  omega

section Magnitude

variable (ht : t ≤ 2044) (low : 2 ^ 52 ≤ q) (high : q ≤ 2 ^ 53)

include ht high

theorem toNat_bits : (ofMagnitude false (t * 2 ^ 52 + q)).bits.toNat = t * 2 ^ 52 + q := by
  simp only [ofMagnitude, Bool.false_eq_true, if_false, UInt64.toNat_ofNat']
  exact Nat.mod_eq_of_lt (by omega)

theorem magnitude_ofMagnitude :
    (ofMagnitude false (t * 2 ^ 52 + q)).magnitude = t * 2 ^ 52 + q := by
  rw [magnitude, toNat_bits ht high]
  exact Nat.mod_eq_of_lt (by simp only [Nat.pow_eq]; omega)

theorem isNegative_ofMagnitude : (ofMagnitude false (t * 2 ^ 52 + q)).isNegative = false := by
  rw [isNegative, toNat_bits ht high, decide_eq_false_iff_not, Nat.pow_eq]
  omega

theorem isFinite_ofMagnitude : (ofMagnitude false (t * 2 ^ 52 + q)).isFinite = true := by
  rw [isFinite, magnitude_ofMagnitude ht high, decide_eq_true_eq, infinityMagnitude]
  omega

include low in
theorem absUnits_ofMagnitude : (ofMagnitude false (t * 2 ^ 52 + q)).absUnits = q * 2 ^ t := by
  have field : (ofMagnitude false (t * 2 ^ 52 + q)).exponentField = t + q / 2 ^ 52 := by
    rw [exponentField, magnitude_ofMagnitude ht high, Nat.pow_eq]
    omega
  have rest : (ofMagnitude false (t * 2 ^ 52 + q)).magnitude % 2 ^ 52 = q % 2 ^ 52 := by
    rw [magnitude_ofMagnitude ht high]
    omega
  have ne : t + q / 2 ^ 52 ≠ 0 := by omega
  simp only [absUnits, significand, shift, field, if_neg ne, Nat.pow_eq, rest]
  rcases Nat.lt_or_eq_of_le high with below | rfl
  · have one : q / 2 ^ 52 = 1 := by omega
    have all : 2 ^ 52 + q % 2 ^ 52 = q := by omega
    rw [one, all, Nat.add_sub_cancel]
  · have two : t + 2 ^ 53 / 2 ^ 52 - 1 = t + 1 := by omega
    have none : 2 ^ 52 + 2 ^ 53 % 2 ^ 52 = 2 ^ 52 := by decide
    rw [two, none, Nat.pow_succ]
    omega

end Magnitude

theorem ofInt_natCast (low : 2 ^ (52 + s) ≤ n) (high : n < 2 ^ (53 + s)) (hs : s ≤ 970) :
    ofInt n = ofMagnitude false ((s + 1074) * 2 ^ 52 + divEven n (2 ^ s)) := by
  have nonneg : decide ((n : Int) < 0) = false := by simp
  rw [ofInt, ofRatio, nonneg, Int.natAbs_natCast, nearestMagnitude_one low high hs]

theorem roundEven?_ofInt (low : 2 ^ (52 + s) ≤ n) (high : n < 2 ^ (53 + s)) (hs : s ≤ 970) :
    (ofInt n).roundEven? = some ↑(divEven n (2 ^ s) * 2 ^ s) := by
  obtain ⟨least, most⟩ := divEven_bounds low high
  have ht : s + 1074 ≤ 2044 := by omega
  rw [ofInt_natCast low high hs, roundEven?, isFinite_ofMagnitude ht most, if_pos rfl]
  simp only [isNegative_ofMagnitude ht most, absUnits_ofMagnitude ht least most]
  rw [two_pow_add_1074, ← Nat.mul_assoc, divEven_mul_self _ unitsPerOne_pos]
  rfl

theorem ofInt_eq_ofInt_iff (low : 2 ^ (52 + s) ≤ n) (high : n < 2 ^ (53 + s))
    (low' : 2 ^ (52 + s) ≤ n') (high' : n' < 2 ^ (53 + s)) (hs : s ≤ 970) :
    ofInt n = ofInt n' ↔ divEven n (2 ^ s) = divEven n' (2 ^ s) := by
  have ht : s + 1074 ≤ 2044 := by omega
  rw [ofInt_natCast low high hs, ofInt_natCast low' high' hs]
  constructor
  · intro h
    have bits := congrArg (fun x => x.bits.toNat) h
    simp only [toNat_bits ht (divEven_bounds low high).2,
      toNat_bits ht (divEven_bounds low' high').2] at bits
    omega
  · intro h
    rw [h]

end Tabular.Binary64
