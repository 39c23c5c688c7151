import Mathlib
import Tabular.Calendar.Date

namespace Tabular.Calendar

variable {year : Int} {m k : Nat}

def yearLength (year : Int) : Nat := if isLeap year then 366 else 365

theorem daysBeforeYear_succ (year : Int) :
    daysBeforeYear (year + 1) = daysBeforeYear year + yearLength year := by
  simp only [daysBeforeYear, yearLength, isLeap, decide_eq_true_eq]
  split <;> omega

theorem daysBeforeYear_strictMono : StrictMono daysBeforeYear := by
  refine strictMono_int_of_lt_succ fun year => ?_
  rw [daysBeforeYear_succ, yearLength]
  split <;> omega

theorem daysBeforeMonth_one (year : Int) : daysBeforeMonth year 1 = 0 := rfl

theorem daysBeforeMonth_succ (year : Int) (h : 1 ≤ m) :
    daysBeforeMonth year (m + 1) = daysBeforeMonth year m + daysInMonth year m := by
  obtain ⟨m, rfl⟩ := Nat.exists_eq_add_of_le' h
  rfl

theorem daysBeforeMonth_mono (year : Int) : Monotone (daysBeforeMonth year) := by
  refine monotone_nat_of_le_succ fun m => ?_
  rcases Nat.eq_zero_or_pos m with rfl | hm
  · exact Nat.le_refl 0
  · rw [daysBeforeMonth_succ year hm]
    exact Nat.le_add_right ..

theorem daysBeforeMonth_end (year : Int) : daysBeforeMonth year 13 = yearLength year := by
  simp only [daysBeforeMonth, daysInMonth, yearLength]
  split <;> rfl

namespace Date

variable {d d' : Date}

def key (d : Date) : Int ×ₗ Nat ×ₗ Nat := toLex (d.year, toLex (d.month, d.day))

theorem key_injective : Function.Injective key := by
  rintro ⟨year, month, day, _, _, _, _⟩ ⟨year', month', day', _, _, _, _⟩ h
  cases h
  rfl

instance : LinearOrder Date := LinearOrder.lift' key key_injective

theorem lt_iff : d < d' ↔ d.year < d'.year ∨
    d.year = d'.year ∧ (d.month < d'.month ∨ d.month = d'.month ∧ d.day < d'.day) := by
  refine (Prod.Lex.toLex_lt_toLex).trans ?_
  simp only [Prod.Lex.toLex_lt_toLex]

theorem daysBeforeMonth_add_day_le (d : Date) (h : d.month < m) :
    daysBeforeMonth d.year d.month + d.day ≤ daysBeforeMonth d.year m :=
  calc daysBeforeMonth d.year d.month + d.day
    _ ≤ daysBeforeMonth d.year (d.month + 1) := by
      rw [daysBeforeMonth_succ d.year d.month_pos]
      exact Nat.add_le_add_left d.day_le _
    _ ≤ daysBeforeMonth d.year m := daysBeforeMonth_mono d.year h

theorem daysBeforeYear_le_number (d : Date) : daysBeforeYear d.year ≤ d.number := by
  have := d.day_pos
  unfold number
  omega

theorem number_lt (d : Date) : d.number < daysBeforeYear (d.year + 1) := by
  have := d.daysBeforeMonth_add_day_le (Nat.lt_succ_of_le d.month_le)
  rw [daysBeforeMonth_end] at this
  rw [daysBeforeYear_succ, number]
  omega

theorem year_le_iff (d : Date) {year : Int} : year ≤ d.year ↔ daysBeforeYear year ≤ d.number := by
  constructor
  · intro h
    exact (daysBeforeYear_strictMono.monotone h).trans d.daysBeforeYear_le_number
  · intro h
    by_contra early
    have later : daysBeforeYear (d.year + 1) ≤ daysBeforeYear year :=
      daysBeforeYear_strictMono.monotone (Int.not_le.1 early)
    exact absurd (later.trans h) (Int.not_le.2 d.number_lt)

theorem number_strictMono : StrictMono number := by
  intro d d' h
  rcases lt_iff.1 h with hy | ⟨hy, hm | ⟨hm, hd⟩⟩
  · calc d.number
      _ < daysBeforeYear (d.year + 1) := d.number_lt
      _ ≤ daysBeforeYear d'.year := daysBeforeYear_strictMono.monotone hy
      _ ≤ d'.number := d'.daysBeforeYear_le_number
  · have := d.daysBeforeMonth_add_day_le hm
    have := d'.day_pos
    rw [number, number, ← hy]
    omega
  · rw [number, number, ← hy, ← hm]
    omega

end Date

section Cycles

variable {cycles centuries fours years : Int}

theorem daysBeforeYear_cycles (hc : 0 ≤ centuries ∧ centuries ≤ 3) (hf : 0 ≤ fours ∧ fours ≤ 24)
    (hy : 0 ≤ years ∧ years ≤ 3) :
    daysBeforeYear (400 * cycles + 100 * centuries + 4 * fours + years + 1) =
      146097 * cycles + 36524 * centuries + 1461 * fours + 365 * years := by
  simp only [daysBeforeYear]
  omega

theorem yearLength_cycles (hc : 0 ≤ centuries ∧ centuries ≤ 3) (hf : 0 ≤ fours ∧ fours ≤ 24)
    (hy : 0 ≤ years ∧ years ≤ 3) :
    yearLength (400 * cycles + 100 * centuries + 4 * fours + years + 1) =
      if years = 3 ∧ (fours < 24 ∨ centuries = 3) then 366 else 365 := by
  simp only [yearLength, isLeap, decide_eq_true_eq]
  refine if_congr ?_ rfl rfl
  omega

end Cycles

theorem yearOf_bounds (n : Int) :
    daysBeforeYear (yearOf n) ≤ n ∧ n < daysBeforeYear (yearOf n + 1) := by
  have hn := Int.mul_ediv_add_emod n 146097
  have hr := Int.emod_nonneg n (show (146097 : Int) ≠ 0 by decide)
  have hr' := Int.emod_lt_of_pos n (show (0 : Int) < 146097 by decide)
  rw [daysBeforeYear_succ]
  simp only [yearOf]
  generalize n / 146097 = cycles at *
  generalize n % 146097 = r at *
  generalize hc : min (r / 36524) 3 = centuries
  generalize hs : r - 36524 * centuries = s
  generalize hf : s / 1461 = fours
  generalize ht : s - 1461 * fours = t
  generalize hy : min (t / 365) 3 = years
  have bc : 0 ≤ centuries ∧ centuries ≤ 3 := by omega
  have bf : 0 ≤ fours ∧ fours ≤ 24 := by omega
  have by' : 0 ≤ years ∧ years ≤ 3 := by omega
  rw [daysBeforeYear_cycles bc bf by', yearLength_cycles bc bf by']
  split <;> omega

theorem monthFrom_spec (more : Nat) {m k : Nat} (hm : 1 ≤ m)
    (h : daysBeforeMonth year m + k < daysBeforeMonth year (m + more + 1)) :
    let p := monthFrom year more m k
    m ≤ p.1 ∧ p.1 ≤ m + more ∧ 1 ≤ p.2 ∧ p.2 ≤ daysInMonth year p.1 ∧
      daysBeforeMonth year p.1 + p.2 = daysBeforeMonth year m + k + 1 := by
  induction more generalizing m k with
  | zero =>
    rw [Nat.add_zero, daysBeforeMonth_succ year hm] at h
    refine ⟨Nat.le_refl m, Nat.le_refl m, ?_, ?_, rfl⟩ <;> simp only [monthFrom] <;> omega
  | succ more ih =>
    have next := daysBeforeMonth_succ year hm
    rw [monthFrom]
    split
    · next inside => exact ⟨Nat.le_refl m, Nat.le_add_right .., by simp, inside, rfl⟩
    · next outside =>
      have rest : daysBeforeMonth year (m + 1) + (k - daysInMonth year m) <
          daysBeforeMonth year (m + 1 + more + 1) := by
        rw [show m + 1 + more + 1 = m + (more + 1) + 1 by omega]
        omega
      obtain ⟨low, high, pos, le, sum⟩ := ih (by omega) rest
      exact ⟨by omega, by omega, pos, le, by omega⟩

namespace Date

@[simp] theorem number_ofNumber (n : Int) : (ofNumber n).number = n := by
  obtain ⟨low, high⟩ := yearOf_bounds n
  rw [daysBeforeYear_succ, ← daysBeforeMonth_end] at high
  have inside : daysBeforeMonth (yearOf n) 1 + (n - daysBeforeYear (yearOf n)).toNat <
      daysBeforeMonth (yearOf n) 13 := by
    rw [daysBeforeMonth_one]
    omega
  obtain ⟨first, last, pos, le, sum⟩ := monthFrom_spec 11 (Nat.le_refl 1) inside
  rw [daysBeforeMonth_one] at sum
  simp only [ofNumber, of?, dif_pos (And.intro (And.intro first last) (And.intro pos le)),
    Option.getD_some, number]
  omega

@[simp] theorem ofNumber_number (d : Date) : ofNumber d.number = d :=
  number_strictMono.injective (number_ofNumber _)

end Date

end Tabular.Calendar
