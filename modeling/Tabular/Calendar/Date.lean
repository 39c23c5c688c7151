namespace Tabular.Calendar

def isLeap (year : Int) : Bool :=
  decide (year % 4 = 0 ∧ (year % 100 ≠ 0 ∨ year % 400 = 0))

def daysInMonth (year : Int) : Nat → Nat
  | 2 => if isLeap year then 29 else 28
  | 4 | 6 | 9 | 11 => 30
  | _ => 31

def daysBeforeYear (year : Int) : Int :=
  let y := year - 1
  365 * y + y / 4 - y / 100 + y / 400

def daysBeforeMonth (year : Int) : Nat → Nat
  | 0 => 0
  | 1 => 0
  | m + 1 => daysBeforeMonth year m + daysInMonth year m

structure Date where
  year : Int
  month : Nat
  day : Nat
  month_pos : 1 ≤ month
  month_le : month ≤ 12
  day_pos : 1 ≤ day
  day_le : day ≤ daysInMonth year month
  deriving DecidableEq

def Date.of? (year : Int) (month day : Nat) : Option Date :=
  if h : (1 ≤ month ∧ month ≤ 12) ∧ 1 ≤ day ∧ day ≤ daysInMonth year month then
    some ⟨year, month, day, h.1.1, h.1.2, h.2.1, h.2.2⟩
  else none

def Date.first : Date := ⟨1, 1, 1, by decide, by decide, by decide, by decide⟩

def Date.number (d : Date) : Int :=
  daysBeforeYear d.year + daysBeforeMonth d.year d.month + (d.day - 1)

/-- The year of a day number: whole cycles of 400, 100, 4 and 1 years. The last cycle of 100 years
and the last year of four are a day longer than the others. -/
def yearOf (n : Int) : Int :=
  let r := n % 146097
  let centuries := min (r / 36524) 3
  let r := r - 36524 * centuries
  let fours := r / 1461
  let r := r - 1461 * fours
  400 * (n / 146097) + 100 * centuries + 4 * fours + min (r / 365) 3 + 1

def monthFrom (year : Int) : Nat → Nat → Nat → Nat × Nat
  | 0, m, k => (m, k + 1)
  | more + 1, m, k =>
    if k < daysInMonth year m then (m, k + 1)
    else monthFrom year more (m + 1) (k - daysInMonth year m)

def Date.ofNumber (n : Int) : Date :=
  let year := yearOf n
  let (month, day) := monthFrom year 11 1 (n - daysBeforeYear year).toNat
  (Date.of? year month day).getD Date.first

@[simp] theorem Date.number_first : Date.first.number = 0 := by decide

end Tabular.Calendar
