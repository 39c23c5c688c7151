import Tabular.Calendar.Moment
import Tabular.Proofs.Calendar.Date

namespace Tabular.Calendar

theorem Clock.isLeapSecond_eq_false {t : Clock} :
    t.isLeapSecond = false ↔ t.nano < nanosPerSecond := by
  simp [isLeapSecond]

namespace Moment

variable {m m' : Moment}

def key (m : Moment) : Date ×ₗ Nat ×ₗ Nat := toLex (m.date, toLex (m.clock.second, m.clock.nano))

theorem key_injective : Function.Injective key := by
  rintro ⟨date, ⟨second, nano, _, _⟩⟩ ⟨date', ⟨second', nano', _, _⟩⟩ h
  cases h
  rfl

/-- Moments come after each other by date, second and nanosecond, so that a leap second comes before
the second that follows the one it is told by. -/
instance : LinearOrder Moment := LinearOrder.lift' key key_injective

theorem le_iff : m ≤ m' ↔ m.date < m'.date ∨ m.date = m'.date ∧
    (m.clock.second < m'.clock.second ∨
      m.clock.second = m'.clock.second ∧ m.clock.nano ≤ m'.clock.nano) := by
  refine (Prod.Lex.toLex_le_toLex).trans ?_
  simp only [Prod.Lex.toLex_le_toLex]

theorem seconds_lt_of_date_lt (h : m.date < m'.date) : m.seconds < m'.seconds := by
  have later := Date.number_strictMono h
  have inside := m.clock.second_lt
  simp only [seconds, secondsPerDay] at *
  omega

theorem le_iff_seconds : m ≤ m' ↔
    m.seconds < m'.seconds ∨ m.seconds = m'.seconds ∧ m.clock.nano ≤ m'.clock.nano := by
  rw [le_iff]
  rcases lt_trichotomy m.date m'.date with earlier | same | later
  · simp [earlier, seconds_lt_of_date_lt earlier]
  · simp only [seconds, same, lt_self_iff_false, false_or, true_and]
    omega
  · have := seconds_lt_of_date_lt later
    have not_lt : ¬ m.seconds < m'.seconds := by omega
    have ne : m.seconds ≠ m'.seconds := by omega
    simp [not_lt, ne, later.asymm, later.ne']

theorem lt_of_seconds_lt (h : m.seconds < m'.seconds) : m < m' := by
  refine not_le.1 fun later => ?_
  rcases le_iff_seconds.1 later with later | ⟨same, _⟩ <;> omega

theorem total_sinceFirst (m : Moment) :
    m.sinceFirst.total = m.seconds * nanosPerSecond + m.clock.nano :=
  Span.total_ofTotal _

/-- Between leap seconds and the seconds after them this does not hold. -/
theorem le_iff_total (h : m.clock.isLeapSecond = false) (h' : m'.clock.isLeapSecond = false) :
    m ≤ m' ↔ m.sinceFirst.total ≤ m'.sinceFirst.total := by
  simp only [Clock.isLeapSecond_eq_false, nanosPerSecond] at h h'
  rw [le_iff_seconds, total_sinceFirst, total_sinceFirst, nanosPerSecond]
  omega

theorem lt_iff_total (h : m.clock.isLeapSecond = false) (h' : m'.clock.isLeapSecond = false) :
    m < m' ↔ m.sinceFirst.total < m'.sinceFirst.total := by
  rw [← not_le, le_iff_total h' h, not_le]

theorem year_le_iff (m : Moment) {year : Int} :
    year ≤ m.date.year ↔ daysBeforeYear year * secondsPerDay ≤ m.seconds := by
  have inside := m.clock.second_lt
  rw [Date.year_le_iff]
  simp only [seconds, secondsPerDay] at *
  omega

theorem year_lt_iff (h : m.clock.isLeapSecond = false) {year : Int} : m.date.year < year ↔
    m.sinceFirst.total < daysBeforeYear year * secondsPerDay * nanosPerSecond := by
  simp only [Clock.isLeapSecond_eq_false, nanosPerSecond] at h
  rw [← not_le, year_le_iff, total_sinceFirst, nanosPerSecond]
  omega

@[simp] theorem seconds_ofSeconds (n : Int) {nano : Nat} (h : nano < 2 * nanosPerSecond) :
    (ofSeconds n nano h).seconds = n := by
  have day := Int.mul_ediv_add_emod n secondsPerDay
  have := Int.emod_nonneg n (show (secondsPerDay : Int) ≠ 0 by decide)
  simp only [seconds, ofSeconds, Date.number_ofNumber]
  rw [Int.mul_comm] at day
  omega

theorem ofSeconds_seconds (m : Moment) {nano : Nat} (h : nano < 2 * nanosPerSecond) :
    ofSeconds m.seconds nano h = { m with clock := { m.clock with nano, nano_lt := h } } := by
  obtain ⟨date, ⟨second, _, inside, _⟩⟩ := m
  have day : (date.number * secondsPerDay + second) / secondsPerDay = date.number := by
    simp only [secondsPerDay] at *
    omega
  have rest : (date.number * secondsPerDay + second) % secondsPerDay = second := by
    simp only [secondsPerDay] at *
    omega
  simp [ofSeconds, seconds, day, rest]

end Moment

end Tabular.Calendar
