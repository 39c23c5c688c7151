import Tabular.Proofs.Calendar.Moment
import Tabular.Proofs.Calendar.Span
import Tabular.Value.Datum

/-! Moments as ticks. From the ticks the moment is found again to the tick. The years one to 9999
have ticks, and so has what is less than a tick before them. Leap seconds apart a later moment has
no fewer ticks. -/

namespace Tabular.Calendar.Moment

variable {m : Moment} {t : Int64}

theorem ticks_eq_ok : m.ticks = .ok t ↔
    t.toInt = m.sinceFirst.total.tdiv nanosPerTick ∧ 0 ≤ t ∧ t ≤ maxMomentTicks := by
  have result : m.ticks = .ok t ↔ m.ticks? = some t := by
    unfold ticks
    cases m.ticks? <;> simp
  rw [result, ticks?, Option.filter_eq_some_iff, Span.ticks?_eq_some]
  simp

/-- What is less than a tick before the first moment counts as that moment. -/
theorem toInt_of_ticks (h : m.ticks = .ok t) : -nanosPerTick < m.sinceFirst.total ∧
    t.toInt = max 0 (m.sinceFirst.total / nanosPerTick) := by
  obtain ⟨count, nonneg, -⟩ := ticks_eq_ok.1 h
  rw [Int64.le_iff_toInt_le, Int64.toInt_zero] at nonneg
  rw [tdiv_nanosPerTick] at count
  simp only [nanosPerTick]
  split at count <;> omega

theorem ofTicks_eq_ok : ofTicks t = .ok m ↔ (0 ≤ t ∧ t ≤ maxMomentTicks) ∧
    m = ofSeconds (Span.ofTicks t).seconds (Span.ofTicks t).nanos
      (Nat.lt_trans (Span.ofTicks t).nanos_lt (by decide)) := by
  unfold ofTicks ofTicks?
  by_cases h : 0 ≤ t ∧ t ≤ maxMomentTicks
  · simp [h, eq_comm]
  · simp [h]

theorem exists_ticks_iff (m : Moment) : (∃ t, m.ticks = .ok t) ↔
    -nanosPerTick < m.sinceFirst.total ∧
      m.sinceFirst.total < daysBeforeYear 10000 * secondsPerDay * nanosPerSecond := by
  have last : daysBeforeYear 10000 * secondsPerDay * nanosPerSecond = 315537897600000000000 := by
    decide
  have most : maxMomentTicks.toInt = 3155378975999999999 := by decide
  simp only [ticks_eq_ok, tdiv_nanosPerTick, Int64.le_iff_toInt_le, Int64.toInt_zero, last, most]
  generalize m.sinceFirst.total = n
  simp only [nanosPerTick]
  constructor
  · rintro ⟨t, ht, low, high⟩
    split at ht <;> omega
  · rintro ⟨low, high⟩
    refine ⟨Int64.ofInt (if 0 ≤ n then n / 100 else -(-n / 100)), ?_⟩
    rw [Int64.toInt_ofInt_of_le] <;> split <;> omega

theorem ticks_eq_error : m.ticks = .error (.momentTicks m) ↔ ¬ ∃ t, m.ticks = .ok t := by
  unfold ticks
  cases m.ticks? <;> simp

def first : Moment := ⟨Date.first, ⟨0, 0, by decide, by decide⟩⟩

def tickBeforeFirst : Moment := ofSeconds (-1) 999999900 (by decide)

theorem total_first : first.sinceFirst.total = 0 := by decide

theorem total_tickBeforeFirst : tickBeforeFirst.sinceFirst.total = -nanosPerTick := by decide

theorem exists_ticks_iff_of_plain (h : m.clock.isLeapSecond = false) :
    (∃ t, m.ticks = .ok t) ↔ tickBeforeFirst < m ∧ m.date.year ≤ 9999 := by
  rw [exists_ticks_iff, lt_iff_total rfl h, total_tickBeforeFirst, ← Int.lt_add_one_iff,
    year_lt_iff h]
  rfl

def toTick (m : Moment) : Moment where
  date := m.date
  clock :=
    { m.clock with
      nano := m.clock.nano / nanosPerTick * nanosPerTick
      nano_lt := Nat.lt_of_le_of_lt (Nat.div_mul_le_self ..) m.clock.nano_lt }

theorem ticks_ofTicks (h : ofTicks t = .ok m) : m.ticks = .ok t := by
  obtain ⟨inside, rfl⟩ := ofTicks_eq_ok.1 h
  refine ticks_eq_ok.2 ⟨?_, inside⟩
  have total : (Span.ofTicks t).seconds * nanosPerSecond + (Span.ofTicks t).nanos =
      t.toInt * nanosPerTick := Span.total_ofTicks t
  rw [total_sinceFirst, seconds_ofSeconds]
  simp only [ofSeconds, total]
  exact (Int.mul_tdiv_cancel _ (by decide)).symm

theorem ofTicks_ticks (h : m.ticks = .ok t) (hy : 1 ≤ m.date.year)
    (hl : m.clock.isLeapSecond = false) : ofTicks t = .ok m.toTick := by
  obtain ⟨_, count⟩ := toInt_of_ticks h
  have nonneg : 0 ≤ m.seconds := m.year_le_iff.1 hy
  have plain : m.clock.nano < nanosPerSecond := Clock.isLeapSecond_eq_false.1 hl
  have cut : m.toTick.clock.nano < nanosPerSecond :=
    Nat.lt_of_le_of_lt (Nat.div_mul_le_self ..) plain
  have span : Span.ofTicks t = ⟨m.seconds, m.toTick.clock.nano, cut⟩ := by
    rw [← Span.ofTotal_total ⟨m.seconds, m.toTick.clock.nano, cut⟩, Span.ofTicks]
    congr 1
    rw [total_sinceFirst] at count
    simp only [Span.total, toTick, nanosPerTick, nanosPerSecond] at *
    omega
  refine ofTicks_eq_ok.2 ⟨(ticks_eq_ok.1 h).2, ?_⟩
  simp only [span]
  exact (m.ofSeconds_seconds _).symm

theorem ticks_inverse :
    (∀ t : Int64, ((∃ m, ofTicks t = .ok m) ↔ 0 ≤ t ∧ t ≤ maxMomentTicks) ∧
      ∀ m, ofTicks t = .ok m → m.ticks = .ok t) ∧
    ∀ m : Moment, 1 ≤ m.date.year → m.date.year ≤ 9999 → m.clock.isLeapSecond = false →
      ∃ t, m.ticks = .ok t ∧ ofTicks t = .ok m.toTick := by
  refine ⟨fun t => ⟨?_, fun m => ticks_ofTicks⟩, fun m first last plain => ?_⟩
  · constructor
    · rintro ⟨m, hm⟩
      exact (ofTicks_eq_ok.1 hm).1
    · intro inside
      exact ⟨_, ofTicks_eq_ok.2 ⟨inside, rfl⟩⟩
  · have nonneg : 0 ≤ m.seconds := m.year_le_iff.1 first
    have before : tickBeforeFirst.seconds = -1 := seconds_ofSeconds ..
    have after : tickBeforeFirst < m := lt_of_seconds_lt (by omega)
    obtain ⟨t, ht⟩ := (exists_ticks_iff_of_plain plain).2 ⟨after, last⟩
    exact ⟨t, ht, ofTicks_ticks ht first plain⟩

theorem ticks_inverse_last :
    let m : Moment :=
      { date := ⟨9999, 12, 31, by decide, by decide, by decide, by decide⟩
        clock := ⟨86399, 999999999, by decide, by decide⟩ }
    (1 ≤ m.date.year ∧ m.date.year ≤ 9999 ∧ m.clock.isLeapSecond = false) ∧
      m.ticks = .ok maxMomentTicks ∧ ofTicks maxMomentTicks = .ok m.toTick ∧
      m.toTick.ticks = .ok maxMomentTicks := by
  intro m
  have hm : m.ticks = .ok maxMomentTicks :=
    ticks_eq_ok.2 ⟨by decide, by decide, by decide⟩
  obtain ⟨t, ht, back⟩ := ticks_inverse.2 m (by decide) (by decide) (by decide)
  cases hm.symm.trans ht
  exact ⟨by decide, hm, back, (ticks_inverse.1 maxMomentTicks).2 _ back⟩

theorem ticks_eq_error_iff (h : m.clock.isLeapSecond = false) :
    (m.ticks = .error (.momentTicks m) ↔ m ≤ tickBeforeFirst ∨ 9999 < m.date.year) ∧
    (tickBeforeFirst < m → m < first → m.ticks = .ok 0) := by
  refine ⟨?_, fun after before => ?_⟩
  · rw [ticks_eq_error, exists_ticks_iff_of_plain h, not_and_or, not_lt, not_le]
  · rw [lt_iff_total rfl h, total_tickBeforeFirst, nanosPerTick] at after
    rw [lt_iff_total h rfl, total_first] at before
    refine ticks_eq_ok.2 ⟨?_, by decide, by decide⟩
    rw [tdiv_nanosPerTick, if_neg (not_le.2 before), Int64.toInt_zero]
    omega

theorem ticks_eq_error_iff_newYear :
    let m : Moment := { tickBeforeFirst with clock := ⟨86399, 999999901, by decide, by decide⟩ }
    let m' : Moment :=
      { date := ⟨10000, 1, 1, by decide, by decide, by decide, by decide⟩, clock := first.clock }
    (m.clock.isLeapSecond = false ∧ tickBeforeFirst < m ∧ m < first) ∧ m.ticks = .ok 0 ∧
      (m'.clock.isLeapSecond = false ∧ 9999 < m'.date.year) ∧
      m'.ticks = .error (.momentTicks m') := by
  intro m m'
  have after : tickBeforeFirst < m := by decide
  have before : m < first := by decide
  exact ⟨⟨rfl, after, before⟩, (ticks_eq_error_iff rfl).2 after before, ⟨rfl, by decide⟩,
    (ticks_eq_error_iff rfl).1.2 (.inr (by decide))⟩

theorem stored_before_first :
    let m : Moment := { tickBeforeFirst with clock := ⟨86399, 999999999, by decide, by decide⟩ }
    m.clock.isLeapSecond = false ∧ m < first ∧ m.date.year = 0 ∧ m.ticks = .ok 0 ∧
      Value.toDatum true (.moment m) = .ok (.integer 0) :=
  ⟨rfl, by decide, rfl, rfl, rfl⟩

theorem ticks_le_iff {a b : Moment} {ta tb : Int64} (ha : a.ticks = .ok ta) (hb : b.ticks = .ok tb)
    (h : a ≤ b) :
    (ta ≤ tb ↔ ¬ (b.seconds = a.seconds + 1 ∧
      b.clock.nano / nanosPerTick + ticksPerSecond < a.clock.nano / nanosPerTick)) ∧
    (a.clock.isLeapSecond = false → ta ≤ tb) := by
  obtain ⟨lowa, counta⟩ := toInt_of_ticks ha
  obtain ⟨lowb, countb⟩ := toInt_of_ticks hb
  have insidea := a.clock.nano_lt
  have insideb := b.clock.nano_lt
  rw [Int64.le_iff_toInt_le, Clock.isLeapSecond_eq_false, counta, countb]
  rw [le_iff_seconds] at h
  -- A clock tells less than two seconds, so that only seconds that follow each other can overlap.
  simp only [total_sinceFirst, nanosPerSecond, nanosPerTick, ticksPerSecond] at *
  omega

theorem ticks_le_iff_newYear :
    let a : Moment :=
      { date := ⟨2016, 12, 31, by decide, by decide, by decide, by decide⟩
        clock := ⟨86399, 1500000000, by decide, by decide⟩ }
    let b : Moment :=
      { date := ⟨2017, 1, 1, by decide, by decide, by decide, by decide⟩
        clock := ⟨0, 500000100, by decide, by decide⟩ }
    (a.ticks = .ok 636188256005000000 ∧ b.ticks = .ok 636188256005000001 ∧ a ≤ b) ∧
      (636188256005000000 : Int64) ≤ 636188256005000001 := by
  intro a b
  have ha : a.ticks = .ok 636188256005000000 := ticks_eq_ok.2 ⟨by decide, by decide, by decide⟩
  have hb : b.ticks = .ok 636188256005000001 := ticks_eq_ok.2 ⟨by decide, by decide, by decide⟩
  have h : a ≤ b := by decide
  exact ⟨⟨ha, hb, h⟩, (ticks_le_iff ha hb h).1.2 (by decide)⟩

theorem leap_second_counted_on :
    let a : Moment :=
      { date := ⟨2016, 12, 31, by decide, by decide, by decide, by decide⟩
        clock := ⟨86399, 1500000000, by decide, by decide⟩ }
    let b : Moment :=
      { date := ⟨2017, 1, 1, by decide, by decide, by decide, by decide⟩
        clock := ⟨0, 0, by decide, by decide⟩ }
    a.ticks = .ok 636188256005000000 ∧ b.ticks = .ok 636188256000000000 ∧ a ≤ b ∧
      ¬ (636188256005000000 : Int64) ≤ 636188256000000000 :=
  ⟨rfl, rfl, by decide, by decide⟩

end Tabular.Calendar.Moment
