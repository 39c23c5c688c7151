import Tabular.Proofs.Calendar.Moment
import Tabular.Proofs.Decimal
import Tabular.Value.Datum

namespace Tabular.Calendar

open Decimal (padded padded_append_le_iff padded_small)

variable {c : Char} {r s : List UInt8}

theorem cons_le_cons_same {b : UInt8} : b :: r ≤ b :: s ↔ r ≤ s := by
  simp [List.cons_le_cons_iff]

theorem daysInMonth_le (year : Int) (m : Nat) : daysInMonth year m ≤ 31 := by
  unfold daysInMonth
  split
  · split <;> decide
  all_goals decide

namespace Date

variable {d d' : Date}

/-- The years that are written with four digits and no sign. -/
def IsPlain (d : Date) : Prop := 0 ≤ d.year ∧ d.year ≤ 9999

theorem eq_iff : d = d' ↔ d.year = d'.year ∧ d.month = d'.month ∧ d.day = d'.day := by
  constructor
  · rintro rfl
    exact ⟨rfl, rfl, rfl⟩
  · rintro ⟨year, month, day⟩
    exact key_injective (by rw [key, key, year, month, day])

theorem text_of_isPlain (h : d.IsPlain) : d.text =
    padded 4 d.year.natAbs ++ '-' :: padded 2 d.month ++ '-' :: padded 2 d.day := by
  rw [text, yearText, if_neg (Int.not_lt.2 h.1), if_neg (Int.not_lt.2 h.2)]

theorem text_small (d : Date) : ∀ c ∈ d.text, c.toNat < 128 := by
  have year : ∀ c ∈ yearText d.year, c.toNat < 128 := by
    unfold yearText
    split
    · exact List.forall_mem_cons.2 ⟨by decide, padded_small _ _⟩
    · split
      · exact List.forall_mem_cons.2 ⟨by decide, padded_small _ _⟩
      · exact padded_small _ _
  simp only [text, List.forall_mem_append, List.forall_mem_cons]
  exact ⟨⟨year, by decide, padded_small _ _⟩, by decide, padded_small _ _⟩

theorem text_append_le_iff (h : d.IsPlain) (h' : d'.IsPlain) :
    d.text.map Text.byte ++ r ≤ d'.text.map Text.byte ++ s ↔ d < d' ∨ d = d' ∧ r ≤ s := by
  obtain ⟨low, high⟩ := h
  obtain ⟨low', high'⟩ := h'
  have years : d.year.natAbs < 10 ^ 4 ∧ d'.year.natAbs < 10 ^ 4 := by omega
  have months : d.month < 10 ^ 2 ∧ d'.month < 10 ^ 2 := by
    have := d.month_le
    have := d'.month_le
    omega
  have days : d.day < 10 ^ 2 ∧ d'.day < 10 ^ 2 := by
    have := d.day_le.trans (daysInMonth_le ..)
    have := d'.day_le.trans (daysInMonth_le ..)
    omega
  rw [text_of_isPlain ⟨low, high⟩, text_of_isPlain ⟨low', high'⟩, lt_iff, eq_iff]
  simp only [List.map_append, List.map_cons, List.append_assoc, List.cons_append,
    cons_le_cons_same, padded_append_le_iff (show 0 < 4 by decide) years.1 years.2,
    padded_append_le_iff (show 0 < 2 by decide) months.1 months.2,
    padded_append_le_iff (show 0 < 2 by decide) days.1 days.2]
  by_cases rest : r ≤ s <;> simp only [rest, and_true, and_false, or_false] <;> omega

end Date

namespace Clock

variable {t t' : Clock}

/-- A leap second is the last second of its minute. -/
def IsRegular (t : Clock) : Prop := t.isLeapSecond → t.secondOfMinute = 59

instance (t : Clock) : Decidable t.IsRegular :=
  inferInstanceAs (Decidable (_ → _))

theorem isRegular_iff : t.IsRegular ↔ t.nano < nanosPerSecond ∨ t.second % 60 = 59 := by
  simp only [IsRegular, isLeapSecond, decide_eq_true_eq, secondOfMinute]
  omega

theorem of_not_isRegular (h : ¬ t.IsRegular) :
    nanosPerSecond ≤ t.nano ∧ t.nano < 2 * nanosPerSecond ∧ t.second % 60 < 59 := by
  have := t.nano_lt
  rw [isRegular_iff] at h
  omega

theorem succ_second_lt (h : ¬ t.IsRegular) : t.second + 1 < secondsPerDay := by
  have inside := t.second_lt
  obtain ⟨_, _, not_last⟩ := of_not_isRegular h
  simp only [secondsPerDay] at *
  omega

/-- The clock whose text is read off: a leap second within a minute is the second after it. -/
def shown (t : Clock) : Clock :=
  if h : t.IsRegular then t
  else ⟨t.second + 1, t.nano - nanosPerSecond, succ_second_lt h,
    Nat.lt_of_le_of_lt (Nat.sub_le ..) t.nano_lt⟩

theorem shown_of_isRegular (h : t.IsRegular) : t.shown = t := dif_pos h

theorem isRegular_shown (t : Clock) : t.shown.IsRegular := by
  unfold shown
  split
  · assumption
  · next irregular =>
    obtain ⟨leap, inside, _⟩ := of_not_isRegular irregular
    exact isRegular_iff.2 (.inl (show t.nano - nanosPerSecond < nanosPerSecond by omega))

@[simp] theorem text_shown (t : Clock) : t.shown.text = t.text := by
  unfold shown
  split
  · rfl
  · next irregular =>
    obtain ⟨leap, inside, not_last⟩ := of_not_isRegular irregular
    simp only [nanosPerSecond] at leap inside
    have hour : (t.second + 1) / 3600 = t.second / 3600 := by omega
    have minute : (t.second + 1) / 60 = t.second / 60 := by omega
    have second : (t.second + 1) % 60 + (t.nano - nanosPerSecond) / nanosPerSecond =
        t.second % 60 + t.nano / nanosPerSecond := by
      simp only [nanosPerSecond]
      omega
    simp only [text, Clock.hour, Clock.minute, secondOfMinute, hour, minute, second]

@[simp] theorem fraction_shown (t : Clock) : t.shown.fraction = t.fraction := by
  unfold shown
  split
  · rfl
  · next irregular =>
    obtain ⟨leap, inside, _⟩ := of_not_isRegular irregular
    simp only [fraction, nanosPerSecond] at *
    omega

def toMillisecond (t : Clock) : Clock :=
  ⟨t.second, t.nano / 1000000 * 1000000, t.second_lt,
    Nat.lt_of_le_of_lt (Nat.div_mul_le_self ..) t.nano_lt⟩

def writtenSecond (t : Clock) : Nat := t.secondOfMinute + t.nano / nanosPerSecond

def millis (t : Clock) : Nat := t.fraction / 1000000

theorem text_append_le_iff : t.text.map Text.byte ++ r ≤ t'.text.map Text.byte ++ s ↔
    t.hour < t'.hour ∨ t.hour = t'.hour ∧ (t.minute < t'.minute ∨ t.minute = t'.minute ∧
      (t.writtenSecond < t'.writtenSecond ∨ t.writtenSecond = t'.writtenSecond ∧ r ≤ s)) := by
  have bounds (t : Clock) :
      t.hour < 10 ^ 2 ∧ t.minute < 10 ^ 2 ∧ t.writtenSecond < 10 ^ 2 := by
    have := t.second_lt
    have := t.nano_lt
    simp only [hour, minute, writtenSecond, secondOfMinute, secondsPerDay, nanosPerSecond] at *
    omega
  have written (t : Clock) : t.text = padded 2 t.hour ++ ':' :: padded 2 t.minute ++ ':' ::
      padded 2 t.writtenSecond := rfl
  obtain ⟨hours, minutes, seconds⟩ := bounds t
  obtain ⟨hours', minutes', seconds'⟩ := bounds t'
  simp only [written, List.map_append, List.map_cons, List.append_assoc, List.cons_append,
    cons_le_cons_same, padded_append_le_iff (show 0 < 2 by decide) hours hours',
    padded_append_le_iff (show 0 < 2 by decide) minutes minutes',
    padded_append_le_iff (show 0 < 2 by decide) seconds seconds']

theorem written_le_iff (h : t.IsRegular) (h' : t'.IsRegular) :
    (t.hour < t'.hour ∨ t.hour = t'.hour ∧ (t.minute < t'.minute ∨ t.minute = t'.minute ∧
      (t.writtenSecond < t'.writtenSecond ∨ t.writtenSecond = t'.writtenSecond ∧
        t.millis ≤ t'.millis))) ↔
      t.second < t'.second ∨ t.second = t'.second ∧
        t.toMillisecond.nano ≤ t'.toMillisecond.nano := by
  have inside := t.nano_lt
  have inside' := t'.nano_lt
  rw [isRegular_iff] at h h'
  simp only [toMillisecond, hour, minute, writtenSecond, millis, fraction, secondOfMinute,
    nanosPerSecond] at *
  omega

theorem text_small (t : Clock) : ∀ c ∈ t.text, c.toNat < 128 := by
  simp only [text, List.forall_mem_append, List.forall_mem_cons]
  exact ⟨⟨padded_small _ _, by decide, padded_small _ _⟩, by decide, padded_small _ _⟩

end Clock

namespace Moment

variable {m m' : Moment}

def toMillisecond (m : Moment) : Moment := { m with clock := m.clock.toMillisecond }

def shown (m : Moment) : Moment := { m with clock := m.clock.shown }

theorem shown_of_isRegular (h : m.clock.IsRegular) : m.shown = m := by
  rw [shown, Clock.shown_of_isRegular h]

@[simp] theorem text_shown (m : Moment) : m.shown.text = m.text := by
  simp [text, shown]

theorem exists_of?_iff : (∃ year month day hour minute second nano,
    of? year month day hour minute second nano = some m) ↔ m.clock.IsRegular := by
  rw [Clock.isRegular_iff]
  constructor
  · rintro ⟨year, month, day, hour, minute, second, nano, made⟩
    simp only [of?, Clock.of?, Option.bind_eq_bind, Option.bind_eq_some_iff,
      Option.dite_none_right_eq_some, Option.ite_none_right_eq_some, Option.some.injEq] at made
    obtain ⟨date, -, clock, ⟨_, rfl⟩, ⟨-, -, below, leap⟩, rfl⟩ := made
    simp only
    omega
  · intro regular
    obtain ⟨⟨year, month, day, _, _, _, _⟩, ⟨second, nano, inside, leap⟩⟩ := m
    have ends : nano < nanosPerSecond ∨ second % 60 = 59 := regular
    have hours : second / 3600 < 24 := Nat.div_lt_of_lt_mul inside
    have parts : second / 3600 * 3600 + second / 60 % 60 * 60 + second % 60 = second := by omega
    have date : Date.of? year month day = some ⟨year, month, day, ‹_›, ‹_›, ‹_›, ‹_›⟩ :=
      dif_pos ⟨⟨‹_›, ‹_›⟩, ‹_›, ‹_›⟩
    have clock : Clock.of? second nano = some ⟨second, nano, inside, leap⟩ :=
      dif_pos ⟨inside, leap⟩
    refine ⟨year, month, day, second / 3600, second / 60 % 60, second % 60, nano, ?_⟩
    simp only [of?, parts, date, clock, Option.bind_eq_bind, Option.bind_some]
    exact if_pos (by omega)

theorem bytes_text (m : Moment) : Text.bytes m.text = m.date.text.map Text.byte ++
    Text.byte ' ' :: (m.clock.text.map Text.byte ++
      Text.byte '.' :: (padded 3 m.clock.millis).map Text.byte) := by
  have small : ∀ c ∈ m.date.text ++ ' ' :: m.clock.text ++ '.' :: padded 3 m.clock.millis,
      c.toNat < 128 := by
    simp only [List.forall_mem_append, List.forall_mem_cons]
    exact ⟨⟨m.date.text_small, by decide, m.clock.text_small⟩, by decide, padded_small _ _⟩
  refine (Text.bytes_ofList small).trans ?_
  simp only [List.map_append, List.map_cons, List.append_assoc, List.cons_append]

theorem bytes_text_le_iff (plain : m.date.IsPlain) (plain' : m'.date.IsPlain)
    (regular : m.clock.IsRegular) (regular' : m'.clock.IsRegular) :
    Text.bytes m.text ≤ Text.bytes m'.text ↔ m.toMillisecond ≤ m'.toMillisecond := by
  have bound (t : Clock) : t.millis < 10 ^ 3 := by
    have := Nat.mod_lt t.nano (show 0 < nanosPerSecond by decide)
    simp only [Clock.millis, Clock.fraction, nanosPerSecond] at *
    omega
  have last : (padded 3 m.clock.millis).map Text.byte ≤ (padded 3 m'.clock.millis).map Text.byte ↔
      m.clock.millis ≤ m'.clock.millis := by
    have := padded_append_le_iff (show 0 < 3 by decide) (bound m.clock) (bound m'.clock)
      (s := []) (t := [])
    simpa [Nat.le_iff_lt_or_eq] using this
  rw [bytes_text, bytes_text, Date.text_append_le_iff plain plain', cons_le_cons_same,
    Clock.text_append_le_iff, cons_le_cons_same, last, Clock.written_le_iff regular regular',
    le_iff]
  rfl

theorem text_eq_iff (plain : m.date.IsPlain) (plain' : m'.date.IsPlain)
    (regular : m.clock.IsRegular) (regular' : m'.clock.IsRegular) :
    m.text = m'.text ↔ m.toMillisecond = m'.toMillisecond := by
  have forth := bytes_text_le_iff plain plain' regular regular'
  have back := bytes_text_le_iff plain' plain regular' regular
  constructor
  · intro same
    rw [same] at forth back
    exact le_antisymm (forth.1 (List.le_refl _)) (back.1 (List.le_refl _))
  · intro same
    exact Text.bytes_injective (List.le_antisymm (forth.2 same.le) (back.2 same.ge))

theorem toDatum_text_le_iff (m m' : Moment) (plain : m.date.IsPlain) (plain' : m'.date.IsPlain) :
    ∃ s t, Value.toDatum false (.moment m) = .ok (.text s) ∧
      Value.toDatum false (.moment m') = .ok (.text t) ∧
      (m.clock.IsRegular → m'.clock.IsRegular →
        (Text.bytes s ≤ Text.bytes t ↔ m.toMillisecond ≤ m'.toMillisecond) ∧
        (s = t ↔ m.toMillisecond = m'.toMillisecond)) ∧
      (Text.bytes s ≤ Text.bytes t ↔ m.shown.toMillisecond ≤ m'.shown.toMillisecond) ∧
      (s = t ↔ m.shown.toMillisecond = m'.shown.toMillisecond) := by
  have order : (Text.bytes m.text ≤ Text.bytes m'.text ↔
        m.shown.toMillisecond ≤ m'.shown.toMillisecond) ∧
      (m.text = m'.text ↔ m.shown.toMillisecond = m'.shown.toMillisecond) := by
    rw [← text_shown m, ← text_shown m']
    exact ⟨bytes_text_le_iff plain plain' (Clock.isRegular_shown _) (Clock.isRegular_shown _),
      text_eq_iff plain plain' (Clock.isRegular_shown _) (Clock.isRegular_shown _)⟩
  refine ⟨m.text, m'.text, rfl, rfl, fun regular regular' => ?_, order⟩
  rwa [shown_of_isRegular regular, shown_of_isRegular regular'] at order

theorem toDatum_text_le_iff_leapSecond :
    let leap : Moment := ⟨⟨2016, 12, 31, by decide, by decide, by decide, by decide⟩,
      ⟨86399, 1500000000, by decide, by decide⟩⟩
    let midnight : Moment := ⟨⟨2017, 1, 1, by decide, by decide, by decide, by decide⟩,
      ⟨0, 0, by decide, by decide⟩⟩
    leap.clock.IsRegular ∧ leap.clock.isLeapSecond ∧ midnight.clock.IsRegular ∧
      Value.toDatum false (.moment leap) = .ok (.text "2016-12-31 23:59:60.500") ∧
      Value.toDatum false (.moment midnight) = .ok (.text "2017-01-01 00:00:00.000") ∧
      (Text.bytes "2016-12-31 23:59:60.500" ≤ Text.bytes "2017-01-01 00:00:00.000" ↔
        leap.toMillisecond ≤ midnight.toMillisecond) := by
  intro leap midnight
  have stored (m : Moment) : Value.toDatum false (.moment m) = .ok (.text m.text) := rfl
  have written : leap.text = "2016-12-31 23:59:60.500" ∧
      midnight.text = "2017-01-01 00:00:00.000" := by
    decide +kernel
  have regular : leap.clock.IsRegular ∧ midnight.clock.IsRegular := by decide
  obtain ⟨s, t, hs, ht, ordered, -⟩ :=
    toDatum_text_le_iff leap midnight ⟨by decide, by decide⟩ ⟨by decide, by decide⟩
  rw [stored, written.1] at hs ⊢
  rw [stored, written.2] at ht ⊢
  cases hs
  cases ht
  exact ⟨regular.1, by decide, regular.2, rfl, rfl, (ordered regular.1 regular.2).1⟩

/-- The end of 2016 by a clock that is half a minute ahead: its leap second and the second after
have one text. -/
theorem text_eq_of_irregular : ¬ ∀ (m m' : Moment), m.date.IsPlain → m'.date.IsPlain →
    ∀ s t, Value.toDatum false (.moment m) = .ok (.text s) →
      Value.toDatum false (.moment m') = .ok (.text t) →
      (Text.bytes s ≤ Text.bytes t ↔ m.toMillisecond ≤ m'.toMillisecond) ∧
      (s = t ↔ m.toMillisecond = m'.toMillisecond) := by
  intro told
  let leap : Moment := ⟨⟨2016, 12, 31, by decide, by decide, by decide, by decide⟩,
    ⟨86369, 1500000000, by decide, by decide⟩⟩
  let later : Moment := ⟨⟨2016, 12, 31, by decide, by decide, by decide, by decide⟩,
    ⟨86370, 500000000, by decide, by decide⟩⟩
  have written : leap.text = later.text := by decide +kernel
  have same :=
    (told leap later ⟨by decide, by decide⟩ ⟨by decide, by decide⟩ _ _ rfl rfl).2.1 written
  exact absurd same (by decide)

end Moment

end Tabular.Calendar
