import Tabular.Calendar.Date
import Tabular.Calendar.Span
import Tabular.Decimal

/-! A date with a time of day. A leap second is told by its nanoseconds: from a thousand million on
they lie in the second after the one that is named. -/

namespace Tabular.Calendar

def secondsPerDay : Nat := 86400

structure Clock where
  second : Nat
  nano : Nat
  second_lt : second < secondsPerDay
  nano_lt : nano < 2 * nanosPerSecond
  deriving DecidableEq

def Clock.of? (second nano : Nat) : Option Clock :=
  if h : second < secondsPerDay ∧ nano < 2 * nanosPerSecond then some ⟨second, nano, h.1, h.2⟩
  else none

def Clock.hour (t : Clock) : Nat := t.second / 3600

def Clock.minute (t : Clock) : Nat := t.second / 60 % 60

def Clock.secondOfMinute (t : Clock) : Nat := t.second % 60

def Clock.isLeapSecond (t : Clock) : Bool := decide (nanosPerSecond ≤ t.nano)

structure Moment where
  date : Date
  clock : Clock
  deriving DecidableEq

def Moment.of? (year : Int) (month day hour minute second nano : Nat) : Option Moment := do
  let date ← Date.of? year month day
  let clock ← Clock.of? (hour * 3600 + minute * 60 + second) nano
  if hour < 24 ∧ minute < 60 ∧ second < 60 ∧ (nano < nanosPerSecond ∨ second = 59) then
    some ⟨date, clock⟩
  else none

def Moment.ofSeconds (n : Int) (nano : Nat) (h : nano < 2 * nanosPerSecond) : Moment where
  date := Date.ofNumber (n / secondsPerDay)
  clock :=
    { second := (n % secondsPerDay).toNat
      nano := nano
      second_lt := by
        have := Int.emod_lt_of_pos n (show (0 : Int) < secondsPerDay by decide)
        have := Int.emod_nonneg n (show (secondsPerDay : Int) ≠ 0 by decide)
        omega
      nano_lt := h }

def Moment.seconds (m : Moment) : Int := m.date.number * secondsPerDay + m.clock.second

def Moment.sinceFirst (m : Moment) : Span :=
  Span.ofTotal (m.seconds * nanosPerSecond + m.clock.nano)

/-- The moment that a clock `offset` seconds ahead shows as `m`. A leap second stays one. -/
def Moment.behind (m : Moment) (offset : Int) : Moment :=
  Moment.ofSeconds (m.seconds - offset) m.clock.nano m.clock.nano_lt

/-- Moments and spans are counted in ticks of 100 nanoseconds, moments from the first midnight of
the year one on. -/
def ticksPerSecond : Nat := 10000000

def nanosPerTick : Nat := 100

def maxMomentTicks : Int64 := 3155378975999999999

/-- The ticks of the whole seconds and those of the rest, both cut toward zero. -/
def Span.ticks? (d : Span) : Option Int64 :=
  (Decimal.toInt64? (d.wholeSeconds * ticksPerSecond)).bind fun t =>
    Decimal.toInt64? (t.toInt + d.restNanos.tdiv nanosPerTick)

def Moment.ticks? (m : Moment) : Option Int64 :=
  m.sinceFirst.ticks?.filter fun t => 0 ≤ t && t ≤ maxMomentTicks

def Span.ofTicks (t : Int64) : Span := Span.ofTotal (t.toInt * nanosPerTick)

def Moment.ofTicks? (t : Int64) : Option Moment :=
  if 0 ≤ t ∧ t ≤ maxMomentTicks then
    let d := Span.ofTicks t
    some (Moment.ofSeconds d.seconds d.nanos (Nat.lt_trans d.nanos_lt (by decide)))
  else none

end Tabular.Calendar
