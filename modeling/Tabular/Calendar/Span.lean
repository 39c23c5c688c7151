namespace Tabular.Calendar

def nanosPerSecond : Nat := 1000000000

/-- `seconds` is rounded down, so that the nanoseconds are added also to a negative span. -/
structure Span where
  seconds : Int
  nanos : Nat
  nanos_lt : nanos < nanosPerSecond
  deriving DecidableEq

def Span.of? (seconds : Int) (nanos : Nat) : Option Span :=
  if h : nanos < nanosPerSecond then some ⟨seconds, nanos, h⟩ else none

def Span.total (d : Span) : Int := d.seconds * nanosPerSecond + d.nanos

def Span.ofTotal (n : Int) : Span where
  seconds := n / nanosPerSecond
  nanos := (n % nanosPerSecond).toNat
  nanos_lt := by
    have := Int.emod_lt_of_pos n (show (0 : Int) < nanosPerSecond by decide)
    have := Int.emod_nonneg n (show (nanosPerSecond : Int) ≠ 0 by decide)
    omega

def Span.wholeSeconds (d : Span) : Int :=
  if d.seconds < 0 ∧ 0 < d.nanos then d.seconds + 1 else d.seconds

def Span.restNanos (d : Span) : Int :=
  if d.seconds < 0 ∧ 0 < d.nanos then (d.nanos : Int) - nanosPerSecond else d.nanos

theorem Span.wholeSeconds_add_restNanos (d : Span) :
    d.wholeSeconds * nanosPerSecond + d.restNanos = d.total := by
  simp only [wholeSeconds, restNanos, total]
  split
  · simp only [nanosPerSecond]
    omega
  · rfl

@[simp] theorem Span.total_ofTotal (n : Int) : (Span.ofTotal n).total = n := by
  have h := Int.emod_nonneg n (show (nanosPerSecond : Int) ≠ 0 by decide)
  have e := Int.mul_ediv_add_emod n nanosPerSecond
  simp only [total, ofTotal, Int.toNat_of_nonneg h]
  rw [Int.mul_comm]
  exact e

end Tabular.Calendar
