import Mathlib.Algebra.Group.Nat.Defs
import Mathlib.Algebra.Group.Int.Defs
import Tabular.Calendar.Moment
import Tabular.Value.Datum

namespace Tabular.Calendar

theorem tdiv_nanosPerTick (n : Int) :
    n.tdiv nanosPerTick = if 0 ≤ n then n / 100 else -(-n / 100) := by
  split
  · next h => exact Int.tdiv_eq_ediv_of_nonneg h
  · next h =>
    have opposite : 0 ≤ -n := by omega
    rw [← Int.neg_neg (n.tdiv _), ← Int.neg_tdiv, Int.tdiv_eq_ediv_of_nonneg opposite]
    rfl

namespace Span

variable {d : Span} {t : Int64}

theorem ofTotal_total (d : Span) : ofTotal d.total = d := by
  obtain ⟨seconds, nanos, inside⟩ := d
  have whole : (seconds * nanosPerSecond + nanos) / nanosPerSecond = seconds := by
    simp only [nanosPerSecond] at *
    omega
  have rest : (seconds * nanosPerSecond + nanos) % nanosPerSecond = nanos := by
    simp only [nanosPerSecond] at *
    omega
  simp [ofTotal, total, whole, rest]

@[simp] theorem total_ofTicks (t : Int64) : (ofTicks t).total = t.toInt * nanosPerTick :=
  total_ofTotal _

theorem same_sign (d : Span) :
    0 ≤ d.wholeSeconds ∧ 0 ≤ d.restNanos ∨ d.wholeSeconds ≤ 0 ∧ d.restNanos ≤ 0 := by
  have inside := d.nanos_lt
  simp only [wholeSeconds, restNanos]
  split <;> omega

theorem tdiv_total (d : Span) : d.total.tdiv nanosPerTick =
    d.wholeSeconds * ticksPerSecond + d.restNanos.tdiv nanosPerTick := by
  have sign := d.same_sign
  rw [← d.wholeSeconds_add_restNanos]
  simp only [tdiv_nanosPerTick, nanosPerSecond, ticksPerSecond]
  split <;> split <;> omega

theorem ticks?_eq_some : d.ticks? = some t ↔ t.toInt = d.total.tdiv nanosPerTick := by
  rw [tdiv_total, ticks?]
  simp only [Option.bind_eq_some_iff, Decimal.toInt64?_eq_some]
  constructor
  · rintro ⟨s, hs, ht⟩
    rw [ht, hs]
  · intro ht
    have sign := d.same_sign
    have low := t.le_toInt
    have high := t.toInt_lt
    have whole : (Int64.ofInt (d.wholeSeconds * ticksPerSecond)).toInt =
        d.wholeSeconds * ticksPerSecond := by
      rw [tdiv_nanosPerTick] at ht
      simp only [ticksPerSecond] at *
      refine Int64.toInt_ofInt_of_le ?_ ?_ <;> split at ht <;> omega
    exact ⟨_, whole, by rw [ht, whole]⟩

theorem ticks_eq_ok : d.ticks = .ok t ↔ t.toInt = d.total.tdiv nanosPerTick := by
  rw [← ticks?_eq_some, ticks]
  cases d.ticks? <;> simp

theorem ticks_eq_error : d.ticks = .error (.spanTicks d) ↔ ¬ ∃ t, d.ticks = .ok t := by
  unfold ticks
  cases d.ticks? <;> simp

theorem exists_ticks_iff (d : Span) : (∃ t, d.ticks = .ok t) ↔
    -2 ^ 63 ≤ d.total.tdiv nanosPerTick ∧ d.total.tdiv nanosPerTick < 2 ^ 63 := by
  simp only [ticks_eq_ok]
  constructor
  · rintro ⟨t, ht⟩
    rw [← ht]
    exact ⟨t.le_toInt, t.toInt_lt⟩
  · rintro ⟨low, high⟩
    exact ⟨Int64.ofInt _, Int64.toInt_ofInt_of_le low high⟩

/-- Spans reach as far as the milliseconds in a signed word, to either side alike. -/
def IsHeld (d : Span) : Prop := d.total.natAbs ≤ (2 ^ 63 - 1) * 1000000

instance (d : Span) : Decidable d.IsHeld := Nat.decLe ..

theorem isHeld_ofTicks (t : Int64) : (ofTicks t).IsHeld := by
  have low := t.le_toInt
  have high := t.toInt_lt
  rw [IsHeld, total_ofTicks, nanosPerTick]
  omega

theorem total_ofTicks_words (t : Int64) : (ofTicks t).total =
    (t / 10000000).toInt * nanosPerSecond + (t % 10000000 * 100).toInt := by
  have second : (10000000 : Int64).toInt = 10000000 := by decide
  have tick : (100 : Int64).toInt = 100 := by decide
  have parts := Int.mul_tdiv_add_tmod t.toInt 10000000
  have most := Int.tmod_lt_of_pos t.toInt (show (0 : Int) < 10000000 by decide)
  have least := Int.lt_tmod_of_pos t.toInt (show (0 : Int) < 10000000 by decide)
  have rest : (t % 10000000 * 100).toInt = t.toInt.tmod 10000000 * 100 := by
    rw [Int64.toInt_mul, Int64.toInt_mod, second, tick]
    exact Int.bmod_eq_of_le (by omega) (by omega)
  rw [total_ofTicks, Int64.toInt_div_of_ne_right _ _ (by decide), rest, second]
  simp only [nanosPerTick, nanosPerSecond]
  omega

def toTick (d : Span) : Span := ofTotal (d.total.tdiv nanosPerTick * nanosPerTick)

theorem ticks_ofTicks (t : Int64) : (ofTicks t).ticks = .ok t := by
  rw [ticks_eq_ok, total_ofTicks]
  exact (Int.mul_tdiv_cancel _ (by decide)).symm

theorem ofTicks_ticks (h : d.ticks = .ok t) : ofTicks t = d.toTick := by
  rw [ofTicks, toTick, ticks_eq_ok.1 h]

theorem ticks_exact :
    (∀ d : Span, ((∃ t, d.ticks = .ok t) ↔
        -2 ^ 63 ≤ d.total.tdiv nanosPerTick ∧ d.total.tdiv nanosPerTick < 2 ^ 63) ∧
      (d.ticks = .error (.spanTicks d) ↔ ¬ ∃ t, d.ticks = .ok t) ∧
      ∀ t, d.ticks = .ok t → t.toInt = d.total.tdiv nanosPerTick) ∧
    (∀ t : Int64, (ofTicks t).IsHeld ∧
      (ofTicks t).total = (t / 10000000).toInt * nanosPerSecond + (t % 10000000 * 100).toInt ∧
      (ofTicks t).ticks = .ok t) ∧
    ∀ (d : Span) (t : Int64), d.ticks = .ok t → ofTicks t = d.toTick := by
  refine ⟨fun d => ⟨exists_ticks_iff d, ticks_eq_error, fun t => ticks_eq_ok.1⟩, fun t => ?_,
    fun d t => ofTicks_ticks⟩
  exact ⟨isHeld_ofTicks t, total_ofTicks_words t, ticks_ofTicks t⟩

theorem ticks_exact_least :
    let d : Span := ofTotal (-2 ^ 63 * nanosPerTick - 99)
    let d' : Span := ofTotal (-2 ^ 63 * nanosPerTick - 100)
    (d.IsHeld ∧ d.ticks = .ok Int64.minValue) ∧ ofTicks Int64.minValue = d.toTick ∧
      d.toTick ≠ d ∧ d'.IsHeld ∧ d'.ticks = .error (.spanTicks d') := by
  intro d d'
  have h : d.ticks = .ok Int64.minValue := ticks_eq_ok.2 (by decide)
  have h' : d'.ticks = .error (.spanTicks d') := by
    rw [(ticks_exact.1 d').2.1, (ticks_exact.1 d').1]
    decide
  exact ⟨⟨by decide, h⟩, ticks_exact.2.2 d _ h, by decide, by decide, h'⟩

end Span

end Tabular.Calendar
