import Tabular.Proofs.Database.Keys

namespace Tabular.Database

theorem le_max_int64 (m n : Int64) : m ≤ max m n ∧ n ≤ max m n := by
  show (m ≤ if m ≤ n then n else m) ∧ (n ≤ if m ≤ n then n else m)
  split
  · next h => exact ⟨h, Int64.le_refl n⟩
  · next h => exact ⟨Int64.le_refl m, Int64.le_of_lt (Int64.not_le.1 h)⟩

theorem max_int64_of_lt {m n : Int64} (h : m < n) : max m n = n :=
  if_pos (Int64.le_of_lt h)

theorem lt_succ_int64 {n : Int64} (h : n ≠ Int64.maxValue) : n < n + 1 := by
  have low := n.toInt_lt
  have high := n.le_toInt
  have differ : n.toInt ≠ 2 ^ 63 - 1 := fun same => h (Int64.toInt_inj.1 same)
  rw [Int64.lt_iff_toInt_lt, Int64.toInt_add, show (1 : Int64).toInt = 1 from rfl]
  rw [Int.bmod_eq_of_le] <;> omega

namespace Table

variable {t t' : Table} {r s : Row} {rows : List Row} {indices : List TableIndex}
  {given : List (Place × Datum)} {n : Int64}

/-- The rows are in the order of their ids, and none is above the greatest id. -/
structure IsOrdered (t : Table) : Prop where
  sorted : t.rows.Pairwise fun r s => r.id < s.id
  bounded : ∀ r ∈ t.rows, r.id ≤ t.highest

theorem insertRow_of_greatest (h : ∀ s ∈ rows, s.id < r.id) : insertRow r rows = rows ++ [r] := by
  induction rows with
  | nil => rfl
  | cons s rows ih =>
    obtain ⟨less, h⟩ := List.forall_mem_cons.1 h
    rw [insertRow, if_neg (Int64.not_lt.2 (Int64.le_of_lt less)), ih h]
    rfl

theorem id_newRow (t : Table) (n : Int64) (given : List (Place × Datum)) :
    (t.newRow n given).id = n := by
  unfold newRow withId
  split <;> rfl

theorem lt_of_freshId? (numbered : t.numbered) (h : t.freshId? = some n) : t.highest < n := by
  unfold freshId? at h
  simp only [numbered, if_true] at h
  split at h
  · next room =>
    cases h
    exact Int64.lt_of_le_of_lt (le_max_int64 _ _).2 (lt_succ_int64 room)
  · cases h

theorem adds_fresh (numbered : t.numbered) (ht : t.IsOrdered)
    (strict : ∀ c ∈ t.columns, c.onNull ≠ .ignore) (none_given : given.lookup .id = none)
    {added : Option Row} (h : t.Adds indices given added t') :
    ∃ n, added = some (t.newRow n given) ∧ (∀ r ∈ t.rows, r.id < n) ∧
      t' = { t with rows := t.rows ++ [t.newRow n given], highest := n } := by
  cases h with
  | ignore hc ignored => exact absurd ignored (strict _ hc)
  | @insert n fresh _ =>
    rw [none_given] at fresh
    have above : t.highest < n := lt_of_freshId? numbered fresh
    have below : ∀ r ∈ t.rows, r.id < n :=
      fun r hr => Int64.lt_of_le_of_lt (ht.bounded r hr) above
    refine ⟨n, rfl, below, ?_⟩
    rw [insertRow_of_greatest (by simpa only [id_newRow] using below), max_int64_of_lt above]

theorem hasAll_id {name : String} (h : t.locate? name = some .id) :
    t.hasAll [name] [.integer n] r = (r.id == n) := by
  have value : t.equals? name (.integer n) r = some (compare r.id.toInt n.toInt == .eq) := by
    simp only [equals?, affinityIn, collationIn, valueOf, h, Option.map_some, Option.getD_some]
    rfl
  have same : (compare r.id.toInt n.toInt == .eq) = (r.id == n) := by
    rw [Bool.eq_iff_iff]
    simp [Int64.toInt_inj]
  simp [hasAll, value, same]

end Table

end Tabular.Database
