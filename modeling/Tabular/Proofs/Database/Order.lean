import Mathlib.Data.List.Pairwise
import Tabular.Database.Plan
import Tabular.Proofs.Binary64.Whole

namespace Tabular.Database

open Std (OrientedCmp TransCmp)

/-- What of a datum counts in a comparison: its class, its number and its letters. -/
def weight (c : Collation) : Datum → Nat × Int × List Nat
  | .null => (0, 0, [])
  | .integer n => (1, n.toInt * Binary64.unitsPerOne, [])
  | .real x => (1, x.units, [])
  | .text s => (2, 0, (c.key s).map Char.toNat)
  | .blob b => (3, 0, b.map UInt8.toNat)

def compareWeights : Nat × Int × List Nat → Nat × Int × List Nat → Ordering :=
  compareLex (compareOn Prod.fst)
    (compareLex (compareOn fun w => w.2.1) fun v w => List.compareLex compare v.2.2 w.2.2)

instance : TransCmp compareWeights := by
  have letters : TransCmp fun v w : Nat × Int × List Nat => List.compareLex compare v.2.2 w.2.2 :=
    { eq_swap := OrientedCmp.eq_swap
      isLE_trans := TransCmp.isLE_trans }
  exact inferInstanceAs (TransCmp (compareLex _ (compareLex _ _)))

theorem compareList_eq {α : Type} (f : α → Nat) (as bs : List α) :
    compareList (fun a b => compare (f a) (f b)) as bs =
      List.compareLex compare (as.map f) (bs.map f) := by
  induction as generalizing bs with
  | nil => cases bs <;> simp [compareList, List.compareLex]
  | cons a as ih =>
    cases bs with
    | nil => simp [compareList, List.compareLex]
    | cons b bs =>
      simp only [compareList, ih, List.map_cons, List.compareLex]
      cases compare (f a) (f b) <;> rfl

theorem compare_mul_right {u : Int} (hu : 0 < u) (m n : Int) :
    compare (m * u) (n * u) = compare m n := by
  rcases Int.lt_trichotomy m n with h | rfl | h
  · rw [Int.compare_eq_lt.2 h, Int.compare_eq_lt.2 (Int.mul_lt_mul_of_pos_right h hu)]
  · simp
  · rw [Int.compare_eq_gt.2 h, Int.compare_eq_gt.2 (Int.mul_lt_mul_of_pos_right h hu)]

theorem compareWeights_number (m n : Int) :
    compareWeights (1, m, []) (1, n, []) = compare m n := by
  have nothing : List.compareLex compare ([] : List Nat) [] = .eq := rfl
  simp [compareWeights, compareLex, compareOn, nothing]

theorem compareWeights_letters (k : Nat) (s t : List Nat) :
    compareWeights (k, 0, s) (k, 0, t) = List.compareLex compare s t := by
  simp [compareWeights, compareLex, compareOn]

theorem compareData_eq (c : Collation) (d e : Datum) :
    compareData c d e = compareWeights (weight c d) (weight c e) := by
  have positive : (0 : Int) < Binary64.unitsPerOne := Int.natCast_pos.2 Binary64.unitsPerOne_pos
  cases d <;> cases e
  case integer.integer m n =>
    rw [weight, weight, compareWeights_number, compare_mul_right positive]
    rfl
  case integer.real m y =>
    rw [weight, weight, compareWeights_number]
    exact OrientedCmp.eq_swap.symm
  case real.integer x n =>
    rw [weight, weight, compareWeights_number]
    rfl
  case real.real x y =>
    rw [weight, weight, compareWeights_number]
    rfl
  case text.text s t =>
    rw [weight, weight, compareWeights_letters, compareData, compareList_eq]
  case blob.blob s t =>
    rw [weight, weight, compareWeights_letters, compareData, compareList_eq]
  all_goals rfl

instance (c : Collation) : TransCmp (compareData c) where
  eq_swap := by
    intro d e
    rw [compareData_eq, compareData_eq]
    exact OrientedCmp.eq_swap
  isLE_trans := by
    intro d e f
    rw [compareData_eq, compareData_eq, compareData_eq]
    exact TransCmp.isLE_trans

theorem transCmp_swap {α : Type} {cmp : α → α → Ordering} (h : TransCmp cmp) :
    TransCmp fun a b => (cmp a b).swap where
  eq_swap := congrArg Ordering.swap OrientedCmp.eq_swap
  isLE_trans := by
    intro a b c hab hbc
    rw [← OrientedCmp.eq_swap] at hab hbc ⊢
    exact h.isLE_trans hbc hab

instance (t : Table) (keys : List (Option Place × Bool)) : TransCmp (t.compareRows keys) := by
  induction keys with
  | nil => exact { eq_swap := rfl, isLE_trans := fun _ _ => rfl }
  | cons k ks ih =>
    obtain ⟨_ | p, descending⟩ := k
    · exact ih
    · have upwards : TransCmp fun r s : Row => compareData (t.collationOf p) (r.get p) (s.get p) :=
        { eq_swap := OrientedCmp.eq_swap
          isLE_trans := TransCmp.isLE_trans }
      have first : TransCmp fun r s : Row =>
          if descending then (compareData (t.collationOf p) (r.get p) (s.get p)).swap
          else compareData (t.collationOf p) (r.get p) (s.get p) := by
        cases descending with
        | false => exact upwards
        | true => exact transCmp_swap upwards
      exact inferInstanceAs (TransCmp (compareLex _ _))

theorem Table.compareRows_swap (t : Table) (keys : List (Option Place × Bool)) (r s : Row) :
    t.compareRows keys s r = (t.compareRows keys r s).swap :=
  OrientedCmp.eq_swap

theorem Table.pairwise_sort (t : Table) (keys : List (Option Place × Bool)) (rows : List Row) :
    (t.sort keys rows).Pairwise fun r s => t.compareRows keys r s != .gt := by
  refine List.pairwise_mergeSort ?_ ?_ rows
  · intro r s u hrs hsu
    simp only [bne_iff_ne, ne_eq, ← Ordering.isLE_iff_ne_gt] at hrs hsu ⊢
    exact TransCmp.isLE_trans hrs hsu
  · intro r s
    rw [t.compareRows_swap keys r s]
    cases t.compareRows keys r s <;> rfl

/-- No two of the rows compare equal. -/
def Table.Untied (t : Table) (keys : List (Option Place × Bool)) (rows : List Row) : Prop :=
  rows.Pairwise fun r s => t.compareRows keys r s ≠ .eq

instance (t : Table) (keys : List (Option Place × Bool)) (rows : List Row) :
    Decidable (t.Untied keys rows) :=
  inferInstanceAs (Decidable (rows.Pairwise _))

theorem Table.Untied.eq_of_perm {t : Table} {keys : List (Option Place × Bool)}
    {rows xs ys : List Row} (h : t.Untied keys rows) (hx : xs.Perm rows) (hy : ys.Perm rows)
    (sx : xs.Pairwise fun r s => t.compareRows keys r s != .gt)
    (sy : ys.Pairwise fun r s => t.compareRows keys r s != .gt) : xs = ys := by
  have symmetric : Std.Symm fun r s => t.compareRows keys r s ≠ .eq := by
    constructor
    intro r s hrs hsr
    rw [t.compareRows_swap keys r s, Ordering.swap_eq_eq] at hsr
    exact hrs hsr
  refine List.Perm.eq_of_pairwise ?_ sx sy (hx.trans hy.symm)
  intro r s hr hs hrs hsr
  by_contra hne
  have hd := List.Pairwise.forall h (hx.subset hr) (hy.subset hs) hne
  rw [t.compareRows_swap keys r s] at hsr
  cases hc : t.compareRows keys r s <;> simp [hc] at hd hrs hsr

end Tabular.Database
