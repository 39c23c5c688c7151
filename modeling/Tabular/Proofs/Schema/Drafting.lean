import Mathlib.Data.List.Find
import Mathlib.Data.List.Induction
import Mathlib.Data.List.Nodup
import Tabular.Proofs.Except
import Tabular.Schema.Index

namespace Tabular

section Repetitions

variable {α : Type} [DecidableEq α] (xs : List α)

theorem eraseDups_append_singleton (x : α) :
    (xs ++ [x]).eraseDups = if x ∈ xs then xs.eraseDups else xs.eraseDups ++ [x] := by
  rw [List.eraseDups_append]
  by_cases hx : x ∈ xs <;> simp [List.removeAll, hx, List.eraseDups_cons]

theorem pairwise_eraseDups : xs.eraseDups.Pairwise fun x y => xs.idxOf x < xs.idxOf y := by
  induction xs using List.reverseRecOn with
  | nil => exact .nil
  | append_singleton xs x ih =>
    have place {y : α} (hy : y ∈ xs.eraseDups) : (xs ++ [x]).idxOf y = xs.idxOf y :=
      List.idxOf_append_of_mem (List.mem_eraseDups.1 hy)
    have earlier : xs.eraseDups.Pairwise fun y z =>
        (xs ++ [x]).idxOf y < (xs ++ [x]).idxOf z :=
      ih.imp_of_mem fun hy hz h => by rwa [place hy, place hz]
    rw [eraseDups_append_singleton]
    split
    next => exact earlier
    next hx =>
      rw [List.pairwise_append]
      refine ⟨earlier, List.pairwise_singleton _ _, fun y hy z hz => ?_⟩
      rw [List.mem_singleton.1 hz, place hy, List.idxOf_append_of_notMem hx]
      exact Nat.lt_add_right _ (List.idxOf_lt_length_of_mem (List.mem_eraseDups.1 hy))

theorem nodup_eraseDups : xs.eraseDups.Nodup :=
  (pairwise_eraseDups xs).imp fun before same => absurd before (by rw [same]; exact Nat.lt_irrefl _)

end Repetitions

namespace ColumnIndex

def clash? (table : String) (ds : List ColumnIndex) : Option ColumnIndex :=
  ds.find? fun d =>
    (ds.find? fun e => e.name table == d.name table).any fun e => e.unique != d.unique

def named (table name : String) (ds : List ColumnIndex) : List ColumnIndex :=
  (ds.filter fun d => d.name table == name).mergeSort fun d e => d.order ≤ e.order

def index (table name : String) (ds : List ColumnIndex) : Index where
  name := name
  columns := (named table name ds).map column
  unique := (ds.find? fun d => d.name table == name).any unique

variable {table n : String} {ds : List ColumnIndex} {d : ColumnIndex}

theorem exists_first (h : n ∈ ds.map (name table)) :
    ∃ e, (ds.find? fun e => e.name table == n) = some e := by
  obtain ⟨e, he, same⟩ := List.mem_map.1 h
  exact Option.isSome_iff_exists.1 (List.find?_isSome.2 ⟨e, he, beq_iff_eq.2 same⟩)

theorem find?_of_notMem (h : n ∉ ds.map (name table)) :
    (ds.find? fun e => e.name table == n) = none :=
  List.find?_eq_none.2 fun e he same => h (List.mem_map.2 ⟨e, he, beq_iff_eq.1 same⟩)

theorem clash?_eq_none : clash? table ds = none ↔
    ∀ d ∈ ds, ∀ e ∈ ds, d.name table = e.name table → d.unique = e.unique := by
  simp only [clash?, List.find?_eq_none, Option.any_eq_true, bne_iff_ne, not_exists, not_and,
    ne_eq, not_not]
  constructor
  · intro h d hd e he same
    obtain ⟨first, found⟩ := exists_first (List.mem_map_of_mem he)
    exact (h d hd first (by rw [same]; exact found)).symm.trans (h e he first found)
  · intro h d hd e found
    exact h e (List.mem_of_find?_eq_some found) d hd (by simpa using List.find?_some found)

theorem find?_name_append (h : n ∈ ds.map (name table)) (rest : List ColumnIndex) :
    ((ds ++ rest).find? fun e => e.name table == n) = ds.find? fun e => e.name table == n := by
  obtain ⟨first, found⟩ := exists_first h
  rw [List.find?_append, found, Option.some_or]

theorem clash?_append_singleton (table : String) (ds : List ColumnIndex) (d : ColumnIndex) :
    clash? table (ds ++ [d]) = (clash? table ds).or
      (if (ds.find? fun e => e.name table == d.name table).any fun e => e.unique != d.unique
        then some d else none) := by
  have before : ds.find? (fun x => ((ds ++ [d]).find? fun e => e.name table == x.name table).any
      fun e => e.unique != x.unique) = clash? table ds :=
    List.find?_congr fun x hx => by rw [find?_name_append (List.mem_map_of_mem hx)]
  rw [clash?, List.find?_append, before, List.find?_singleton]
  by_cases h : d.name table ∈ ds.map (name table)
  · rw [find?_name_append h]
  -- Nothing of that name comes before, so the declaration is compared with itself.
  · simp [List.find?_append, find?_of_notMem h]

end ColumnIndex

namespace IndexDraft

open ColumnIndex (clash?)

variable {table : String} {ds : List ColumnIndex} {d : ColumnIndex} {n : String}

def ofName (table : String) (ds : List ColumnIndex) (n : String) : IndexDraft where
  name := n
  unique := (ds.find? fun d => d.name table == n).any ColumnIndex.unique
  members := (ds.filter fun d => d.name table == n).map fun d => (d.order, d.column)

theorem ofName_append_of_ne (h : d.name table ≠ n) :
    ofName table (ds ++ [d]) n = ofName table ds n := by
  simp [ofName, List.find?_append, h]

theorem ofName_append_of_mem (h : d.name table ∈ ds.map (ColumnIndex.name table)) :
    ofName table (ds ++ [d]) (d.name table) =
      { ofName table ds (d.name table) with
        members := (ofName table ds (d.name table)).members ++ [(d.order, d.column)] } := by
  simp [ofName, ColumnIndex.find?_name_append h]

theorem ofName_append_of_notMem (h : d.name table ∉ ds.map (ColumnIndex.name table)) :
    ofName table (ds ++ [d]) (d.name table) = start table d := by
  have other := ColumnIndex.find?_of_notMem h
  simp [ofName, start, List.find?_append, other,
    List.filter_eq_nil_iff.2 (List.find?_eq_none.1 other)]

theorem extend_of_notMem {gs : List IndexDraft} (h : d.name table ∉ gs.map name) :
    extend table gs d = .ok (gs ++ [start table d]) := by
  induction gs with
  | nil => rfl
  | cons g gs ih =>
    rw [List.map_cons, List.mem_cons, not_or] at h
    rw [extend, if_neg fun same => h.1 same.symm, ih h.2]
    rfl

theorem extend_append_cons {before after : List IndexDraft} {g : IndexDraft}
    (hb : d.name table ∉ before.map name) (hg : g.name = d.name table) :
    extend table (before ++ g :: after) d =
      if g.unique = d.unique then
        .ok (before ++ { g with members := g.members ++ [(d.order, d.column)] } :: after)
      else .error (.schema table (.indexUniqueness (d.name table))) := by
  induction before with
  | nil => rw [List.nil_append, extend, if_pos hg, List.nil_append]
  | cons b before ih =>
    rw [List.map_cons, List.mem_cons, not_or] at hb
    rw [List.cons_append, extend, if_neg fun same => hb.1 same.symm, ih hb.2]
    split <;> rfl

def ofNames (table : String) (ds : List ColumnIndex) : List IndexDraft :=
  (ds.map (ColumnIndex.name table)).eraseDups.map (ofName table ds)

theorem map_name_ofNames :
    (ofNames table ds).map name = (ds.map (ColumnIndex.name table)).eraseDups := by
  rw [ofNames, List.map_map]
  exact List.map_id _

theorem ofNames_append_of_mem (h : d.name table ∈ ds.map (ColumnIndex.name table)) :
    ofNames table (ds ++ [d]) =
      (ds.map (ColumnIndex.name table)).eraseDups.map (ofName table (ds ++ [d])) := by
  rw [ofNames, List.map_append, List.map_singleton, eraseDups_append_singleton, if_pos h]

theorem ofNames_append_of_notMem (h : d.name table ∉ ds.map (ColumnIndex.name table)) :
    ofNames table (ds ++ [d]) = ofNames table ds ++ [start table d] := by
  have kept : (ds.map (ColumnIndex.name table)).eraseDups.map (ofName table (ds ++ [d])) =
      ofNames table ds :=
    List.map_congr_left fun n hn =>
      ofName_append_of_ne fun same => h (same ▸ List.mem_eraseDups.1 hn)
  rw [ofNames, List.map_append, List.map_singleton, eraseDups_append_singleton, if_neg h,
    List.map_append, kept, List.map_singleton, ofName_append_of_notMem h]

theorem extend_ofNames (table : String) (ds : List ColumnIndex) (d : ColumnIndex) :
    extend table (ofNames table ds) d =
      if (ds.find? fun e => e.name table == d.name table).any fun e => e.unique != d.unique then
        .error (.schema table (.indexUniqueness (d.name table)))
      else .ok (ofNames table (ds ++ [d])) := by
  by_cases h : d.name table ∈ ds.map (ColumnIndex.name table)
  · obtain ⟨before, after, names⟩ := List.append_of_mem (List.mem_eraseDups.2 h)
    have distinct := nodup_eraseDups (ds.map (ColumnIndex.name table))
    rw [names, List.nodup_middle, List.nodup_cons, List.mem_append, not_or] at distinct
    have others {ns : List String} (hns : d.name table ∉ ns) :
        ns.map (ofName table (ds ++ [d])) = ns.map (ofName table ds) :=
      List.map_congr_left fun n hn => ofName_append_of_ne fun same => hns (same ▸ hn)
    have absent : d.name table ∉ (before.map (ofName table ds)).map name := by
      rw [List.map_map]
      simpa [Function.comp_def, ofName] using distinct.1.1
    obtain ⟨first, found⟩ := ColumnIndex.exists_first h
    rw [ofNames_append_of_mem h, ofNames, names, List.map_append, List.map_cons,
      extend_append_cons absent rfl, List.map_append, List.map_cons, others distinct.1.1,
      others distinct.1.2, ofName_append_of_mem h]
    by_cases agree : first.unique = d.unique <;> simp [ofName, found, agree]
  · rw [extend_of_notMem (by rwa [map_name_ofNames, List.mem_eraseDups]),
      ColumnIndex.find?_of_notMem h, ofNames_append_of_notMem h]
    rfl

/-- The invariant of the pass: up to the first contradiction, the drafts are those of the
declarations that have been met. -/
theorem foldlM_extend (table : String) (ds : List ColumnIndex) :
    ds.foldlM (extend table) [] =
      match clash? table ds with
      | some d => .error (.schema table (.indexUniqueness (d.name table)))
      | none => .ok (ofNames table ds) := by
  induction ds using List.reverseRecOn with
  | nil => rfl
  | append_singleton ds d ih =>
    rw [List.foldlM_append, ih, ColumnIndex.clash?_append_singleton]
    cases clash? table ds with
    | some e => rfl
    | none =>
      simp only [List.foldlM_cons, List.foldlM_nil, bind_pure, Option.none_or]
      refine (extend_ofNames table ds d).trans ?_
      split <;> rfl

theorem index_ofName (table : String) (ds : List ColumnIndex) (n : String) :
    (ofName table ds n).index = ColumnIndex.index table n ds := by
  have sorted := List.map_mergeSort (f := fun d : ColumnIndex => (d.order, d.column))
    (r := fun d e => d.order ≤ e.order) (s := fun x y => x.1 ≤ y.1)
    (l := ds.filter fun d => d.name table == n) fun _ _ _ _ => rfl
  rw [index, ofName, ← sorted, List.map_map]
  rfl

end IndexDraft

theorem Index.group_eq (table : String) (ds : List ColumnIndex) : Index.group table ds =
    match ColumnIndex.clash? table ds with
    | some d => .error (.schema table (.indexUniqueness (d.name table)))
    | none => .ok ((ds.map (ColumnIndex.name table)).eraseDups.map fun n =>
        ColumnIndex.index table n ds) := by
  rw [group, IndexDraft.foldlM_extend]
  cases ColumnIndex.clash? table ds with
  | some d => rfl
  | none =>
    simp only [bind, Except.bind, pure, Except.pure, IndexDraft.ofNames, List.map_map,
      Function.comp_def, IndexDraft.index_ofName]

end Tabular
