import Tabular.Proofs.Schema.Resolving

namespace Tabular

section Arranging

variable {α : Type}

variable (key : α → Int)

theorem decide_key_trans (x y z : α) (hxy : decide (key x ≤ key y)) (hyz : decide (key y ≤ key z)) :
    decide (key x ≤ key z) :=
  decide_eq_true (Int.le_trans (of_decide_eq_true hxy) (of_decide_eq_true hyz))

theorem decide_key_total (x y : α) : decide (key x ≤ key y) || decide (key y ≤ key x) := by
  simpa using Int.le_total (key x) (key y)

theorem pairwise_mergeSort_key (xs : List α) :
    (xs.mergeSort fun x y => key x ≤ key y).Pairwise fun x y => key x ≤ key y := by
  have ordered : (xs.mergeSort fun x y => key x ≤ key y).Pairwise fun x y =>
      decide (key x ≤ key y) = true :=
    List.pairwise_mergeSort (decide_key_trans key) (decide_key_total key) xs
  exact ordered.imp of_decide_eq_true

theorem filter_mergeSort_key (xs : List α) (n : Int) :
    (xs.mergeSort fun x y => key x ≤ key y).filter (key · = n) = xs.filter (key · = n) := by
  have level : (xs.filter (key · = n)).Pairwise fun x y => decide (key x ≤ key y) = true := by
    refine List.pairwise_filter.2 (List.pairwise_of_forall fun x y hx hy => decide_eq_true ?_)
    exact Int.le_of_eq ((of_decide_eq_true hx).trans (of_decide_eq_true hy).symm)
  have kept : (xs.filter (key · = n)).Sublist (xs.mergeSort fun x y => key x ≤ key y) :=
    List.sublist_mergeSort (decide_key_trans key) (decide_key_total key) level List.filter_sublist
  have part := kept.filter (key · = n)
  simp only [List.filter_filter, Bool.and_self] at part
  exact (part.eq_of_length ((List.mergeSort_perm xs _).filter _).length_eq.symm).symm

end Arranging

namespace ColumnIndex

variable {table name : String} {ds : List ColumnIndex} {d : ColumnIndex}

/-- The declarations of one name, each as often as it is made, by their order; those of equal order
as they are declared. -/
structure Arranges (table name : String) (ds ms : List ColumnIndex) : Prop where
  perm : ms.Perm (ds.filter fun d => d.name table = name)
  ordered : ms.Pairwise fun d e => d.order ≤ e.order
  ties : ∀ n, (ms.filter fun d => d.order = n) =
    ds.filter fun d => d.order = n ∧ d.name table = name

theorem arranges_named (table name : String) (ds : List ColumnIndex) :
    Arranges table name ds (named table name ds) := by
  refine ⟨List.mergeSort_perm _ _, pairwise_mergeSort_key order _, fun n => ?_⟩
  rw [named, filter_mergeSort_key order, List.filter_filter]
  refine List.filter_congr fun d _ => ?_
  rw [Bool.eq_iff_iff]
  simp

theorem clash?_eq_some (h : clash? table ds = some d) : ∃ before after e,
    ds = before ++ d :: after ∧ clash? table before = none ∧
      e ∈ before ∧ e.name table = d.name table ∧ e.unique ≠ d.unique := by
  obtain ⟨clash, before, after, rfl, first⟩ := List.find?_eq_some_iff_append.1 h
  -- In the declarations before, names are first found at the same places as in all of them.
  have agree : clash? table before = none := by
    refine List.find?_eq_none.2 fun x hx => ?_
    have kept := first x hx
    rw [find?_name_append (List.mem_map_of_mem hx)] at kept
    simpa using kept
  obtain ⟨e, found, differ⟩ := (Option.any_eq_true _ _).1 clash
  rw [bne_iff_ne] at differ
  rw [List.find?_append] at found
  cases earlier : before.find? fun e => e.name table == d.name table with
  | none =>
    have first_after : ((d :: after).find? fun e => e.name table == d.name table) = some d :=
      List.find?_cons_of_pos (beq_self_eq_true _)
    rw [earlier, Option.none_or, first_after] at found
    cases found
    exact absurd rfl differ
  | some e' =>
    rw [earlier, Option.some_or] at found
    cases found
    exact ⟨before, after, e, rfl, agree, List.mem_of_find?_eq_some earlier,
      by simpa using List.find?_some earlier, differ⟩

end ColumnIndex

namespace Index

variable {table : String} {ds : List ColumnIndex} {i : Index} {is : List Index}

/-- The index of the declarations of its name. -/
structure Collects (table : String) (ds : List ColumnIndex) (i : Index) : Prop where
  unique : ∀ d ∈ ds, d.name table = i.name → d.unique = i.unique
  columns : ∃ ms, ColumnIndex.Arranges table i.name ds ms ∧ i.columns = ms.map ColumnIndex.column

theorem group_eq_ok : group table ds = .ok is ↔ ColumnIndex.clash? table ds = none ∧
    is = (ds.map (ColumnIndex.name table)).eraseDups.map fun n => ColumnIndex.index table n ds := by
  rw [group_eq]
  cases ColumnIndex.clash? table ds <;> simp [eq_comm]

theorem group_eq_error {fault : Fault} : group table ds = .error fault ↔
    ∃ d, ColumnIndex.clash? table ds = some d ∧
      fault = .schema table (.indexUniqueness (d.name table)) := by
  rw [group_eq]
  cases ColumnIndex.clash? table ds <;> simp [eq_comm]

theorem exists_group_eq_error : (∃ fault, group table ds = .error fault) ↔
    ∃ d ∈ ds, ∃ e ∈ ds, d.name table = e.name table ∧ d.unique ≠ e.unique := by
  constructor
  · rintro ⟨fault, h⟩
    obtain ⟨d, clash, _⟩ := group_eq_error.1 h
    obtain ⟨before, after, e, rfl, _, he, same, differ⟩ := ColumnIndex.clash?_eq_some clash
    exact ⟨e, by simp [he], d, by simp, same, differ⟩
  · rintro ⟨d, hd, e, he, same, differ⟩
    cases hg : group table ds with
    | error fault => exact ⟨fault, rfl⟩
    | ok is => exact absurd (exists_group.1 ⟨is, hg⟩ d hd e he same) differ

section Grouped

variable (h : group table ds = .ok is)

include h

theorem map_name_group : is.map name = (ds.map (ColumnIndex.name table)).eraseDups := by
  obtain ⟨_, rfl⟩ := group_eq_ok.1 h
  rw [List.map_map]
  exact List.map_id _

theorem mem_map_name_group {n : String} : n ∈ is.map name ↔ ∃ d ∈ ds, d.name table = n := by
  rw [map_name_group h, List.mem_eraseDups, List.mem_map]

theorem pairwise_group : is.Pairwise fun i j =>
    (ds.map (ColumnIndex.name table)).idxOf i.name <
      (ds.map (ColumnIndex.name table)).idxOf j.name := by
  have ordered := pairwise_eraseDups (ds.map (ColumnIndex.name table))
  rw [← map_name_group h, List.pairwise_map] at ordered
  exact ordered

theorem collects_of_mem_group (hi : i ∈ is) : i.Collects table ds := by
  obtain ⟨agree, rfl⟩ := group_eq_ok.1 h
  obtain ⟨n, hn, rfl⟩ := List.mem_map.1 hi
  refine ⟨fun d hd same => ?_, _, ColumnIndex.arranges_named table n ds, rfl⟩
  obtain ⟨first, found⟩ : ∃ first, (ds.find? fun e => e.name table == n) = some first :=
    ColumnIndex.exists_first (List.mem_map.2 ⟨d, hd, same⟩)
  have first_name : first.name table = n := by simpa using List.find?_some found
  have unique_eq : (ColumnIndex.index table n ds).unique = first.unique := by
    rw [ColumnIndex.index, found]
    rfl
  rw [unique_eq]
  exact ColumnIndex.clash?_eq_none.1 agree d hd first (List.mem_of_find?_eq_some found)
    (same.trans first_name.symm)

end Grouped

theorem Collects.mem_columns (h : i.Collects table ds) {c : String} :
    c ∈ i.columns ↔ ∃ d ∈ ds, d.name table = i.name ∧ d.column = c := by
  obtain ⟨ms, arranges, columns⟩ := h.columns
  rw [columns, List.mem_map]
  refine exists_congr fun d => ?_
  rw [arranges.perm.mem_iff, List.mem_filter, decide_eq_true_eq, and_assoc]

end Index

namespace RecordType

variable {type : RecordType} {conventions : Conventions} {rules : StorageRules} {p : Provider}
  {t : TableMapping}

theorem exists_column_of_mem_declarations
    (ht : TableMapping.resolve type conventions rules p = .ok t) {d : ColumnIndex}
    (hd : d ∈ type.declarations conventions p) : ∃ c ∈ t.columns, c.name = d.column := by
  obtain ⟨m, hm, hd⟩ := List.mem_flatMap.1 hd
  obtain ⟨_, _, rfl⟩ := List.mem_map.1 hd
  obtain ⟨c, hc, describes⟩ := exists_of_forall₂ (described_columns ht).flip hm
  exact ⟨c, hc, describes.name⟩

end RecordType

namespace Index

theorem group_collects :
    (∀ (table : String) (ds : List ColumnIndex),
      ((∃ fault, group table ds = .error fault) ↔
        ∃ d ∈ ds, ∃ e ∈ ds, d.name table = e.name table ∧ d.unique ≠ e.unique) ∧
      (∀ fault, group table ds = .error fault → ∃ before d after, ds = before ++ d :: after ∧
        (∃ is, group table before = .ok is) ∧
        (∃ e ∈ before, e.name table = d.name table ∧ e.unique ≠ d.unique) ∧
        fault = .schema table (.indexUniqueness (d.name table))) ∧
      ∀ is, group table ds = .ok is →
        (is.map name).Nodup ∧
        is.Pairwise (fun i j => (ds.map (ColumnIndex.name table)).idxOf i.name <
          (ds.map (ColumnIndex.name table)).idxOf j.name) ∧
        (∀ n, n ∈ is.map name ↔ ∃ d ∈ ds, d.name table = n) ∧
        ∀ i ∈ is, i.Collects table ds) ∧
    ∀ (type : RecordType) (conventions : Conventions) (rules : StorageRules) (p : Provider)
      (t : TableMapping), TableMapping.resolve type conventions rules p = .ok t →
      ∀ i ∈ t.indices, i.columns ≠ [] ∧ ∀ c ∈ i.columns, ∃ column ∈ t.columns, column.name = c := by
  refine ⟨fun table ds => ⟨exists_group_eq_error, fun fault h => ?_, fun is h => ?_⟩,
    fun type conventions rules p t ht i hi => ?_⟩
  · obtain ⟨d, clash, rfl⟩ := group_eq_error.1 h
    obtain ⟨before, after, e, split, agree, earlier⟩ := ColumnIndex.clash?_eq_some clash
    exact ⟨before, d, after, split, ⟨_, group_eq_ok.2 ⟨agree, rfl⟩⟩, ⟨e, earlier⟩, rfl⟩
  · refine ⟨?_, pairwise_group h, fun n => mem_map_name_group h,
      fun i hi => collects_of_mem_group h hi⟩
    exact List.pairwise_map.2 ((pairwise_group h).imp fun before same =>
      absurd before (by rw [same]; exact Nat.lt_irrefl _))
  · obtain ⟨columns, indices, _, _, hg, rfl⟩ := RecordType.resolve_eq_ok.1 ht
    have collects := collects_of_mem_group hg hi
    constructor
    · obtain ⟨d, hd, named⟩ := (mem_map_name_group hg).1 (List.mem_map_of_mem hi)
      exact List.ne_nil_of_mem (collects.mem_columns.2 ⟨d, hd, named, rfl⟩)
    · intro c hc
      obtain ⟨d, hd, _, rfl⟩ := collects.mem_columns.1 hc
      exact RecordType.exists_column_of_mem_declarations ht hd

theorem group_collects_notes :
    let author : IndexDeclaration := { name := some "by_author", order := 2, unique := true }
    let day : IndexDeclaration := { name := some "by_author", order := 1, unique := true }
    let ds : List ColumnIndex := [⟨"author", author⟩, ⟨"title", {}⟩, ⟨"day", day⟩]
    let late : ColumnIndex := ⟨"id", { name := some "by_author" }⟩
    let type : RecordType := {
      name := "Note"
      members := [
        { name := "author", kind := .text, attributes := [.indexed author] },
        { name := "day", kind := .datetime, attributes := [.indexed day] }] }
    let i : Index := { name := "by_author", columns := ["day", "author"], unique := true }
    let j : Index := { name := "notes_title", columns := ["title"], unique := false }
    (group "notes" ds = .ok [i, j] ∧ i.Collects "notes" ds ∧ j.Collects "notes" ds) ∧
    (∃ fault, group "notes" (ds ++ [late]) = .error fault ∧
      ∃ name, fault = .schema "notes" (.indexUniqueness name)) ∧
    ∃ t k, TableMapping.resolve type {} {} .attributes = .ok t ∧ k ∈ t.indices ∧
      k.columns ≠ [] := by
  intro author day ds late type i j
  obtain ⟨grouped, resolved⟩ := group_collects
  have sorted : ColumnIndex.named "notes" "by_author" ds = [⟨"day", day⟩, ⟨"author", author⟩] := by
    simp [ColumnIndex.named, ColumnIndex.name, ColumnIndex.order, ds, author, day, List.mergeSort,
      List.MergeSort.Internal.splitInTwo]
  have shared : ColumnIndex.index "notes" "by_author" ds = i := by
    rw [ColumnIndex.index, sorted]
    rfl
  have own : ColumnIndex.index "notes" "notes_title" ds = j := by decide +kernel
  have names : (ds.map (ColumnIndex.name "notes")).eraseDups = ["by_author", "notes_title"] := by
    decide +kernel
  have ok : group "notes" ds = .ok [i, j] :=
    group_eq_ok.2 ⟨by decide, by simp only [names, List.map_cons, List.map_nil, shared, own]⟩
  obtain ⟨_, _, _, collects⟩ := (grouped "notes" ds).2.2 _ ok
  obtain ⟨fault, refused⟩ := (grouped "notes" (ds ++ [late])).1.2
    ⟨⟨"author", author⟩, by simp [ds], late, by simp, rfl, by decide⟩
  obtain ⟨_, d, _, _, _, _, reported⟩ := (grouped "notes" (ds ++ [late])).2.1 fault refused
  have made : (TableMapping.resolve type {} {} .attributes).toOption.map
      (fun t => t.indices.map name) = some ["by_author"] := by decide +kernel
  obtain ⟨t, ht, names⟩ := Option.map_eq_some_iff.1 made
  rw [toOption_eq_some] at ht
  obtain ⟨k, hk, _⟩ := List.mem_map.1 (names ▸ List.mem_singleton_self "by_author")
  exact ⟨⟨ok, collects i (by simp), collects j (by simp)⟩, ⟨fault, refused, _, reported⟩,
    t, k, ht, hk, (resolved _ _ _ _ t ht k hk).1⟩

end Index

end Tabular
