import Mathlib.Data.List.Pairwise
import Tabular.Database.Execute
import Tabular.Proofs.Except

namespace Tabular

namespace Text

theorem sameName_comm (a b : String) : sameName a b = sameName b a := BEq.comm

theorem eq_of_sameName {α : Type} {f : α → String} {xs : List α} {x y : α}
    (h : xs.Pairwise fun x y => ¬ sameName (f x) (f y)) (hx : x ∈ xs) (hy : y ∈ xs)
    (same : sameName (f x) (f y)) : x = y := by
  have : Std.Symm fun x y => ¬ sameName (f x) (f y) :=
    ⟨fun x y h => by rwa [sameName_comm]⟩
  by_contra differ
  exact h.forall hx hy differ same

end Text

namespace Database

open Sql (ColumnDefinition)

variable {db db' : Database} {name : String} {cs : List ColumnDefinition} {key : List String}
  {i : TableIndex}

theorem sameName_of_table? {t : Table} (h : db.table? name = some t) :
    Text.sameName t.name name := by
  unfold table? at h
  have := List.find?_some h
  exact this

theorem table?_append {t : Table} (new : db.table? name = none) (ht : t.name = name) :
    ({ db with tables := db.tables ++ [t] } : Database).table? name = some t := by
  unfold table? at new ⊢
  rw [List.find?_append, new]
  simp [ht, Text.sameName]

theorem Table.ofDefinitions?_eq_some {t : Table} (h : Table.ofDefinitions? name cs key = some t) :
    t.name = name ∧ t.rows = [] := by
  unfold ofDefinitions? at h
  simp only [Option.bind_eq_bind, Option.bind_eq_some_iff] at h
  obtain ⟨_, _, _, _, h⟩ := h
  split at h <;> cases h
  exact ⟨rfl, rfl⟩

theorem createTable_eq_ok : db.createTable name cs key = .ok db' ↔
    (db.table? name).isSome ∧ db' = db ∨
      db.table? name = none ∧ db.index? name = none ∧
        ∃ t, Table.ofDefinitions? name cs key = some t ∧
          db' = { db with tables := db.tables ++ [t] } := by
  unfold createTable
  cases db.table? name with
  | some t => simp [@eq_comm _ db']
  | none =>
    cases db.index? name with
    | some i => simp
    | none => cases Table.ofDefinitions? name cs key <;> simp [@eq_comm _ db']

def enter (is : List TableIndex) (x : TableIndex) : List TableIndex :=
  if is.any fun i => Text.sameName i.name x.name then is else x :: is

theorem createIndex_eq_ok : db.createIndex i = .ok db' ↔
    ∃ t, db.table? i.table = some t ∧ isReserved i.name = false ∧ db.table? i.name = none ∧
      ((db.index? i.name).isSome ∨ (i.unique → t.distinctIn (t.places i))) ∧
      db' = { db with indices := enter db.indices { i with table := t.name } } := by
  have taken : (db.index? i.name).isSome =
      db.indices.any fun j => Text.sameName j.name i.name := List.isSome_find?
  unfold createIndex
  rw [taken]
  cases db.table? i.table with
  | none => simp
  | some t =>
    cases isReserved i.name <;> cases db.table? i.name <;>
      cases ha : db.indices.any fun j => Text.sameName j.name i.name <;>
      cases hu : i.unique <;> cases hd : t.distinctIn (t.places i) <;>
      simp [hd, ha, enter, @eq_comm _ db']

section Entering

variable {is xs : List TableIndex} {x : TableIndex}

theorem mem_foldl_enter (h : x ∈ is) : x ∈ xs.foldl enter is := by
  induction xs generalizing is with
  | nil => exact h
  | cons y xs ih =>
    refine ih ?_
    unfold enter
    split
    · exact h
    · exact .tail y h

theorem exists_foldl_enter (is xs : List TableIndex) : ∃ made, xs.foldl enter is = made ++ is ∧
    (∀ x ∈ made, x ∈ xs) ∧
      (made = [] ↔ ∀ x ∈ xs, is.any fun i => Text.sameName i.name x.name) := by
  induction xs generalizing is with
  | nil => exact ⟨[], rfl, by simp, by simp⟩
  | cons x xs ih =>
    rw [List.foldl_cons, List.forall_mem_cons, enter]
    cases taken : is.any fun i => Text.sameName i.name x.name with
    | true =>
      obtain ⟨made, last, from_xs, none_made⟩ := ih is
      exact ⟨made, last, fun y hy => .tail x (from_xs y hy), by simpa using none_made⟩
    | false =>
      obtain ⟨made, last, from_xs, _⟩ := ih (x :: is)
      refine ⟨made ++ [x], by simpa using last, ?_, by simp⟩
      exact List.forall_mem_append.2 ⟨fun y hy => .tail x (from_xs y hy), by simp⟩

theorem exists_sameName_foldl_enter (is : List TableIndex) (h : x ∈ xs) :
    ∃ y ∈ xs.foldl enter is, Text.sameName y.name x.name := by
  induction xs generalizing is with
  | nil => cases h
  | cons y xs ih =>
    rw [List.foldl_cons]
    obtain rfl | h := List.mem_cons.1 h
    · obtain ⟨z, hz, same⟩ : ∃ z ∈ enter is x, Text.sameName z.name x.name := by
        unfold enter
        split
        · next taken => simpa using taken
        · exact ⟨x, .head is, by simp [Text.sameName]⟩
      exact ⟨z, mem_foldl_enter hz, same⟩
    · exact ih _ h

theorem pairwise_foldl_enter (xs : List TableIndex)
    (h : is.Pairwise fun x y => ¬ Text.sameName x.name y.name) :
    (xs.foldl enter is).Pairwise fun x y => ¬ Text.sameName x.name y.name := by
  induction xs generalizing is with
  | nil => exact h
  | cons x xs ih =>
    refine ih ?_
    unfold enter
    split
    · exact h
    · next free => exact .cons (by simpa [Text.sameName_comm x.name] using free) h

end Entering

end Database

end Tabular
