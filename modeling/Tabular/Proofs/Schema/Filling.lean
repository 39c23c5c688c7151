import Tabular.Proofs.Database.Numbering
import Tabular.Proofs.Schema.Addressing

namespace Tabular

open Sql (Command Token)
open Sql.Lexer (Completes read? read?_join read?_end read?_quoteIdentifier)

namespace Sql

def placeTokens (n : Nat) : List Token :=
  [Token.comma].intercalate (List.replicate n [.placeholder])

theorem read?_placeholders {sep : String} (hs : Completes sep.toList [.comma])
    (he : sep.toList.head?.any Lexer.endsToken) (n : Nat) :
    read? (placeholders sep n).toList = some (placeTokens n) := by
  rw [placeholders, String.toList_intercalate, placeTokens]
  refine Lexer.read?_intercalate hs he ?_
  rw [List.map_replicate]
  exact List.forall₂_iff_get.2 ⟨by simp, fun i _ _ => by simp; rfl⟩

theorem places?_placeTokens (n : Nat) (ts : List Token) :
    places? (placeTokens (n + 1) ++ .closing :: ts) = some (n + 1, ts) := by
  induction n with
  | zero => rfl
  | succ n ih =>
    have next : placeTokens (n + 2) = .placeholder :: .comma :: placeTokens (n + 1) := rfl
    rw [next, List.cons_append, List.cons_append, places?, ih]
    rfl

variable {table : String} {names : List String}

theorem tokens?_filled (ht : '\x00' ∉ table.toList) (hn : ∀ n ∈ names, '\x00' ∉ n.toList) :
    tokens? (quoteIdentifier table ++ (" (" ++ (", ".intercalate (names.map quoteIdentifier) ++
      (") values (" ++ (placeholders ", " names.length ++ ")"))))) =
      some (.name table :: .opening :: (nameTokens names ++
        .closing :: .word "values" :: .opening :: (placeTokens names.length ++ [.closing]))) := by
  have opening : Completes " (".toList [.opening] := by decide
  have middle : Completes ") values (".toList [.closing, .word "values", .opening] := by decide
  have closing : Completes ")".toList [.closing] := by decide
  have comma : Completes ", ".toList [.comma] := by decide
  have places := read?_end closing rfl (read?_placeholders comma rfl names.length)
  have filled := read?_join middle rfl (read?_names names) places
  have read := read?_join opening rfl (read?_quoteIdentifier table) filled
  have named : '\x00' ∉ (", ".intercalate (names.map quoteIdentifier)).toList := by
    rw [String.toList_intercalate, Text.mem_intercalate (by decide)]
    simpa [mem_quoteIdentifier (c := '\x00') (by decide)] using hn
  have placed : '\x00' ∉ (placeholders ", " names.length).toList := by
    rw [placeholders, String.toList_intercalate, Text.mem_intercalate (by decide)]
    simp
  have whole : '\x00' ∉ (quoteIdentifier table).toList := by
    rwa [mem_quoteIdentifier (by decide)]
  refine tokens?_eq_some.2 ⟨?_, ?_⟩
  · simp only [String.toList_append, List.mem_append, not_or]
    exact ⟨whole, by decide, named, by decide, placed, by decide⟩
  · simp only [String.toList_append]
    simpa using read

theorem Command.ofText?_filling (ht : '\x00' ∉ table.toList) (hn : ∀ n ∈ names, '\x00' ∉ n.toList) :
    Command.ofText? ("insert into " ++ (quoteIdentifier table ++
      if names.isEmpty then " default values"
      else " (" ++ ", ".intercalate (names.map quoteIdentifier) ++ ") values (" ++
        placeholders ", " names.length ++ ")")) = some (.insert table names) := by
  have start : Completes "insert into ".toList [.word "insert", .word "into"] := by decide
  rw [ofText?, tokens?_append start (by decide)]
  cases names with
  | nil =>
    have defaults : read? " default values".toList = some [.word "default", .word "values"] := by
      decide
    have read := Lexer.read?_append (read?_quoteIdentifier table) (c := ' ') rfl
      "default values".toList
    have whole : '\x00' ∉ (quoteIdentifier table).toList := by
      rwa [mem_quoteIdentifier (by decide)]
    have tokens : tokens? (quoteIdentifier table ++ " default values") =
        some [.name table, .word "default", .word "values"] := by
      refine tokens?_eq_some.2 ⟨?_, ?_⟩
      · rw [String.toList_append, List.mem_append, not_or]
        exact ⟨whole, by decide⟩
      · rw [String.toList_append]
        exact read.trans (congrArg (Option.map ([.name table] ++ ·)) defaults)
    rw [List.isEmpty_nil, if_pos rfl, tokens, Option.map_some, Option.bind_some]
    rfl
  | cons n names =>
    rw [if_neg (by simp)]
    simp only [String.append_assoc]
    rw [tokens?_filled ht hn, Option.map_some, Option.bind_some]
    show Command.insert? table (.opening :: (nameTokens (n :: names) ++ .closing :: _)) = _
    simp only [insert?, names?_nameTokens (List.cons_ne_nil n names), Option.bind_eq_bind,
      Option.bind_some, List.length_cons, places?_placeTokens, and_self, if_true]

end Sql

section Lists

variable {α β γ : Type} [DecidableEq β] {R : α → β → Prop} {S : α → γ → Prop} {xs : List α}
  {ys : List β} {zs : List γ} {b : β}

omit [DecidableEq β] in
theorem exists_getElem?_of_forall₂ (h : List.Forall₂ R xs ys) {i : Nat} {x : α}
    (hx : xs[i]? = some x) : ∃ y, ys[i]? = some y ∧ R x y := by
  induction h generalizing i with
  | nil => cases hx
  | cons hxy _ ih =>
    cases i with
    | zero =>
      cases hx
      exact ⟨_, rfl, hxy⟩
    | succ i => exact ih hx

theorem exists_lookup_zip (hy : List.Forall₂ R xs ys) (hz : List.Forall₂ S xs zs) {x : α}
    (hx : x ∈ xs) (hb : ∀ x' ∈ xs, ∀ y, R x' y → (y = b ↔ x' = x)) :
    ∃ z, (ys.zip zs).lookup b = some z ∧ S x z := by
  induction hy generalizing zs with
  | nil => cases hx
  | @cons a y xs ys hxy _ ih =>
    obtain ⟨z, zs, haz, hzs, rfl⟩ := List.forall₂_cons_left_iff.1 hz
    have first := hb a List.mem_cons_self y hxy
    by_cases same : y = b
    · obtain rfl := first.1 same
      rw [List.zip_cons_cons, same, List.lookup_cons_self]
      exact ⟨z, rfl, haz⟩
    · have later : x ∈ xs := List.mem_of_ne_of_mem (fun he => same (first.2 he.symm)) hx
      rw [List.zip_cons_cons, List.lookup_cons, beq_eq_false_iff_ne.2 (Ne.symm same)]
      exact ih hzs later fun x' hx' => hb x' (List.mem_cons_of_mem a hx')

theorem lookup_zip_eq_none (hy : List.Forall₂ R xs ys) (hb : ∀ x ∈ xs, ¬ R x b) :
    (ys.zip zs).lookup b = none := by
  rw [List.lookup_eq_none_iff]
  intro p hp
  obtain ⟨x, hx, hr⟩ := exists_of_forall₂ hy (List.of_mem_zip hp).1
  rw [bne_iff_ne]
  rintro rfl
  exact hb x hx hr

end Lists

namespace TableMapping

open Database (Place Row Table TableColumn argument)

variable {m : TableMapping} {values : List Value} {stmt : Statement} {cmd : Command} {t : Table}
  {args : List Datum} {c : Column} {j : Nat}

theorem ofText?_insert (made : Command.ofText? m.createTable = some cmd)
    (h : m.insert values = .ok stmt) :
    m.inserted.mapM (m.insertArgument values) = .ok stmt.args ∧
      Command.ofText? stmt.sql = some (.insert m.tableName (m.inserted.map Column.name)) := by
  obtain ⟨args, ha, h⟩ := bind_eq_ok.1 h
  cases h
  obtain ⟨table, columns⟩ := nul_not_mem_of_createTable made
  have names : ∀ n ∈ m.inserted.map Column.name, '\x00' ∉ n.toList :=
    List.forall_mem_map.2 fun c hc => columns c (List.mem_filter.1 hc).1
  refine ⟨ha, ?_⟩
  rw [← Command.ofText?_filling table names, List.map_map, List.length_map, List.isEmpty_map]
  simp only [String.append_assoc]
  rfl

structure Numbers (m : TableMapping) (t : Table) : Prop where
  names : t.columns.map TableColumn.name = m.columns.map Column.name
  distinct : (m.columns.map Column.name).Pairwise fun n k => ¬ Text.sameName n k
  numbered : t.numbered
  hasId : t.rowId.isSome
  place : ∀ {j c}, m.columns[j]? = some c → (t.rowId = some j ↔ c.autoIncrement)
  refuses : ∀ column ∈ t.columns, column.onNull = .refuse

namespace Numbers

variable (h : m.Numbers t)

include h

theorem locate?_eq (hc : m.columns[j]? = some c) :
    t.locate? c.name = some (if c.autoIncrement then .id else .cell j) := by
  have place : t.place? c.name = some j :=
    (Table.place?_eq h.names _).trans (Database.findIdx?_of_distinct h.distinct hc)
  simp only [Table.locate?, place, h.place hc]

theorem getElem?_columns (hc : m.columns[j]? = some c) :
    ∃ column, t.columns[j]? = some column ∧ column.name = c.name := by
  have named : (t.columns.map TableColumn.name)[j]? = some c.name := by
    rw [h.names, List.getElem?_map, hc]
    rfl
  rw [List.getElem?_map] at named
  exact Option.map_eq_some_iff.1 named

theorem exists_cell (hc : c ∈ m.inserted) :
    ∃ j, m.columns[j]? = some c ∧ t.locate? c.name = some (.cell j) := by
  obtain ⟨present, plain⟩ := List.mem_filter.1 hc
  obtain ⟨j, hj⟩ := List.mem_iff_getElem?.1 present
  refine ⟨j, hj, (h.locate?_eq hj).trans ?_⟩
  rw [if_neg (by simpa using plain)]

theorem cell_iff (hc : m.columns[j]? = some c) (hn : c.autoIncrement = false) {c' : Column}
    (hc' : c' ∈ m.inserted) {p : Place} (hp : t.locate? c'.name = some p) :
    p = .cell j ↔ c' = c := by
  obtain ⟨i, hi, found⟩ := h.exists_cell hc'
  cases found.symm.trans hp
  constructor
  · rintro ⟨⟩
    exact Option.some.inj (hi.symm.trans hc)
  · rintro rfl
    rw [h.locate?_eq hc, hn] at hp
    exact (Option.some.inj hp).symm

theorem exists_given? (ha : m.inserted.mapM (m.insertArgument values) = .ok args) :
    ∃ given, t.given? (m.inserted.map Column.name) args = some given ∧ given.lookup .id = none ∧
      ∀ {j c}, m.columns[j]? = some c → c.autoIncrement = false →
        ∃ d, m.insertArgument values c = .ok d ∧ given.lookup (.cell j) = some (argument d) := by
  obtain ⟨places, located⟩ : ∃ places, List.Forall₂ (fun c p => t.locate? c.name = some p)
      m.inserted places := by
    refine exists_forall₂ fun c hc => ?_
    obtain ⟨j, _, hj⟩ := h.exists_cell hc
    exact ⟨.cell j, hj⟩
  have bound : List.Forall₂ (fun c z => ∃ d, m.insertArgument values c = .ok d ∧ z = argument d)
      m.inserted (args.map argument) :=
    List.forall₂_map_right_iff.2 ((mapM_eq_ok.1 ha).imp fun c d hd => ⟨d, hd, rfl⟩)
  refine ⟨places.zip (args.map argument), ?_, lookup_zip_eq_none located ?_, fun {j c} hc hn => ?_⟩
  · have all : (m.inserted.map Column.name).mapM t.locate? = some places :=
      mapM_eq_some.2 (List.forall₂_map_left_iff.2 located)
    simp only [Table.given?, all]
    rfl
  · intro c hc numbered
    obtain ⟨j, _, hj⟩ := h.exists_cell hc
    cases hj.symm.trans numbered
  · have own : c ∈ m.inserted := List.mem_filter.2 ⟨List.mem_of_getElem? hc, by simp [hn]⟩
    obtain ⟨z, found, d, hd, rfl⟩ :=
      exists_lookup_zip located bound own fun _ hc' _ hp => h.cell_iff hc hn hc' hp
    exact ⟨d, hd, found⟩

end Numbers

/-- The cells hold the values of a record, each in the column of its own member as the column stores
it, and the id in the column that is left to the table. -/
structure Fills (m : TableMapping) (t : Table) (values : List Value) (id : Int64)
    (cells : List Datum) : Prop where
  length_eq : cells.length = m.columns.length
  number : ∀ {j : Nat} {c : Column}, m.columns[j]? = some c → c.autoIncrement →
    cells[j]? = some (.integer id)
  stored : ∀ {j : Nat} {c : Column}, m.columns[j]? = some c → c.autoIncrement = false →
    ∃ v d column, values[c.memberIndex]? = some v ∧ m.bind v = .ok d ∧
      t.columns[j]? = some column ∧ cells[j]? = some (column.affinity.store (argument d))

theorem insertArgument_eq_ok {d : Datum} : m.insertArgument values c = .ok d ↔
    ∃ v, values[c.memberIndex]? = some v ∧ m.bind v = .ok d := by
  unfold insertArgument
  cases values[c.memberIndex]? <;> simp

theorem Numbers.fills (h : m.Numbers t) {given : List (Place × Datum)} {n : Int64}
    (hg : ∀ {j c}, m.columns[j]? = some c → c.autoIncrement = false →
      ∃ d, m.insertArgument values c = .ok d ∧ given.lookup (.cell j) = some (argument d)) :
    m.Fills t values n (t.newRow n given).cells := by
  obtain ⟨i, hi⟩ := Option.isSome_iff_exists.1 h.hasId
  have cells_eq : (t.newRow n given).cells = (t.cellsOf given).set i (.integer n) := by
    rw [Table.newRow, Table.withId, hi]
  have cell (k : Nat) : (t.cellsOf given)[k]? = t.columns[k]?.map fun column =>
      column.keep ((given.lookup (.cell k)).getD column.default) := by
    rw [Table.cellsOf, List.getElem?_map, List.getElem?_zipIdx]
    cases t.columns[k]? <;> simp
  have length_eq : (t.cellsOf given).length = m.columns.length := by
    simpa [Table.cellsOf] using congrArg List.length h.names
  rw [cells_eq]
  refine ⟨by rw [List.length_set, length_eq], fun {j c} hc numbered => ?_, fun {j c} hc plain => ?_⟩
  · obtain rfl : i = j := Option.some.inj (hi.symm.trans ((h.place hc).2 numbered))
    exact List.getElem?_set_self (length_eq ▸ (List.getElem?_eq_some_iff.1 hc).1)
  · have other : i ≠ j := by
      rintro rfl
      rw [(h.place hc).1 hi] at plain
      cases plain
    obtain ⟨column, hcolumn, _⟩ := h.getElem?_columns hc
    obtain ⟨d, hd, found⟩ := hg hc plain
    obtain ⟨v, hv, bound⟩ := insertArgument_eq_ok.1 hd
    refine ⟨v, d, column, hv, bound, hcolumn, ?_⟩
    have refuses := h.refuses column (List.mem_of_getElem? hcolumn)
    rw [List.getElem?_set_ne other, cell, hcolumn, found]
    simp [TableColumn.keep, refuses]

end TableMapping

end Tabular
