import Tabular.Proofs.Schema.Pairing
import Tabular.Proofs.Session.Addressing

namespace Tabular

open Database (Row Table TableColumn)
open Sql (ColumnDefinition Command)

variable {m : TableMapping} {t t' t₀ : Table} {c : Column} {values : List Value} {n : Int64}

theorem TableMapping.Makes.numbers (makes : m.Makes t) (plain : m.IsPlain) (hc : c ∈ m.columns)
    (hn : c.autoIncrement) : m.Numbers t := by
  have refuses := makes.plain_columns plain (List.ne_nil_of_mem hc)
  obtain ⟨cs, key, text, made⟩ := makes
  obtain ⟨defined, _⟩ := definitions_of_createTable plain (List.ne_nil_of_mem hc) text
  obtain ⟨_, _, table⟩ := Table.exists_isDefinedBy made
  have names_eq := isDefinedBy_names defined
  have place {j : Nat} {c : Column} (hj : m.columns[j]? = some c) (hn : c.autoIncrement) :
      cs.findIdx? ColumnDefinition.numbered = some j := by
    obtain ⟨d, hd, is_d⟩ := exists_getElem?_of_forall₂ defined hj
    exact Database.findIdx?_of_countP_le_one table.once hd (is_d.numbered.trans hn)
  obtain ⟨i, hi⟩ := List.mem_iff_getElem?.1 hc
  have rowId_eq : t.rowId = some i := by rw [table.rowId_eq, place hi hn, Option.some_or]
  refine ⟨table.names.trans names_eq, names_eq ▸ table.distinct, ?_, by rw [rowId_eq]; rfl,
    fun {j d} hj => ?_, fun column hcolumn => (refuses column hcolumn).1⟩
  · rw [table.numbered_eq, place hi hn]
    rfl
  · constructor
    · intro same
      obtain rfl : i = j := Option.some.inj (rowId_eq.symm.trans same)
      cases hi.symm.trans hj
      exact hn
    · intro hd
      rw [table.rowId_eq, place hj hd, Option.some_or]

theorem Database.Table.Change.numbers (h : t.Change t') (ht : m.Numbers t) : m.Numbers t' := by
  rw [h.layout]
  exact ⟨ht.names, ht.distinct, ht.numbered, ht.hasId, ht.place, ht.refuses⟩

/-- The table that the mapping numbers gives its rows the numbers in their order. -/
structure TableMapping.IsNumberedIn (m : TableMapping) (t : Table) : Prop where
  numbers : m.Numbers t
  ordered : t.IsOrdered

/-- The table has one row more, in a number that no row had before, and the row is filled with the
values. -/
structure TableMapping.Adds (m : TableMapping) (values : List Value) (n : Int64) (t t' : Table)
    (row : Row) : Prop where
  table_eq : t' = { t with rows := t.rows ++ [row], highest := n }
  fresh : ∀ r ∈ t.rows, r.id < n
  id_eq : row.id = n
  fills : m.Fills t values n row.cells

theorem TableMapping.Adds.table?_replace {db : Database} {name : String} {row : Row}
    (h : m.Adds values n t t' row) (ht : db.table? name = some t) (n : Int64) :
    ({ db.replace t' with lastId := n } : Database).table? name = some t' := by
  show (db.replace t').table? name = some t'
  rw [Database.table?_replace, ht, h.table_eq]
  simp [Text.sameName]

theorem TableMapping.Adds.filter_hasAll {row : Row} (h : m.Adds values n t t' row)
    (hk : m.keys = [c]) (hid : t.locate? c.name = some .id) :
    t'.rows.filter (t'.hasAll m.keyNames [.integer n]) = [row] := by
  have has (r : Row) : t'.hasAll m.keyNames [.integer n] r = (r.id == n) := by
    rw [TableMapping.keyNames, hk]
    refine Table.hasAll_id ?_
    rw [h.table_eq]
    exact hid
  have others : ∀ r ∈ t.rows, ¬ t'.hasAll m.keyNames [.integer n] r := by
    intro r hr
    rw [has, beq_iff_eq]
    exact Int64.ne_of_lt (h.fresh r hr)
  have own : t'.hasAll m.keyNames [.integer n] row := by
    rw [has, h.id_eq, beq_self_eq_true]
  have rows_eq : t'.rows = t.rows ++ [row] := by rw [h.table_eq]
  rw [rows_eq, List.filter_append, List.filter_eq_nil_iff.2 others, List.filter_cons_of_pos own]
  rfl

theorem TableMapping.IsNumberedIn.adds (h : m.IsNumberedIn t) {db db' : Database} {stmt : Statement}
    {k : Nat} {cmd : Command} (made : Command.ofText? m.createTable = some cmd)
    (ht : db.table? m.tableName = some t) (hs : m.insert values = .ok stmt)
    (he : db.execute stmt = .ok (k, db')) :
    ∃ n t' row, m.Adds values n t t' row ∧ db' = { db.replace t' with lastId := n } := by
  obtain ⟨args, text⟩ := ofText?_insert made hs
  simp only [Database.execute, text] at he
  obtain ⟨u, given, added, t', hu, hg, adds, _, rfl⟩ := Database.insert_eq_ok he
  obtain rfl : u = t := Option.some.inj (hu.symm.trans ht)
  obtain ⟨given', hg', none_given, each⟩ := h.numbers.exists_given? args
  cases hg.symm.trans hg'
  have strict : ∀ c ∈ u.columns, c.onNull ≠ .ignore := by
    intro c hc ignored
    cases (h.numbers.refuses c hc).symm.trans ignored
  obtain ⟨n, rfl, below, rfl⟩ :=
    Table.adds_fresh h.numbers.numbered h.ordered strict none_given adds
  refine ⟨n, _, _, ⟨rfl, below, u.id_newRow n given, h.numbers.fills each⟩, ?_⟩
  rw [Option.map_some, Option.getD_some, u.id_newRow n given]

namespace Session

variable {s s' s₀ s₁ : Session} {u : RowType}

/-- The session has one row more, filled with the values. The number is in its key and in no other,
and the row is what is found under it. -/
def Finds (s s' : Session) (u : RowType) (m : TableMapping) (values : List Value) (n : Int64) :
    Prop :=
  ∃ t t' row, s.database.table? m.tableName = some t ∧ m.Adds values n t t' row ∧
    s' = { s with database := { s.database.replace t' with lastId := n } } ∧
    (∀ c ∈ m.keys, ∀ r ∈ t.rows, t.valueOf c.name r ≠ .integer n) ∧
    t'.rows.filter (t'.hasAll m.keyNames [.integer n]) = [row] ∧
    (findRow u (.int n)).run s' =
      ((m.decodeRow (m.columns.map Column.name) row.cells).map some, s')

theorem Ready.finds (h : s.Ready u m) (makes : m.Makes t₀) (hk : m.keys = [c])
    (hid : t.locate? c.name = some .id) (numbered : m.IsNumberedIn t)
    (ht : s.database.table? m.tableName = some t)
    (inserted : (insert u values).run s = (.ok n, s')) : s.Finds s' u m values n := by
  obtain ⟨stmt, _, db, hs, he, answered, rfl⟩ := h.insert_eq_ok.1 inserted
  obtain ⟨_, _, made, _⟩ := id makes
  obtain ⟨k, t', row, adds, rfl⟩ := numbered.adds made ht hs he
  obtain rfl : k = n := answered
  have there := adds.table?_replace ht k
  have only := adds.filter_hasAll hk hid
  refine ⟨t, t', row, ht, adds, rfl, fun d hd r hr => ?_, only, ?_⟩
  · obtain rfl : d = c := by simpa [hk] using hd
    rw [Table.valueOf, hid]
    exact fun same => Int64.ne_of_lt (adds.fresh r hr) (Datum.integer.inj same)
  · have length_eq : [Value.int k].length = m.keys.length := by rw [hk]; rfl
    have bound : [Value.int k].mapM m.bind = .ok [.integer k] := rfl
    have low : m.keys.length < Database.greatestHeight := by
      simp [hk, Database.greatestHeight]
    obtain ⟨rows, perm, found⟩ := (h.with_database _).run_findRowByKeys_whole
      makes (by simp [hk]) length_eq bound low there
    obtain rfl : rows = [row] := List.perm_singleton.1 (only ▸ perm)
    have names : t'.columns.map TableColumn.name = m.columns.map Column.name := by
      rw [adds.table_eq]
      exact numbered.numbers.names
    rw [findRow, found, names]
    rfl

end Session

end Tabular
