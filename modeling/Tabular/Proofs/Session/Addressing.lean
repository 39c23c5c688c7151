import Tabular.Proofs.Database.Conjunction
import Tabular.Proofs.Schema.Addressing
import Tabular.Proofs.Session.Indexing

namespace Tabular

open Database (Table Row Refusal)
open Sql (ColumnDefinition Term)

variable {m : TableMapping} {table table' : Table}

theorem TableMapping.Makes.isKeyedBy {type : RecordType} {conventions : Conventions}
    {rules : StorageRules} {p : Provider} (makes : m.Makes table)
    (hm : TableMapping.resolve type conventions rules p = .ok m) (plain : m.IsPlain)
    (hk : m.keys ≠ []) : table.IsKeyedBy m.keyNames := by
  obtain ⟨cs, key, text, made⟩ := makes
  have some_column : m.columns ≠ [] := by
    intro none
    rw [keys, none] at hk
    exact hk rfl
  obtain ⟨defined, key_eq⟩ := definitions_of_createTable plain some_column text
  cases numbered : m.autoIncrement? with
  -- Without a number the key is declared in a line of its own, with one it is that column.
  | none =>
    rw [numbered, Option.isSome_none, Bool.false_or, if_neg (by simpa using hk)] at key_eq
    subst key_eq
    exact Table.isKeyedBy_declared made (by simpa [keyNames] using hk)
  | some c =>
    have hc : c ∈ m.columns := List.mem_of_find?_eq_some numbered
    have autoIncrement : c.autoIncrement := List.find?_some numbered
    obtain ⟨_, _, _, _, keys_eq⟩ := RecordType.numbered_column hm hc autoIncrement
    obtain ⟨d, hd, is_d⟩ := exists_of_forall₂ defined.flip hc
    rw [keyNames, keys_eq, List.map_singleton, ← is_d.name]
    exact Table.isKeyedBy_numbered made hd (is_d.numbered.trans autoIncrement)

theorem TableMapping.Makes.plain_columns (makes : m.Makes table) (plain : m.IsPlain)
    (hn : m.columns ≠ []) : ∀ c ∈ table.columns, c.onNull = .refuse ∧ c.references = [] := by
  obtain ⟨cs, key, text, made⟩ := makes
  obtain ⟨defined, _⟩ := definitions_of_createTable plain hn text
  intro c hc
  obtain ⟨d, hd, column⟩ :=
    exists_of_forall₂ (mapM_eq_some.1 (Table.columns_of_definitions made)) hc
  obtain ⟨_, _, is_d⟩ := exists_of_forall₂ defined hd
  obtain ⟨_, onNull, references⟩ := Database.TableColumn.ofDefinition?_eq_some column
  exact ⟨onNull.trans is_d.onNull, references.trans is_d.references⟩

/-- The table of the mapping is there, with the key of the mapping, and no two rows agree in it. -/
def Database.HasKey (db : Database) (m : TableMapping) : Prop :=
  ∃ table, db.table? m.tableName = some table ∧ table.IsSound ∧ table.IsKeyedBy m.keyNames

namespace Session

variable {s s' s₀ s₁ : Session} {t : RowType} {values : List Value} {args : List Datum}
  {Q : Statement → Prop}

theorem Leads.exists_table {name : String} {P : Table → Prop}
    (keeps : ∀ {u u' : Table}, u.Change u' → P u → P u') (h : s.Leads Q s')
    (hs : ∃ table, s.database.table? name = some table ∧ P table) :
    ∃ table, s'.database.table? name = some table ∧ P table := by
  induction h with
  | refl => exact hs
  | tail _ step ih =>
    cases step with
    | extend h => exact h.database ▸ ih
    | execute _ h =>
      obtain ⟨table, ht, kept⟩ := ih
      obtain ⟨table', ht', change⟩ := Database.exists_change_of_execute ht h
      exact ⟨table', ht', keeps change kept⟩
    | undo | close => exact ih

theorem Leads.references_eq_nil (h : s.Leads (fun stmt => ¬ stmt.MakesTable) s')
    (hs : ∀ u ∈ s.database.tables, u.references = []) :
    ∀ u ∈ s'.database.tables, u.references = [] := by
  induction h with
  | refl => exact hs
  | tail _ step ih =>
    cases step with
    | extend h => exact h.database ▸ ih
    | execute keeps h => exact Database.references_of_execute h keeps ih
    | undo | close => exact ih

theorem Leads.hasKey (h : s.Leads Q s') (hs : s.database.HasKey m) : s'.database.HasKey m := by
  refine h.exists_table (fun {u u'} change ⟨sound, keyed⟩ => ⟨change.isSound sound, ?_⟩) hs
  rw [change.layout]
  exact keyed

theorem exists_makes_of_createTable (hc : s₀.closed = false) (empty : s₀.database.content = {})
    (faithful : s₀.Faithful t) (hm : s₀.Maps t m) (run : (createTable t).run s₀ = (.ok (), s₁)) :
    ∃ table, m.Makes table ∧ s₁.cache.get? t = some m ∧
      s₁.database.table? m.tableName = some table ∧ s₁.database.tables = [table] := by
  obtain ⟨cache, db, rfl, made, kept, _⟩ := createTable_eq_ok hc faithful hm run
  have none_there : s₀.database.tables = [] := congrArg Database.tables empty
  have new : s₀.database.table? m.tableName = none := by rw [Database.table?, none_there]; rfl
  obtain ⟨⟨table, makes, tables_eq⟩, _⟩ := Database.runEach_create_new new made
  refine ⟨table, makes, kept, ?_, by rw [tables_eq, none_there]; rfl⟩
  have appended := Database.table?_append new makes.name_eq
  unfold Database.table? at appended ⊢
  rwa [tables_eq]

def firstOf (m : TableMapping) (a : Database.Answer) : Except Failure (Option NamedRow) :=
  match a.rows with
  | [] => .ok none
  | row :: _ => (decoded (m.decodeRow a.columns) row).map some

namespace Ready

variable (h : s.Ready t m) {stmt : Statement}

include h

theorem run_deleteByKeys (hs : m.deleteByKeys values = .ok stmt) :
    (deleteByKeys t values).run s = s.taking (s.database.execute stmt) := by
  refine (run_bind_ok h.run_mapping _).trans ?_
  rw [hs]
  exact (run_bind_ok (run_ofQuery s _) _).trans (run_execute h.isOpen stmt)

theorem run_findRowByKeys (hs : m.getByKeys values = .ok stmt) :
    (findRowByKeys t values).run s =
      ((s.database.fetch stmt).mapError .refused >>= firstOf m, s) := by
  refine (run_bind_ok h.run_mapping _).trans ?_
  rw [hs, ← answer_of_open h.isOpen]
  refine (run_bind_ok (run_ofQuery s _) _).trans (run_bind s (run_fetch s stmt) fun a => ?_)
  obtain ⟨columns, rows⟩ := a
  cases rows with
  | nil => rfl
  | cons row rows =>
    have read := run_ofDecoded s (decoded (m.decodeRow columns) row)
    unfold firstOf
    dsimp only
    cases hd : decoded (m.decodeRow columns) row with
    | error failure =>
      rw [hd] at read
      exact run_bind_error read _
    | ok found =>
      rw [hd] at read
      exact run_bind_ok read _

end Ready

/-- The key addresses at most one row: just that one is deleted, and found before. -/
def Addresses (s : Session) (t : RowType) (m : TableMapping) (values : List Value) : Prop :=
  ∃ table n kept, s.database.table? m.tableName = some table ∧ n ≤ 1 ∧ kept.Sublist table.rows ∧
    kept.length + n = table.rows.length ∧
    (deleteByKeys t values).run s =
      (.ok n, { s with database := s.database.replace { table with rows := kept } }) ∧
    ((∀ r ∈ table.rows, ∃ row,
        m.decodeRow (table.columns.map Database.TableColumn.name) r.cells = .ok row) →
      ∃ found, (findRowByKeys t values).run s = (.ok found, s) ∧ (found.isSome ↔ n = 1))

theorem exists_firstOf {columns : List String} {rows : List Row}
    (decodes : ∀ r ∈ rows, ∃ row, m.decodeRow columns r.cells = .ok row) :
    ∃ found, firstOf m ⟨columns, rows.map fun r => .ok r.cells⟩ = .ok found ∧
      (found.isSome ↔ rows ≠ []) := by
  cases rows with
  | nil => exact ⟨none, rfl, by simp⟩
  | cons r rows =>
    obtain ⟨row, hr⟩ := decodes r (by simp)
    refine ⟨some row, ?_, by simp⟩
    simp only [firstOf, List.map_cons, decoded, hr]
    rfl

namespace Ready

variable (h : s.Ready t m) (makes : m.Makes table') (hk : m.keys ≠ [])
  (hl : values.length = m.keys.length) (hv : values.mapM m.bind = .ok args)

include h makes hk hl hv

section Low

variable (low : m.keys.length < Database.greatestHeight)
  (ht : s.database.table? m.tableName = some table)

include low ht

theorem run_deleteByKeys_whole (unrelated : ∀ u ∈ s.database.tables, u.references = []) :
    (deleteByKeys t values).run s =
    (.ok (table.rows.filter (table.hasAll m.keyNames args)).length,
      { s with database := s.database.replace { table with
        rows := table.rows.filter fun r => !table.hasAll m.keyNames args r } }) := by
  obtain ⟨_, _, made, _⟩ := makes
  obtain ⟨term, test⟩ := TableMapping.keyTest_keyNames hk
  obtain ⟨sql, built, text⟩ := TableMapping.deleteByKeys_eq_ok hl hv hk made test
  have free : s.database.referencesTo m.tableName = [] := by
    rw [Database.referencesTo_eq_nil]
    exact fun u hu r hr => absurd hr (unrelated u hu ▸ List.not_mem_nil)
  have deleted := Database.delete_keyTest test (TableMapping.length_keyNames hl hv)
    (by simpa [TableMapping.keyNames]) ht
  rw [Database.deleteWhere_of_free ht free,
    Database.checkTargets_of_references (unrelated table (Database.mem_tables_of_table? ht))]
    at deleted
  rw [h.run_deleteByKeys built, Database.execute, text]
  dsimp only
  rw [deleted]
  rfl

theorem run_findRowByKeys_whole : ∃ rows : List Row,
    rows.Perm (table.rows.filter (table.hasAll m.keyNames args)) ∧
      (findRowByKeys t values).run s =
        (firstOf m ⟨table.columns.map Database.TableColumn.name, rows.map fun r => .ok r.cells⟩,
          s) := by
  obtain ⟨_, _, made, _⟩ := makes
  obtain ⟨term, test⟩ := TableMapping.keyTest_keyNames hk
  obtain ⟨sql, built, text⟩ := TableMapping.getByKeys_eq_ok hl hv hk made test
  obtain ⟨rows, perm, selected⟩ := Database.select_keyTest test
    (TableMapping.length_keyNames hl hv) (by simpa [TableMapping.keyNames]) ht
  refine ⟨rows, perm, ?_⟩
  rw [h.run_findRowByKeys built, Database.fetch, text]
  dsimp only
  rw [selected]
  rfl

end Low

theorem refused (high : Database.greatestHeight ≤ m.keys.length) :
    (deleteByKeys t values).run s = (.error (.refused .invalid), s) ∧
      (findRowByKeys t values).run s = (.error (.refused .invalid), s) := by
  obtain ⟨_, _, made, _⟩ := makes
  obtain ⟨term, test⟩ := TableMapping.keyTest_keyNames hk
  have tall : Database.greatestHeight < term.height := by
    rw [Term.height_keyTest test, TableMapping.keyNames, List.length_map]
    omega
  constructor
  · obtain ⟨sql, built, text⟩ := TableMapping.deleteByKeys_eq_ok hl hv hk made test
    rw [h.run_deleteByKeys built, Database.execute, text]
    dsimp only
    rw [Database.delete, Database.prepare_of_high tall]
    rfl
  · obtain ⟨sql, built, text⟩ := TableMapping.getByKeys_eq_ok hl hv hk made test
    rw [h.run_findRowByKeys built, Database.fetch, text]
    dsimp only
    rw [Database.select, Database.prepare_of_high tall]
    rfl

theorem addresses (hasKey : s.database.HasKey m)
    (unrelated : ∀ u ∈ s.database.tables, u.references = [])
    (low : m.keys.length < Database.greatestHeight) : s.Addresses t m values := by
  obtain ⟨table, ht, sound, keyed⟩ := hasKey
  have some_name : m.keyNames ≠ [] := by simpa [TableMapping.keyNames] using hk
  have single := sound.length_filter_hasAll_le_one keyed some_name
    (TableMapping.length_keyNames hl hv)
  have parted := (List.filter_append_perm (table.hasAll m.keyNames args) table.rows).length_eq
  rw [List.length_append, Nat.add_comm] at parted
  refine ⟨table, _, _, ht, single, List.filter_sublist, parted,
    h.run_deleteByKeys_whole makes hk hl hv low ht unrelated, fun decodes => ?_⟩
  obtain ⟨rows, perm, run⟩ := h.run_findRowByKeys_whole makes hk hl hv low ht
  obtain ⟨found, first, some_row⟩ :=
    exists_firstOf fun r hr => decodes r (List.mem_filter.1 (perm.subset hr)).1
  refine ⟨found, first ▸ run, some_row.trans ?_⟩
  rw [← perm.length_eq] at single ⊢
  rw [← List.length_pos_iff]
  omega

end Ready

theorem addresses_after (hc : s₀.closed = false) (empty : s₀.database.content = {})
    (faithful : s₀.Faithful t) (hm : s₀.Maps t m) (hk : m.keys ≠ []) (plain : m.IsPlain)
    (made : (createTable t).run s₀ = (.ok (), s₁)) {run : List Operation}
    (alone : ∀ u, .createTable u ∉ run) (hopen : (s₁.after run).closed = false)
    (hl : values.length = m.keys.length) (hv : values.mapM m.bind = .ok args) :
    (m.keys.length < Database.greatestHeight → (s₁.after run).Addresses t m values) ∧
    (Database.greatestHeight ≤ m.keys.length →
      (deleteByKeys t values).run (s₁.after run) = (.error (.refused .invalid), s₁.after run) ∧
      (findRowByKeys t values).run (s₁.after run) =
        (.error (.refused .invalid), s₁.after run)) := by
  obtain ⟨table, makes, kept, there, only⟩ := exists_makes_of_createTable hc empty faithful hm made
  have leads : s₁.Leads (fun stmt => ¬ stmt.MakesTable) (s₁.after run) :=
    leads_after (fun _ => id) s₁ fun u hu => absurd hu (alone u)
  have ready : (s₁.after run).Ready t m := ⟨hopen, leads.kept kept⟩
  have hasKey : s₁.database.HasKey m := ⟨table, there,
    Database.Table.isSound_of_empty makes.rows_eq, makes.isKeyedBy hm plain hk⟩
  have some_column : m.columns ≠ [] := fun none => hk (by rw [TableMapping.keys, none]; rfl)
  have unrelated : ∀ u ∈ s₁.database.tables, u.references = [] := by
    rw [only, List.forall_mem_singleton]
    exact Table.references_eq_nil fun c hc => (makes.plain_columns plain some_column c hc).2
  exact ⟨ready.addresses makes hk hl hv (leads.hasKey hasKey) (leads.references_eq_nil unrelated),
    ready.refused makes hk hl hv⟩

def seatType : RowType where
  id := 0
  type := {
    name := "Seat"
    tableName := some "seats"
    members := [
      { name := "row", kind := .text, attributes := [.primaryKey, .collation "nocase"] },
      { name := "number", kind := .int64, attributes := [.primaryKey] },
      { name := "guest", kind := .text }] }

def seating : List Operation :=
  [.insert seatType [.text "A", .int 1, .text "x"], .insert seatType [.text "A", .int 2, .text "y"],
    .insert seatType [.text "a", .int 1, .text "z"]]

theorem addresses_after_seats : ∃ m s₁, Maps {} seatType m ∧
    (createTable seatType).run {} = (.ok (), s₁) ∧
    (s₁.after seating).database.tables.map (·.rows.length) = [2] ∧
    (s₁.after seating).Addresses seatType m [.text "a", .int 2] := by
  obtain ⟨m, hm, keys, bound⟩ : ∃ m, Maps {} seatType m ∧
      m.keys.map Column.name = ["row", "number"] ∧
      [Value.text "a", .int 2].mapM m.bind = .ok [.text "a", .integer 2] :=
    ⟨_, by rfl, by rfl, by rfl⟩
  obtain ⟨_, s₁, made, after⟩ : ∃ a s₁, (createTable seatType).run {} = (.ok a, s₁) ∧
      ((s₁.after seating).database.tables.map (·.rows.length), (s₁.after seating).closed) =
        ([2], false) := exists_run_eq_ok (by decide +kernel)
  obtain ⟨seated, isOpen⟩ := Prod.mk.inj after
  have some_key : m.keys ≠ [] := by
    intro none
    rw [none] at keys
    cases keys
  have length_eq : [Value.text "a", .int 2].length = m.keys.length := by
    simpa using (congrArg List.length keys).symm
  have collated : ∀ x ∈ seatType.type.stored .attributes,
      ∀ s ∈ (Provider.attributes.facts x.1).collation, s = "nocase" := by decide +kernel
  have plain : m.IsPlain :=
    RecordType.isPlain_of_resolve hm (by simp) fun x hx s hs => by
      rw [collated x hx s hs]
      exact ⟨"nocase", by decide, by decide⟩
  have addressed := (addresses_after rfl rfl (faithful_of_nil _) hm some_key plain made
    (by simp [seating]) isOpen length_eq bound).1 (length_eq ▸ by decide)
  exact ⟨m, s₁, hm, made, seated, addressed⟩

/-- Parts that hide their key in a default that one collation begins and another one ends. -/
def partType : RowType where
  id := 0
  type := {
    name := "Part"
    tableName := some "parts"
    members := [
      { name := "first", kind := .text, attributes := [.collation "binary default('"] },
      { name := "id", kind := .int64, attributes := [.primaryKey, .autoIncrement] },
      { name := "last", kind := .text
        attributes := [.collation "'), \"id\" text default('x'), \"last\" text"] }] }

def parting : List Operation :=
  [.insert partType [.text "a", .int 0, .text "b"], .insert partType [.text "c", .int 0, .text "d"]]

/-- What is taken for the key is a column with one default for all rows. -/
theorem key_addresses_many : ¬ ∀ (o : Options) (t : RowType) (m : TableMapping) (s₁ : Session)
    (run : List Operation) (values : List Value) (args : List Datum),
      Maps { options := o } t m → m.keys ≠ [] →
      (createTable t).run { options := o } = (.ok (), s₁) → (s₁.after run).closed = false →
      values.length = m.keys.length → values.mapM m.bind = .ok args →
      (s₁.after run).Addresses t m values := by
  intro single
  obtain ⟨m, hm, named, keys, bound⟩ : ∃ m, Maps {} partType m ∧ m.tableName = "parts" ∧
      m.keyNames = ["id"] ∧ [Value.text "x"].mapM m.bind = .ok [.text "x"] :=
    ⟨_, by rfl, by rfl, by rfl, by rfl⟩
  obtain ⟨_, s₁, made, after⟩ : ∃ a s₁, (createTable partType).run {} = (.ok a, s₁) ∧
      (((s₁.after parting).database.table? "parts").map fun table =>
        (table.rows.filter (table.hasAll ["id"] [.text "x"])).length,
        (s₁.after parting).closed,
        (s₁.after parting).database.tables.all fun u => u.references.isEmpty) =
        (some 2, false, true) := exists_run_eq_ok (by decide +kernel)
  obtain ⟨two, after⟩ := Prod.mk.inj after
  obtain ⟨isOpen, referring⟩ := Prod.mk.inj after
  have unrelated : ∀ u ∈ (s₁.after parting).database.tables, u.references = [] := by
    simpa using referring
  have some_key : m.keys ≠ [] := by
    intro none
    rw [TableMapping.keyNames, none] at keys
    cases keys
  have length_eq : [Value.text "x"].length = m.keys.length := by
    simpa [TableMapping.keyNames] using (congrArg List.length keys).symm
  obtain ⟨table, makes, kept, _⟩ := exists_makes_of_createTable rfl rfl (faithful_of_nil _) hm made
  have leads : s₁.Leads (fun _ => True) (s₁.after parting) :=
    leads_after (fun _ _ => trivial) s₁ fun _ _ _ => trivial
  have ready : (s₁.after parting).Ready partType m := ⟨isOpen, leads.kept kept⟩
  obtain ⟨rows, n, _, ht, most, _, _, deleted, _⟩ :=
    single {} partType m s₁ parting [.text "x"] _ hm some_key made isOpen length_eq bound
  have low : m.keys.length < Database.greatestHeight := length_eq ▸ by decide
  rw [ready.run_deleteByKeys_whole makes some_key length_eq bound low ht unrelated, keys] at deleted
  rw [named] at ht
  rw [ht, Option.map_some, Option.some.injEq] at two
  cases (Prod.mk.inj deleted).1
  exact absurd (two ▸ most) (by decide)

end Session

end Tabular
