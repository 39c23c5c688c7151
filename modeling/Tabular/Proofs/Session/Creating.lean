import Tabular.Proofs.Database.Creating
import Tabular.Proofs.Schema.Making
import Tabular.Proofs.Session.Effects

/-! What is left of a table and its indices when their creation fails. The statements for them are
run one after the other, and nothing takes back what the first of them did. -/

namespace Tabular

def Index.on (i : Index) (table : String) : Database.TableIndex :=
  ⟨i.name, table, i.columns, i.unique⟩

namespace TableMapping

variable {m : TableMapping} {t : Database.Table}

def Makes (m : TableMapping) (t : Database.Table) : Prop :=
  ∃ cs key, Sql.Command.ofText? m.createTable = some (.createTable m.tableName cs key) ∧
    Database.Table.ofDefinitions? m.tableName cs key = some t

theorem Makes.name_eq (h : m.Makes t) : t.name = m.tableName := by
  obtain ⟨_, _, _, ht⟩ := h
  exact (Database.Table.ofDefinitions?_eq_some ht).1

theorem Makes.rows_eq (h : m.Makes t) : t.rows = [] := by
  obtain ⟨_, _, _, ht⟩ := h
  exact (Database.Table.ofDefinitions?_eq_some ht).2

end TableMapping

namespace Database

variable {db db₁ db₂ : Database} {m : TableMapping} {sqls : List String} {refusal : Refusal}

def runEach (db : Database) : List String → Except Refusal Unit × Database
  | [] => (.ok (), db)
  | sql :: sqls =>
    match db.execute ⟨sql, []⟩ with
    | .ok (_, db) => db.runEach sqls
    | .error refusal => (.error refusal, db)

theorem runEach_cons {sql : String} (r : Except Refusal Unit) :
    db.runEach (sql :: sqls) = (r, db₂) ↔
      (∃ n db₁, db.execute ⟨sql, []⟩ = .ok (n, db₁) ∧ db₁.runEach sqls = (r, db₂)) ∨
        ∃ refusal, db.execute ⟨sql, []⟩ = .error refusal ∧ r = .error refusal ∧ db₂ = db := by
  rw [runEach]
  cases db.execute ⟨sql, []⟩ with
  | ok e =>
    obtain ⟨n, db'⟩ := e
    simp
  | error refusal => simp [eq_comm]

theorem runEach_eq_error (h : db.runEach sqls = (.error refusal, db₁)) :
    ∃ before sql after, sqls = before ++ sql :: after ∧ db.runEach before = (.ok (), db₁) ∧
      db₁.execute ⟨sql, []⟩ = .error refusal := by
  induction sqls generalizing db with
  | nil => cases h
  | cons sql sqls ih =>
    rcases (runEach_cons _).1 h with ⟨n, db₀, he, h⟩ | ⟨r, he, hr, rfl⟩
    · obtain ⟨before, sql', after, rfl, hb, hs⟩ := ih h
      exact ⟨sql :: before, sql', after, rfl, (runEach_cons _).2 (.inl ⟨n, db₀, he, hb⟩), hs⟩
    · cases hr
      exact ⟨[], sql, sqls, rfl, rfl, he⟩

theorem runEach_append {before after : List String} :
    db.runEach (before ++ after) = (.ok (), db₂) ↔
      ∃ db₁, db.runEach before = (.ok (), db₁) ∧ db₁.runEach after = (.ok (), db₂) := by
  induction before generalizing db with
  | nil => simp [runEach]
  | cons sql before ih =>
    rw [List.cons_append, runEach]
    cases h : db.execute ⟨sql, []⟩ with
    | ok e => simp only [ih, runEach, h]
    | error refusal => simp [runEach, h]

theorem execute_createTable {n : Nat}
    (h : db.execute ⟨m.createTable, []⟩ = .ok (n, db₁)) :
    ∃ t, db₁.table? m.tableName = some t ∧ (db.table? m.tableName = some t ∧ db₁ = db ∨
      db.table? m.tableName = none ∧ m.Makes t ∧
        db₁ = { db with tables := db.tables ++ [t] }) := by
  obtain ⟨cmd, hc⟩ := exists_command_of_execute h
  obtain ⟨cs, key, rfl⟩ := m.command_createTable hc
  rw [execute, hc] at h
  obtain ⟨db', hd, h⟩ := bind_eq_ok.1 h
  cases h
  obtain ⟨there, rfl⟩ | ⟨new, _, t, ht, rfl⟩ := createTable_eq_ok.1 hd
  · obtain ⟨t, ht⟩ := Option.isSome_iff_exists.1 there
    exact ⟨t, ht, .inl ⟨ht, rfl⟩⟩
  · have made : m.Makes t := ⟨cs, key, hc, ht⟩
    exact ⟨t, table?_append new made.name_eq, .inr ⟨new, made, rfl⟩⟩

theorem execute_createIndex {n : Nat} {i : Index}
    (h : db.execute ⟨m.createIndex i, []⟩ = .ok (n, db₁)) :
    ∃ t, db.table? m.tableName = some t ∧
      db₁ = { db with indices := enter db.indices (i.on t.name) } := by
  obtain ⟨cmd, hc⟩ := exists_command_of_execute h
  obtain rfl := m.command_createIndex hc
  rw [execute, hc] at h
  obtain ⟨db', hd, h⟩ := bind_eq_ok.1 h
  cases h
  obtain ⟨t, ht, _, _, _, rfl⟩ := createIndex_eq_ok.1 hd
  exact ⟨t, ht, rfl⟩

theorem runEach_createIndices {is : List Index} {t : Table} (ht : db.table? m.tableName = some t)
    (h : db.runEach (is.map m.createIndex) = (.ok (), db₁)) :
    db₁ = { db with indices := (is.map (·.on t.name)).foldl enter db.indices } := by
  induction is generalizing db with
  | nil =>
    cases h
    rfl
  | cons i is ih =>
    rw [List.map_cons] at h
    obtain ⟨n, db₀, he, rest⟩ | ⟨_, _, hr, _⟩ := (runEach_cons _).1 h
    · obtain ⟨u, hu, rfl⟩ := execute_createIndex he
      cases ht.symm.trans hu
      exact ih (by exact ht) rest
    · cases hr

/-- Nothing is made before a statement for the table or one of its indices is refused: it is the
first of them, or those before it find everything in its place. -/
def RefusesAtOnce (db : Database) (m : TableMapping) : Prop :=
  (∃ refusal, db.execute ⟨m.createTable, []⟩ = .error refusal) ∨
    (db.table? m.tableName).isSome ∧ ∃ before i after refusal, m.indices = before ++ i :: after ∧
      (∀ j ∈ before, (db.index? j.name).isSome) ∧
      db.execute ⟨m.createIndex i, []⟩ = .error refusal

/-- All that was there still is; at most the table has been added, empty, and some of its
indices. -/
def Leaves (db : Database) (m : TableMapping) (db' : Database) : Prop :=
  (db'.tables = db.tables ∨
    ∃ t : Table, t.name = m.tableName ∧ t.rows = [] ∧ db'.tables = db.tables ++ [t]) ∧
  ∃ made, db'.indices = made ++ db.indices ∧
    ∀ x ∈ made, Text.sameName x.table m.tableName ∧ ∃ i ∈ m.indices, x = i.on x.table

theorem exists_runEach_createIndices {is : List Index} {t : Table}
    (ht : db.table? m.tableName = some t)
    (h : db.runEach (is.map m.createIndex) = (.ok (), db₁)) :
    ∃ made, db₁ = { db with indices := made ++ db.indices } ∧
      (∀ x ∈ made, Text.sameName x.table m.tableName ∧ ∃ i ∈ is, x = i.on x.table) ∧
      (made = [] ↔ ∀ i ∈ is, (db.index? i.name).isSome) := by
  obtain ⟨made, last, from_is, none_made⟩ :=
    exists_foldl_enter db.indices (is.map (·.on t.name))
  refine ⟨made, last ▸ runEach_createIndices ht h, fun x hx => ?_, ?_⟩
  · obtain ⟨i, hi, rfl⟩ := List.mem_map.1 (from_is x hx)
    exact ⟨sameName_of_table? ht, i, hi, rfl⟩
  · rw [none_made, List.forall_mem_map]
    exact forall₂_congr fun i _ => by rw [index?, List.isSome_find?]; rfl

theorem runEach_createIndices_ne_ok {before after : List Index} {i : Index} {t : Table}
    (ht : db.table? m.tableName = some t) (taken : ∀ j ∈ before, (db.index? j.name).isSome)
    (refused : db.execute ⟨m.createIndex i, []⟩ = .error refusal) :
    db.runEach ((before ++ i :: after).map m.createIndex) ≠ (.ok (), db₁) := by
  intro passed
  rw [List.map_append, runEach_append] at passed
  obtain ⟨db₀, first, passed⟩ := passed
  obtain ⟨made, rfl, _, none_made⟩ := exists_runEach_createIndices ht first
  rw [none_made.2 taken] at passed
  obtain ⟨n, _, done, _⟩ | ⟨_, _, hr, _⟩ := (runEach_cons _).1 passed
  · cases done.symm.trans refused
  · cases hr

theorem refusesAtOnce_iff {before after : List Index} {i : Index} {t : Table} {n : Nat}
    (table : db.execute ⟨m.createTable, []⟩ = .ok (n, db))
    (ht : db.table? m.tableName = some t) (split : m.indices = before ++ i :: after)
    (passed : db.runEach (before.map m.createIndex) = (.ok (), db₁))
    (refused : db₁.execute ⟨m.createIndex i, []⟩ = .error refusal) :
    db.RefusesAtOnce m ↔ ∀ j ∈ before, (db.index? j.name).isSome := by
  constructor
  · rintro (⟨refusal', refused'⟩ | ⟨_, before', i', after', refusal', split', taken, refused'⟩)
    · cases table.symm.trans refused'
    -- The run has passed `before`, so the index that is refused at first is not among them.
    obtain ⟨more, rfl, _⟩ | ⟨more, rfl, rest⟩ :=
      List.append_eq_append_iff.1 (split.symm.trans split')
    · exact fun j hj => taken j (by simp [hj])
    cases more with
    | nil => simpa using taken
    | cons j more =>
      cases rest
      exact absurd passed (runEach_createIndices_ne_ok ht taken refused')
  · intro taken
    obtain ⟨made, rfl, _, none_made⟩ := exists_runEach_createIndices ht passed
    rw [none_made.2 taken] at refused
    exact .inr ⟨by rw [ht]; rfl, before, i, after, refusal, split, taken, refused⟩

theorem runEach_create {refusal : Refusal}
    (h : db.runEach (m.createTable :: m.createIndices) = (.error refusal, db₂)) :
    (db₂ = db ↔ db.RefusesAtOnce m) ∧ db.Leaves m db₂ := by
  obtain ⟨n, db₁, table, h⟩ | ⟨refusal, table, _, rfl⟩ := (runEach_cons _).1 h
  · obtain ⟨done, sql, rest, split, passed, refused⟩ := runEach_eq_error h
    obtain ⟨before, tail, indices_eq, rfl, tail_eq⟩ := List.map_eq_append_iff.1 split
    obtain ⟨i, after, rfl, rfl, _⟩ := List.map_eq_cons_iff.1 tail_eq
    obtain ⟨t, ht, made_table⟩ := execute_createTable table
    obtain ⟨made, rfl, from_before, none_made⟩ := exists_runEach_createIndices ht passed
    have declared : ∀ x ∈ made,
        Text.sameName x.table m.tableName ∧ ∃ i ∈ m.indices, x = i.on x.table := by
      intro x hx
      obtain ⟨same, j, hj, hx⟩ := from_before x hx
      exact ⟨same, j, by simp [indices_eq, hj], hx⟩
    obtain ⟨there, rfl⟩ | ⟨new, makes, rfl⟩ := made_table
    · have still : ({ db₁ with indices := made ++ db₁.indices } : Database) = db₁ ↔ made = [] := by
        refine ⟨fun h => ?_, fun h => by rw [h]; rfl⟩
        simpa using congrArg Database.indices h
      have at_once := refusesAtOnce_iff table there indices_eq passed refused
      exact ⟨still.trans (none_made.trans at_once.symm), .inl rfl, made, rfl, declared⟩
    · refine ⟨⟨fun same => ?_, fun at_once => ?_⟩, .inr ⟨t, makes.name_eq, makes.rows_eq, rfl⟩,
        made, rfl, declared⟩
      · simpa using congrArg Database.tables same
      · obtain ⟨refusal', refused'⟩ | ⟨there, _⟩ := at_once
        · cases table.symm.trans refused'
        · simp [new] at there
  · exact ⟨⟨fun _ => .inl ⟨refusal, table⟩, fun _ => rfl⟩, .inl rfl, [], rfl, by simp⟩

end Database

namespace Session

variable {s s' : Session} {t : RowType} {m : TableMapping} {failure : Failure}

theorem run_executeEach (hc : s.closed = false) (sqls : List String) :
    (sqls.forM fun sql => discard (execute ⟨sql, []⟩)).run s =
      ((s.database.runEach sqls).1.mapError .refused,
        { s with database := (s.database.runEach sqls).2 }) := by
  induction sqls generalizing s with
  | nil => rfl
  | cons sql sqls ih =>
    have first := run_execute hc ⟨sql, []⟩
    rw [List.forM, Database.runEach]
    cases he : s.database.execute ⟨sql, []⟩ with
    | error refusal =>
      rw [he] at first
      exact run_bind_error (run_bind_error first _) _
    | ok e =>
      obtain ⟨n, db⟩ := e
      rw [he] at first
      exact (run_bind_ok (run_bind_ok first _) _).trans (ih (s := { s with database := db }) hc)

theorem run_createTable {s₀ : Session} (hc : s.closed = false)
    (hm : (mapping t).run s = (.ok m, s₀)) : (createTable t).run s =
      ((s.database.runEach (m.createTable :: m.createIndices)).1.mapError .refused,
        { s₀ with database := (s.database.runEach (m.createTable :: m.createIndices)).2 }) := by
  obtain ⟨ready, same⟩ := Ready.of_mapping hc hm
  have database : s₀.database = s.database := by rw [same]
  rw [← database]
  exact (run_bind_ok hm _).trans (run_executeEach ready.isOpen _)

theorem createTable_eq_error (h : (createTable t).run s = (.error failure, s')) :
    (∀ m s₀, s.closed = false → (mapping t).run s = (.ok m, s₀) →
      (s'.database = s.database ↔ s.database.RefusesAtOnce m) ∧
        s.database.Leaves m s'.database) ∧
    ((s.closed = true ∨ ∃ fault, failure = .query fault) → s'.database = s.database) := by
  constructor
  · intro m s₀ hc hm
    rw [run_createTable hc hm] at h
    cases hr : s.database.runEach (m.createTable :: m.createIndices) with
    | mk r db =>
      rw [hr] at h
      cases r with
      | ok => cases h
      | error refusal =>
        cases h
        exact Database.runEach_create hr
  · rintro (hc | ⟨fault, rfl⟩)
    · rcases hm : (mapping t).run s with ⟨failure' | m, s₀⟩
      · cases (run_bind_error hm _).symm.trans h
        exact (Moves.of_run (Quiet.mapping t) hm).database
      · have extended := Moves.of_run (Quiet.mapping t) hm
        have closed : s₀.closed = true := by rw [extended.same, hc]
        have first := run_execute_of_closed closed ⟨m.createTable, []⟩
        cases ((run_bind_ok hm _).trans (run_bind_error (run_bind_error first _) _)).symm.trans h
        exact extended.database
    · have orderly := Orderly.createTable (P := fun _ => True) (fun _ => trivial) t
      exact (orderly.extends_of_fault h).database

def crossedType : RowType where
  id := 0
  type := {
    name := "Note"
    tableName := some "notes"
    members := [
      { name := "id", kind := .int64, attributes := [.primaryKey] },
      { name := "title", kind := .text, attributes := [.indexed { name := some "notes" }] }] }

theorem run_crossedType : ∃ failure s', (createTable crossedType).run {} = (.error failure, s') ∧
    s'.database.tables.map (·.name) = ["notes"] := by
  have outcome : (((createTable crossedType).run {}).1.isOk,
      ((createTable crossedType).run {}).2.database.tables.map (·.name)) = (false, ["notes"]) := by
    decide +kernel
  rcases h : (createTable crossedType).run {} with ⟨failure | _, s'⟩ <;> rw [h] at outcome
  · exact ⟨failure, s', rfl, (Prod.mk.inj outcome).2⟩
  · cases outcome

theorem createTable_eq_error_crossed : ∃ failure s' m s₀,
    (createTable crossedType).run {} = (.error failure, s') ∧
      (mapping crossedType).run {} = (.ok m, s₀) ∧ s'.database.tables.map (·.name) = ["notes"] ∧
      ¬ Database.RefusesAtOnce {} m := by
  obtain ⟨failure, s', h, made⟩ := run_crossedType
  obtain ⟨m, s₀, hm⟩ : ∃ m s₀, (mapping crossedType).run {} = (.ok m, s₀) := ⟨_, _, by rfl⟩
  have left := ((createTable_eq_error h).1 m s₀ rfl hm).1
  refine ⟨failure, s', m, s₀, h, hm, made, fun at_once => ?_⟩
  rw [left.2 at_once] at made
  cases made

theorem createTable_not_atomic : ¬ ∀ (run : List Operation) (t : RowType) (failure : Failure)
    (s' : Session), (createTable t).run (Session.after {} run) = (.error failure, s') →
      s'.database = (Session.after {} run).database := by
  intro atomic
  obtain ⟨failure, s', h, made⟩ := run_crossedType
  rw [atomic [] crossedType failure s' h] at made
  cases made

end Session

end Tabular
