import Tabular.Proofs.Schema.Resolving
import Tabular.Proofs.Session.Creating

/-! Whether every declared index is there after tables have been made. An index without a name of
its own takes one put together from table and column, and one that finds its name taken is left out
without an error. -/

namespace Tabular

open Database (TableIndex enter)

variable {type : RecordType} {conventions : Conventions} {rules : StorageRules} {p : Provider}
  {m : TableMapping}

/-- No index is declared with a name. -/
def RecordType.LeavesUnnamed (type : RecordType) (p : Provider) : Prop :=
  ∀ x ∈ type.stored p, ∀ d ∈ (p.facts x.1).indices, d.name = none

instance (type : RecordType) (p : Provider) : Decidable (type.LeavesUnnamed p) :=
  inferInstanceAs (Decidable (∀ x ∈ _, ∀ d ∈ _, _))

theorem RecordType.name_eq_none (h : type.LeavesUnnamed p) {d : ColumnIndex}
    (hd : d ∈ type.declarations conventions p) : d.declaration.name = none := by
  obtain ⟨x, hx, hd⟩ := List.mem_flatMap.1 hd
  obtain ⟨e, he, rfl⟩ := List.mem_map.1 hd
  unfold Member.indices at he
  split at he
  · rw [List.mem_singleton.1 he]
  · exact h x hx e he

namespace TableMapping

def entries (m : TableMapping) : List TableIndex := m.indices.map (·.on m.tableName)

/-- Each index has a column, and is named after the table and any of its columns. -/
def NamesByColumns (m : TableMapping) : Prop :=
  ∀ i ∈ m.indices, i.columns ≠ [] ∧ ∀ c ∈ i.columns, i.name = m.tableName ++ "_" ++ c

theorem namesByColumns_of_resolve (hm : TableMapping.resolve type conventions rules p = .ok m)
    (unnamed : type.LeavesUnnamed p) : m.NamesByColumns := by
  obtain ⟨columns, indices, _, _, hi, rfl⟩ := RecordType.resolve_eq_ok.1 hm
  rw [Index.group_eq] at hi
  split at hi <;> cases hi
  intro i hi
  obtain ⟨n, hn, rfl⟩ := List.mem_map.1 hi
  obtain ⟨d, hd, rfl⟩ := List.mem_map.1 (List.mem_eraseDups.1 hn)
  have members (e : ColumnIndex) : e ∈ ColumnIndex.named (p.table type) (d.name (p.table type))
      (type.declarations conventions p) ↔ e ∈ type.declarations conventions p ∧
        e.name (p.table type) = d.name (p.table type) := by
    simp [ColumnIndex.named]
  refine ⟨?_, fun c hc => ?_⟩
  · exact List.ne_nil_of_mem (List.mem_map_of_mem ((members d).2 ⟨hd, rfl⟩))
  · obtain ⟨e, he, rfl⟩ := List.mem_map.1 hc
    obtain ⟨he, same⟩ := (members e).1 he
    refine same.symm.trans ?_
    rw [ColumnIndex.name, RecordType.name_eq_none unnamed he]
    rfl

theorem NamesByColumns.name_eq (h : m.NamesByColumns) {i j : Index} (hi : i ∈ m.indices)
    (hj : j ∈ m.indices) (same : i.columns = j.columns) : i.name = j.name := by
  obtain ⟨c, hc⟩ := List.exists_mem_of_ne_nil _ (h i hi).1
  rw [(h i hi).2 c hc, (h j hj).2 c (same ▸ hc)]

end TableMapping

namespace Database

variable {db db' : Database} {ms : List TableMapping}

/-- The database has an index on the table with just these columns, and as unique as it is said to
be. -/
def Holds (db : Database) (m : TableMapping) (i : Index) : Prop :=
  ∃ x ∈ db.indices, x.table = m.tableName ∧ x.columns = i.columns ∧ x.unique = i.unique

theorem runEach_create_new (new : db.table? m.tableName = none)
    (h : db.runEach (m.createTable :: m.createIndices) = (.ok (), db')) :
    (∃ t, m.Makes t ∧ db'.tables = db.tables ++ [t]) ∧
      db'.indices = m.entries.foldl enter db.indices := by
  obtain ⟨effect, db₁, table, h⟩ | ⟨_, _, hr, _⟩ := (runEach_cons _).1 h
  · obtain ⟨t, ht, ⟨there, _⟩ | ⟨_, makes, rfl⟩⟩ := execute_createTable table
    · cases new.symm.trans there
    · rw [runEach_createIndices ht h, makes.name_eq]
      exact ⟨⟨t, makes, rfl⟩, rfl⟩
  · cases hr

theorem holds_iff (named : ∀ m ∈ ms, m.NamesByColumns)
    (distinct : ms.Pairwise fun m n => ¬ Text.sameName m.tableName n.tableName)
    (hi : db.indices = (ms.flatMap TableMapping.entries).foldl enter []) :
    (∀ m ∈ ms, ∀ i ∈ m.indices, db.Holds m i) ↔
      ∀ x ∈ ms.flatMap TableMapping.entries, ∀ y ∈ ms.flatMap TableMapping.entries,
        Text.sameName x.name y.name → x = y := by
  obtain ⟨made, last, from_entries, _⟩ :=
    exists_foldl_enter [] (ms.flatMap TableMapping.entries)
  rw [List.append_nil] at last
  constructor
  · intro held
    have kept : ∀ x ∈ ms.flatMap TableMapping.entries, x ∈ db.indices := by
      intro x hx
      obtain ⟨m, hm, hx⟩ := List.mem_flatMap.1 hx
      obtain ⟨i, hi', rfl⟩ := List.mem_map.1 hx
      obtain ⟨y, hy, table_eq, columns_eq, unique_eq⟩ := held m hm i hi'
      obtain ⟨m', hm', hy'⟩ := List.mem_flatMap.1 (from_entries y (last ▸ hi ▸ hy))
      obtain ⟨j, hj, rfl⟩ := List.mem_map.1 hy'
      -- Its table tells whose index it is, and its columns tell the name.
      obtain rfl : m' = m :=
        Text.eq_of_sameName distinct hm' hm (by rw [← table_eq]; exact BEq.rfl)
      have name_eq := (named m' hm).name_eq hj hi' columns_eq
      have same : j.on m'.tableName = i.on m'.tableName := by
        simp only [Index.on] at columns_eq unique_eq ⊢
        rw [name_eq, columns_eq, unique_eq]
      exact same ▸ hy
    intro x hx y hy same
    have unlike := pairwise_foldl_enter (ms.flatMap TableMapping.entries) .nil
    rw [← hi] at unlike
    exact Text.eq_of_sameName unlike (kept x hx) (kept y hy) same
  · intro free m hm i hi'
    have declared : i.on m.tableName ∈ ms.flatMap TableMapping.entries :=
      List.mem_flatMap.2 ⟨m, hm, List.mem_map_of_mem hi'⟩
    obtain ⟨y, hy, same⟩ := exists_sameName_foldl_enter [] declared
    rw [free y (from_entries y (last ▸ hy)) _ declared same] at hy
    exact ⟨_, hi ▸ hy, rfl, rfl, rfl⟩

theorem table?_eq_none_of_append {t : Table} {name : String}
    (added : db'.tables = db.tables ++ [t]) (new : db.table? name = none)
    (other : ¬ Text.sameName t.name name) : db'.table? name = none := by
  unfold table? at new ⊢
  rw [added, List.find?_append, new]
  simpa using other

end Database

namespace Session

variable {s s' s₀ : Session} {t u : RowType} {types : List RowType} {ms : List TableMapping}

def Maps (s : Session) (t : RowType) (m : TableMapping) : Prop :=
  TableMapping.resolve t.type s.options.conventions s.options.rules s.options.provider = .ok m

/-- If a mapping is kept for the type, it is the one that the settings give. -/
def Faithful (s : Session) (t : RowType) : Prop := ∀ m, s.cache.get? t = some m → s.Maps t m

theorem exists_run_mapping (h : s.Faithful t) (hm : s.Maps t m) :
    ∃ cache, s.cache.getOrResolve t s.options.conventions s.options.rules s.options.provider =
      .ok (m, cache) := by
  cases hg : s.cache.get? t with
  | some stored =>
    obtain rfl : stored = m := Except.ok.inj ((h stored hg).symm.trans hm)
    exact ⟨_, MappingCache.getOrResolve_of_get? hg⟩
  | none =>
    have resolved : TableMapping.resolve t.type s.options.conventions s.options.rules
      s.options.provider = .ok m := hm
    rw [MappingCache.getOrResolve, hg, resolved]
    refine ⟨⟨s.cache.entries ++ [(t.id, m)]⟩, ?_⟩
    simp only [MappingCache.store, hg]
    rfl

theorem createTable_eq_ok (hc : s.closed = false) (h : s.Faithful t) (hm : s.Maps t m)
    (run : (createTable t).run s = (.ok (), s')) :
    ∃ cache db, s' = { s with cache := cache, database := db } ∧
      s.database.runEach (m.createTable :: m.createIndices) = (.ok (), db) ∧
      cache.get? t = some m ∧ ∀ u : RowType, u.id ≠ t.id → cache.get? u = s.cache.get? u := by
  obtain ⟨cache, hcache⟩ := exists_run_mapping h hm
  have mapped : (mapping t).run s = (.ok m, { s with cache := cache }) := by
    rw [run_mapping, hcache]
  rw [run_createTable hc mapped] at run
  cases hr : s.database.runEach (m.createTable :: m.createIndices) with
  | mk r db =>
    rw [hr] at run
    cases r with
    | error refusal => cases run
    | ok =>
      cases run
      exact ⟨cache, db, rfl, rfl, MappingCache.get?_of_getOrResolve hcache,
        fun u other => MappingCache.get?_getOrResolve_of_ne hcache other⟩

theorem forM_createTable_eq_ok (hc : s.closed = false)
    (mapped : List.Forall₂ (fun t m => s.Faithful t ∧ s.Maps t m) types ms)
    (ids : types.Pairwise fun t u => t.id ≠ u.id)
    (new : ∀ m ∈ ms, s.database.table? m.tableName = none)
    (distinct : ms.Pairwise fun m n => ¬ Text.sameName m.tableName n.tableName)
    (run : (types.forM createTable).run s = (.ok (), s')) :
    s'.database.indices = (ms.flatMap TableMapping.entries).foldl enter s.database.indices := by
  induction types generalizing s ms with
  | nil =>
    cases mapped
    cases run
    rfl
  | cons t types ih =>
    cases mapped with
    | @cons _ m _ ms hm mapped =>
      obtain ⟨_, s₁, first, rest⟩ := run_bind_eq_ok.1 run
      obtain ⟨cache, db, rfl, made, _, cache_eq⟩ := createTable_eq_ok hc hm.1 hm.2 first
      obtain ⟨⟨u, makes, tables_eq⟩, indices_eq⟩ :=
        Database.runEach_create_new (new m (by simp)) made
      obtain ⟨other_ids, ids⟩ := List.pairwise_cons.1 ids
      obtain ⟨other_names, distinct⟩ := List.pairwise_cons.1 distinct
      let s₁ : Session := { s with cache, database := db }
      have later : List.Forall₂ (fun u n => s₁.Faithful u ∧ s₁.Maps u n) types ms := by
        refine ((List.forall₂_and_left _ _).2 ⟨other_ids, mapped⟩).imp ?_
        rintro v n ⟨other, faithful, maps⟩
        exact ⟨fun n' kept => faithful n' (cache_eq v other.symm ▸ kept), maps⟩
      have still_new : ∀ n ∈ ms, db.table? n.tableName = none := fun n hn =>
        Database.table?_eq_none_of_append tables_eq (new n (by simp [hn]))
          (makes.name_eq ▸ other_names n hn)
      rw [List.flatMap_cons, List.foldl_append, ← indices_eq]
      exact ih (s := s₁) hc later ids still_new distinct rest

theorem forM_createTable_holds_iff (hc : s.closed = false) (empty : s.database.content = {})
    (mapped : List.Forall₂ (fun t m => s.Faithful t ∧ s.Maps t m) types ms)
    (ids : types.Pairwise fun t u => t.id ≠ u.id)
    (distinct : ms.Pairwise fun m n => ¬ Text.sameName m.tableName n.tableName)
    (unnamed : ∀ t ∈ types, t.type.LeavesUnnamed s.options.provider)
    (run : (types.forM createTable).run s = (.ok (), s')) :
    (∀ m ∈ ms, ∀ i ∈ m.indices, s'.database.Holds m i) ↔
      ∀ x ∈ ms.flatMap TableMapping.entries, ∀ y ∈ ms.flatMap TableMapping.entries,
        Text.sameName x.name y.name → x = y := by
  have tables_nil : s.database.tables = [] := congrArg Database.tables empty
  have indices_nil : s.database.indices = [] := congrArg Database.indices empty
  have indices_eq := forM_createTable_eq_ok hc mapped ids (by simp [tables_nil, Database.table?])
    distinct run
  rw [indices_nil] at indices_eq
  have named : List.Forall₂ (fun _ m => TableMapping.NamesByColumns m) types ms :=
    ((List.forall₂_and_left _ _).2 ⟨unnamed, mapped⟩).imp fun t m h =>
      TableMapping.namesByColumns_of_resolve h.2.2 h.1
  refine Database.holds_iff (fun m hm => ?_) distinct indices_eq
  obtain ⟨_, _, h⟩ := exists_of_forall₂ named hm
  exact h

def userType : RowType where
  id := 0
  type := {
    name := "User"
    tableName := some "user"
    members := [
      { name := "id", kind := .int64, attributes := [.primaryKey] },
      { name := "group_code", kind := .text, attributes := [.indexed {}] }] }

def userGroupType : RowType where
  id := 1
  type := {
    name := "UserGroup"
    tableName := some "user_group"
    members := [
      { name := "id", kind := .int64, attributes := [.primaryKey] },
      { name := "code", kind := .text, attributes := [.indexed { unique := true }] }] }

def ticketType : RowType where
  id := 2
  type := {
    name := "Ticket"
    tableName := some "tickets"
    members := [
      { name := "id", kind := .int64, attributes := [.primaryKey] },
      { name := "code", kind := .text, attributes := [.indexed { unique := true }] }] }

theorem faithful_of_nil (t : RowType) : ({} : Session).Faithful t := nofun

theorem exists_maps {xs : List TableIndex}
    (h : (TableMapping.resolve t.type {} {} .attributes).toOption.map TableMapping.entries =
      some xs) : ∃ m, Maps {} t m ∧ m.tableName = t.type.table ∧ m.entries = xs := by
  unfold Maps
  cases hm : TableMapping.resolve t.type {} {} .attributes with
  | error fault =>
    rw [hm] at h
    cases h
  | ok m =>
    rw [hm] at h
    obtain ⟨_, _, _, _, _, rfl⟩ := RecordType.resolve_eq_ok.1 hm
    exact ⟨_, rfl, rfl, Option.some.inj h⟩

theorem forM_createTable_holds_iff_tickets : ∃ m n s',
    ([userType, ticketType].forM createTable).run {} = (.ok (), s') ∧
      m.entries = [⟨"user_group_code", "user", ["group_code"], false⟩] ∧
      n.entries = [⟨"tickets_code", "tickets", ["code"], true⟩] ∧
      (∀ i ∈ m.indices, s'.database.Holds m i) ∧ ∀ i ∈ n.indices, s'.database.Holds n i := by
  obtain ⟨m, hm, m_table, m_entries⟩ : ∃ m, Maps {} userType m ∧ m.tableName = "user" ∧
    m.entries = [⟨"user_group_code", "user", ["group_code"], false⟩] :=
      exists_maps (by decide +kernel)
  obtain ⟨n, hn, n_table, n_entries⟩ : ∃ n, Maps {} ticketType n ∧ n.tableName = "tickets" ∧
    n.entries = [⟨"tickets_code", "tickets", ["code"], true⟩] :=
      exists_maps (by decide +kernel)
  obtain ⟨_, s', run, _⟩ : ∃ a s', ([userType, ticketType].forM createTable).run {} = (.ok a, s') ∧
    s'.database.indices.map TableIndex.table = ["tickets", "user"] :=
      exists_run_eq_ok (by decide +kernel)
  have distinct : [m, n].Pairwise fun m n => ¬ Text.sameName m.tableName n.tableName := by
    simp only [List.pairwise_pair, m_table, n_table]
    decide +kernel
  have held := (forM_createTable_holds_iff rfl rfl
    (.cons ⟨faithful_of_nil _, hm⟩ (.cons ⟨faithful_of_nil _, hn⟩ .nil))
    (by decide) distinct (by decide +kernel) run).2 (by
      simp only [List.flatMap_cons, List.flatMap_nil, m_entries, n_entries]
      decide +kernel)
  exact ⟨m, n, s', run, m_entries, n_entries, held m (by simp), held n (by simp)⟩

theorem createTable_drops_index : ¬ ∀ (o : Options) (types : List RowType) (ms : List TableMapping)
    (s' : Session), List.Forall₂ (Maps { options := o }) types ms →
      (types.Pairwise fun t u => t.id ≠ u.id) →
      (ms.Pairwise fun m n => ¬ Text.sameName m.tableName n.tableName) →
      (∀ t ∈ types, t.type.LeavesUnnamed o.provider) →
      (types.forM createTable).run { options := o } = (.ok (), s') →
      ∀ m ∈ ms, ∀ i ∈ m.indices, s'.database.Holds m i := by
  intro complete
  obtain ⟨m, hm, m_table, m_entries⟩ : ∃ m, Maps {} userType m ∧ m.tableName = "user" ∧
    m.entries = [⟨"user_group_code", "user", ["group_code"], false⟩] :=
      exists_maps (by decide +kernel)
  obtain ⟨n, hn, n_table, n_entries⟩ : ∃ n, Maps {} userGroupType n ∧ n.tableName = "user_group" ∧
    n.entries = [⟨"user_group_code", "user_group", ["code"], true⟩] :=
      exists_maps (by decide +kernel)
  have distinct : [m, n].Pairwise fun m n => ¬ Text.sameName m.tableName n.tableName := by
    simp only [List.pairwise_pair, m_table, n_table]
    decide +kernel
  obtain ⟨_, s', run, made⟩ :
    ∃ a s', ([userType, userGroupType].forM createTable).run {} = (.ok a, s') ∧
      s'.database.indices.map TableIndex.table = ["user"] :=
        exists_run_eq_ok (by decide +kernel)
  obtain ⟨i, hi, _⟩ := List.mem_map.1 (n_entries ▸ List.mem_singleton.2 rfl :
    ⟨"user_group_code", "user_group", ["code"], true⟩ ∈ n.entries)
  obtain ⟨x, hx, table_eq, _⟩ := complete {} [userType, userGroupType] [m, n] s'
    (.cons hm (.cons hn .nil)) (by decide) distinct (by decide +kernel) run n (by simp) i hi
  have := List.mem_map_of_mem (f := TableIndex.table) hx
  rw [made, table_eq, n_table] at this
  revert this
  decide

end Session

end Tabular
