import Tabular.Proofs.Schema.Listing
import Tabular.Proofs.Session.Addressing

namespace Tabular.Session

open Database (Table)

variable {s s₀ : Session} {t : RowType} {m : TableMapping} {c : Column} {keys : List Value}
  {key : Value} {table : Table} {args : List Datum} {d : Datum}

def deleteEach (t : RowType) (keys : List Value) : Action Nat := do
  return (← keys.mapM (delete t)).sum

namespace Ready

variable (h : s.Ready t m)

include h

theorem run_deleteIn (some_key : keys ≠ []) : (deleteIn t keys).run s =
    match m.deleteIn keys with
    | .ok stmt => s.taking (s.database.execute stmt)
    | .error fault => (.error (.query fault), s) := by
  rw [deleteIn, if_neg (by simpa using some_key)]
  refine (run_bind_ok h.run_mapping _).trans ?_
  cases hs : m.deleteIn keys with
  | error fault => exact run_bind_error (run_ofQuery s _) _
  | ok stmt => exact (run_bind_ok (run_ofQuery s _) _).trans (run_execute h.isOpen stmt)

variable (hk : m.keys = [c])

include hk

section Legible

variable (legible : Sql.IsLegible m.tableName c.name)
  (ht : s.database.table? m.tableName = some table)

include legible ht

theorem run_deleteIn_keys (some_key : keys ≠ []) (few : keys.length ≤ Database.greatestArguments)
    (hv : keys.mapM m.bind = .ok args) : (deleteIn t keys).run s =
      s.taking (s.database.deleteWhere table (table.hasAny c.name args)) := by
  obtain ⟨sql, built, text, _⟩ := TableMapping.exists_deleteIn hk hv
  have count := (mapM_eq_ok.1 hv).length_eq
  have some_arg : args ≠ [] := by
    rwa [← List.length_pos_iff, ← count, List.length_pos_iff]
  have deleted := Database.delete_among c.name some_arg (count ▸ few) ht
  rw [h.run_deleteIn some_key, built]
  dsimp only
  rw [Database.execute, text legible]
  dsimp only
  rw [deleted]

theorem run_delete_key (hv : m.bind key = .ok d) : (delete t key).run s =
    s.taking (s.database.deleteWhere table (table.hasAny c.name [d])) := by
  obtain ⟨sql, built, text, _⟩ := TableMapping.exists_delete hk hv
  rw [delete, h.run_deleteByKeys built, Database.execute, text legible]
  dsimp only
  rw [Database.delete_equality ht]

end Legible

theorem run_delete_of_free (legible : Sql.IsLegible m.tableName c.name)
    (ht : s.database.table? m.tableName = some table)
    (free : s.database.referencesTo m.tableName = [])
    (targets : s.database.checkTargets table = .ok ()) (hv : m.bind key = .ok d) :
    (delete t key).run s = (.ok (table.countAny c.name [d]),
      { s with database := s.database.replace (table.without c.name [d]) }) := by
  rw [h.run_delete_key hk legible ht hv, Database.deleteWhere_of_free ht free, targets]
  rfl

theorem run_deleteIn_of_free (legible : Sql.IsLegible m.tableName c.name)
    (ht : s.database.table? m.tableName = some table)
    (free : s.database.referencesTo m.tableName = [])
    (targets : s.database.checkTargets table = .ok ()) (some_key : keys ≠ [])
    (few : keys.length ≤ Database.greatestArguments) (hv : keys.mapM m.bind = .ok args) :
    (deleteIn t keys).run s = (.ok (table.countAny c.name args),
      { s with database := s.database.replace (table.without c.name args) }) := by
  rw [h.run_deleteIn_keys hk legible ht some_key few hv, Database.deleteWhere_of_free ht free,
    targets]
  rfl

theorem run_each (legible : Sql.IsLegible m.tableName c.name)
    (ht : s.database.table? m.tableName = some table)
    (free : s.database.referencesTo m.tableName = [])
    (targets : s.database.checkTargets table = .ok ())
    (hv : List.Forall₂ (fun k d => m.bind k = .ok d) (key :: keys) (d :: args)) :
    ∃ ns, ((key :: keys).mapM (delete t)).run s =
        (.ok ns, { s with database := s.database.replace (table.without c.name (d :: args)) }) ∧
      ns.sum = table.countAny c.name (d :: args) := by
  induction keys generalizing key d args s table with
  | nil =>
    obtain _ | ⟨hd, _ | _⟩ := hv
    have only := h.run_delete_of_free hk legible ht free targets hd
    exact ⟨_, run_mapM_cons only rfl, by simp⟩
  | cons key' keys ih =>
    obtain _ | ⟨hd, _ | ⟨hd', rest⟩⟩ := hv
    next d' args =>
    have first := h.run_delete_of_free hk legible ht free targets hd
    have change := table.change_without c.name [d]
    have left := Database.table?_without ht c.name [d]
    have still_free :=
      Database.referencesTo_replace (Database.mem_tables_of_table? ht) change free
    have still_there := (Database.checkTargets_replace ht change).trans targets
    obtain ⟨ns, run, sum⟩ :=
      ih (h.with_database _) left still_free still_there (.cons hd' rest)
    have last := run_mapM_cons first run
    rw [Table.without_without] at last
    have same := s.database.replace_replace (t := table.without c.name [d])
      (u := table.without c.name (d :: d' :: args)) rfl
    refine ⟨table.countAny c.name [d] :: ns, ?_, ?_⟩
    · rw [← same]
      exact last
    · rw [List.sum_cons, sum, ← Table.countAny_cons]

omit h hk in
theorem run_each_refused {failure : Failure}
    (refused : (delete t key).run s = (.error failure, s)) (keys : List Value) :
    ((key :: keys).mapM (delete t)).run s = (.error failure, s) := by
  rw [List.mapM_cons]
  exact run_bind_error refused _

section Illegible

variable (illegible : ¬ Sql.IsLegible m.tableName c.name)

include illegible

theorem run_deleteIn_illegible (some_key : keys ≠ []) (hv : keys.mapM m.bind = .ok args) :
    (deleteIn t keys).run s = (.error (.refused .invalid), s) := by
  obtain ⟨sql, built, _, unread⟩ := TableMapping.exists_deleteIn hk hv
  rw [h.run_deleteIn some_key, built]
  dsimp only
  rw [Database.execute, unread illegible]
  rfl

theorem run_delete_illegible (hv : m.bind key = .ok d) :
    (delete t key).run s = (.error (.refused .invalid), s) := by
  obtain ⟨sql, built, _, unread⟩ := TableMapping.exists_delete hk hv
  rw [delete, h.run_deleteByKeys built, Database.execute, unread illegible]
  rfl

end Illegible

theorem deleteIn_eq_deleteEach (ht : s.database.table? m.tableName = some table)
    (free : s.database.referencesTo m.tableName = [])
    (few : keys.length ≤ Database.greatestArguments) (hv : keys.mapM m.bind = .ok args) :
    (deleteIn t keys).run s = (deleteEach t keys).run s := by
  cases keys with
  | nil => rfl
  | cons key keys =>
    cases mapM_eq_ok.1 hv with
    | cons hd rest =>
    have some_key := List.cons_ne_nil key keys
    by_cases legible : Sql.IsLegible m.tableName c.name
    · cases targets : s.database.checkTargets table with
      | ok =>
        obtain ⟨ns, run, sum⟩ := h.run_each hk legible ht free targets (.cons hd rest)
        rw [h.run_deleteIn_of_free hk legible ht free targets some_key few hv, ← sum]
        exact (run_bind_ok run fun ns => pure ns.sum).symm
      | error refusal =>
        have listed := h.run_deleteIn_keys hk legible ht some_key few hv
        have first := h.run_delete_key hk legible ht hd
        rw [Database.deleteWhere_of_free ht free, targets] at first listed
        exact listed.trans (run_bind_error (run_each_refused first keys) fun ns => pure ns.sum).symm
    · have first := h.run_delete_illegible hk legible hd
      rw [h.run_deleteIn_illegible hk legible some_key hv]
      exact (run_bind_error (run_each_refused first keys) fun ns => pure ns.sum).symm

end Ready

section FirstUse

variable (hc : s.closed = false) (hm : (mapping t).run s = (.ok m, s₀))

include hc hm

theorem run_deleteIn_of_kept (some_key : keys ≠ []) :
    (deleteIn t keys).run s = (deleteIn t keys).run s₀ := by
  rw [deleteIn, if_neg (by simpa using some_key)]
  exact run_bind_congr (run_mapping_of_kept hc hm) _

theorem run_each_of_kept (some_key : keys ≠ []) :
    (keys.mapM (delete t)).run s = (keys.mapM (delete t)).run s₀ := by
  obtain ⟨key, keys, rfl⟩ := List.exists_cons_of_ne_nil some_key
  exact run_mapM_cons_congr (run_bind_congr (run_mapping_of_kept hc hm) _)

end FirstUse

theorem deleteIn_deletes_each (hc : s.closed = false) (hm : (mapping t).run s = (.ok m, s₀))
    (hk : m.keys = [c]) (ht : s.database.table? m.tableName = some table)
    (free : s.database.referencesTo m.tableName = [])
    (few : keys.length ≤ Database.greatestArguments) :
    (∀ args, keys.mapM m.bind = .ok args →
      (deleteIn t keys).run s = (deleteEach t keys).run s ∧
      (Sql.IsLegible m.tableName c.name → s.database.checkTargets table = .ok () → ∃ ns s',
        (keys.mapM (delete t)).run s = (.ok ns, s') ∧
        (deleteIn t keys).run s = (.ok ns.sum, s') ∧
        ns.sum = table.countAny c.name args ∧
        s'.database.table? m.tableName = some (table.without c.name args))) ∧
    ∀ fault, keys.mapM m.bind = .error fault →
      (deleteIn t keys).run s = (.error (.query fault), s₀) ∧ s₀.database = s.database := by
  obtain ⟨ready, same⟩ := Ready.of_mapping hc hm
  have stored : s₀.database = s.database := by rw [same]
  rw [← stored] at ht free ⊢
  cases keys with
  -- Without keys nobody asks for the mapping, and otherwise the first key has it kept.
  | nil =>
    refine ⟨fun args hv => ⟨rfl, fun _ _ => ?_⟩, nofun⟩
    obtain rfl : [] = args := Except.ok.inj hv
    refine ⟨[], s, rfl, rfl, (table.countAny_nil c.name).symm, ?_⟩
    rw [Table.without_nil, ← stored, ht]
  | cons key keys =>
    have some_key := List.cons_ne_nil key keys
    have each := run_each_of_kept hc hm some_key
    rw [run_deleteIn_of_kept hc hm some_key, each]
    refine ⟨fun args hv => ⟨?_, fun legible targets => ?_⟩, fun fault hv => ⟨?_, rfl⟩⟩
    · refine (ready.deleteIn_eq_deleteEach hk ht free few hv).trans ?_
      exact (run_bind_congr each fun ns => pure ns.sum).symm
    · cases mapM_eq_ok.1 hv with
      | cons hd rest =>
      obtain ⟨ns, run, sum⟩ := ready.run_each hk legible ht free targets (.cons hd rest)
      refine ⟨ns, _, run, ?_, sum, Database.table?_without ht c.name _⟩
      rw [ready.run_deleteIn_of_free hk legible ht free targets some_key few hv, sum]
    · rw [ready.run_deleteIn some_key, TableMapping.deleteIn_eq_error hk hv]

theorem deleteIn_deletes_notes : ∃ m s₀ c table ns s',
    (mapping noteType).run notebook = (.ok m, s₀) ∧ m.keys = [c] ∧
    notebook.database.table? m.tableName = some table ∧
    [.text "2", .int 2, .null, .int 7].mapM m.bind =
      .ok [.text "2", .integer 2, .null, .integer 7] ∧
    ([.text "2", .int 2, .null, .int 7].mapM (delete noteType)).run notebook = (.ok ns, s') ∧
    (deleteIn noteType [.text "2", .int 2, .null, .int 7]).run notebook = (.ok 1, s') ∧
    (s'.database.table? "notes").map Table.rows = some [⟨1, [.integer 1, .text "a"]⟩] := by
  obtain ⟨m, s₀, c, hm, hk, hn, hc, bound⟩ : ∃ m s₀ c,
      (mapping noteType).run notebook = (.ok m, s₀) ∧ m.keys = [c] ∧
      m.tableName = "notes" ∧ c.name = "id" ∧
      [.text "2", .int 2, .null, .int 7].mapM m.bind =
        .ok [.text "2", .integer 2, .null, .integer 7] :=
    ⟨_, _, _, by rfl, by rfl, by rfl, by rfl, by rfl⟩
  have ht : notebook.database.table? m.tableName = some notebook.database.tables[0] := by
    rw [hn]
    rfl
  have legible : Sql.IsLegible m.tableName c.name := by
    rw [hn, hc]
    exact ⟨by decide, by decide⟩
  have free : notebook.database.referencesTo m.tableName = [] := by rw [hn]; decide
  have listed := (deleteIn_deletes_each rfl hm hk ht free (Nat.le_of_ble_eq_true rfl)).1 _ bound
  obtain ⟨ns, s', each, run, sum, left⟩ := listed.2 legible rfl
  have one : notebook.database.tables[0].countAny "id" [.text "2", .integer 2, .null, .integer 7] =
      1 := by decide +kernel
  rw [hc] at sum left
  rw [sum, one] at run
  refine ⟨m, s₀, c, _, ns, s', hm, hk, ht, bound, each, run, ?_⟩
  rw [← hn, left]
  decide +kernel

def linkType : RowType where
  id := 0
  type := {
    name := "Link"
    tableName := some "links"
    members := [
      { name := "id", kind := .int64, attributes := [.primaryKey] },
      { name := "next", kind := .int64
        attributes := [.collation "binary references \"links\""] }] }

def chain : Session where
  database := { tables := [{
    name := "links"
    columns := [
      { name := "id", affinity := .integer, collation := .binary, notNull := true, default := .null
        width := 1 },
      { name := "next", affinity := .integer, collation := .binary, notNull := false
        default := .null, references := [{ table := "links" }], width := 1 }]
    rowId := some 0
    key := []
    numbered := false
    rows := [⟨1, [.integer 1, .null]⟩, ⟨2, [.integer 2, .integer 1]⟩] }] }

/-- A link goes together with the one that refers to it, and not before it. -/
theorem deleteIn_deletes_together : ¬ ∀ (s s₀ : Session) (t : RowType) (m : TableMapping)
    (c : Column) (table : Table) (keys : List Value) (args : List Datum),
      s.closed = false → (mapping t).run s = (.ok m, s₀) → m.keys = [c] →
      s.database.table? m.tableName = some table → keys.mapM m.bind = .ok args →
      (deleteIn t keys).run s = (deleteEach t keys).run s := by
  intro alike
  obtain ⟨m, s₀, c, hm, hk, hn, hc, bound⟩ : ∃ m s₀ c,
      (mapping linkType).run chain = (.ok m, s₀) ∧ m.keys = [c] ∧ m.tableName = "links" ∧
      c.name = "id" ∧ [Value.int 1, .int 2].mapM m.bind = .ok [.integer 1, .integer 2] :=
    ⟨_, _, _, by rfl, by rfl, by rfl, by rfl, by rfl⟩
  obtain ⟨ready, same⟩ := Ready.of_mapping rfl hm
  have ht : s₀.database.table? m.tableName = some chain.database.tables[0] := by
    rw [same, hn]
    rfl
  have legible : Sql.IsLegible m.tableName c.name := by
    rw [hn, hc]
    exact ⟨by decide, by decide⟩
  have together : s₀.database.deleteWhere chain.database.tables[0]
      (chain.database.tables[0].hasAny c.name [.integer 1, .integer 2]) =
      .ok (2, s₀.database.replace (chain.database.tables[0].without c.name
        [.integer 1, .integer 2])) := by
    rw [same, hc]
    rfl
  have alone : s₀.database.deleteWhere chain.database.tables[0]
      (chain.database.tables[0].hasAny c.name [.integer 1]) = .error .foreignKey := by
    rw [same, hc]
    rfl
  cases mapM_eq_ok.1 bound with
  | cons bound_one _ =>
  have both := ready.run_deleteIn_keys hk legible ht (by simp) (by decide) bound
  have first := ready.run_delete_key hk legible ht bound_one
  rw [together] at both
  rw [alone] at first
  have each :=
    run_bind_error (Ready.run_each_refused first [.int 2]) fun ns : List Nat => pure ns.sum
  have same := alike s₀ s₀ linkType m c _ _ _ ready.isOpen ready.run_mapping hk ht bound
  rw [both] at same
  cases same.trans each

end Tabular.Session
