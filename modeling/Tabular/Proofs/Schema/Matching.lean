import Tabular.Proofs.Database.Conjunction
import Tabular.Proofs.Schema.Addressing
import Tabular.Proofs.Schema.Naming

namespace Tabular.TableMapping

open Database (Scope conjoined)
open Sql (Term keyTestText keyTokens namesIn?)

variable {m : TableMapping} {values : List Value} {filter stmt : Statement}

/-- Values for the first columns of a key, all of which can be arguments. -/
structure FitsKey (m : TableMapping) (values : List Value) : Prop where
  key : m.keys ≠ []
  some_value : values ≠ []
  length_le : values.length ≤ m.keys.length
  bound : ∀ v ∈ values, ∃ d, m.bind v = .ok d

/-- The condition that each of the columns has the value at the same place, and nothing besides. -/
structure Equates (m : TableMapping) (columns : List Column) (values : List Value)
    (filter : Statement) : Prop where
  some_column : columns ≠ []
  length_eq : columns.length = values.length
  args : List.Forall₂ (fun v d => m.bind v = .ok d) values filter.args
  names : namesIn? filter.sql.toList = some (columns.map Column.name)
  /-- The text is read as the equalities, joined by `and`, of columns and arguments in turn. -/
  read : ∃ t, (Sql.Lexer.read? filter.sql.toList).bind Term.ofTokens? = some t ∧
    conjoined t = Term.equalities 0 (columns.map Column.name) ∧
    ∀ s : Scope, s.fixed = [] → s.args = filter.args →
      s.meets t = s.table.hasAll (columns.map Column.name) filter.args

theorem keyTestText_map (cs : List Column) : keyTestText (cs.map Column.name) =
    " and ".intercalate (cs.map fun c => c.quotedName ++ " = ?") := by
  rw [keyTestText, List.map_map]
  rfl

theorem keyFilter_eq_ok_iff : m.keyFilter values = .ok filter ↔
    m.keys ≠ [] ∧ values ≠ [] ∧ values.length ≤ m.keys.length ∧
      values.mapM m.bind = .ok filter.args ∧
      filter.sql = keyTestText ((m.keys.take values.length).map Column.name) := by
  obtain ⟨sql, args⟩ := filter
  simp only [keyFilter, ite_throw_eq_ok, bind_eq_ok, pure, Except.pure, Except.ok.injEq,
    Statement.mk.injEq, keyTestText_map]
  constructor
  · rintro ⟨hk, hv, args, bound, rfl, rfl⟩
    simp only [List.isEmpty_iff, Bool.or_eq_true, decide_eq_true_eq, not_or, not_lt] at hk hv
    exact ⟨hk, hv.1, hv.2, bound, rfl⟩
  · rintro ⟨hk, hv, hl, bound, rfl⟩
    exact ⟨by simpa using hk, by simpa [hv] using hl, args, bound, rfl, rfl⟩

theorem exists_keyFilter_iff : (∃ filter, m.keyFilter values = .ok filter) ↔ m.FitsKey values := by
  simp only [keyFilter_eq_ok_iff]
  constructor
  · rintro ⟨filter, hk, hv, hl, bound, _⟩
    refine ⟨hk, hv, hl, fun v hm => ?_⟩
    obtain ⟨d, _, hd⟩ := exists_of_mapM_eq_ok bound v hm
    exact ⟨d, hd⟩
  · rintro ⟨hk, hv, hl, bound⟩
    obtain ⟨args, bound⟩ := exists_mapM_eq_ok bound
    exact ⟨⟨_, args⟩, hk, hv, hl, bound, rfl⟩

theorem equates_of_keyFilter (h : m.keyFilter values = .ok filter) :
    m.Equates (m.keys.take values.length) values filter := by
  obtain ⟨hk, hv, hl, bound, text⟩ := keyFilter_eq_ok_iff.1 h
  have length_eq : (m.keys.take values.length).length = values.length := List.length_take_of_le hl
  have some_column : m.keys.take values.length ≠ [] := by
    simpa [List.take_eq_nil_iff, hk] using hv
  have some_name : (m.keys.take values.length).map Column.name ≠ [] := by simpa using some_column
  obtain ⟨t, test⟩ := Term.exists_keyTest some_name
  refine ⟨some_column, length_eq, mapM_eq_ok.1 bound, ?_, t, ?_, Term.conjoined_keyTest test, ?_⟩
  · rw [text, keyTestText_map]
    exact namesIn?_keyTests _
  · rw [text, keyTestText, Sql.read?_equalities]
    exact Term.ofTokens?_keyTokens test
  · intro s free given
    have each : ((m.keys.take values.length).map Column.name).length = s.args.length := by
      rw [List.length_map, length_eq, given, (mapM_eq_ok.1 bound).length_eq]
    rw [← given]
    exact funext fun r => Database.meets_keyTest free test each

theorem deleteByKeys_eq_ok_iff : m.deleteByKeys values = .ok stmt ↔
    ∃ filter, m.keyFilter values = .ok filter ∧
      stmt = ⟨"delete from " ++ m.quotedName ++ " where " ++ filter.sql, filter.args⟩ := by
  simp only [deleteByKeys, bind_eq_ok, pure, Except.pure, Except.ok.injEq, eq_comm (b := stmt)]

theorem getByKeys_eq_ok_iff : m.getByKeys values = .ok stmt ↔
    values.length = m.keys.length ∧ ∃ filter, m.keyFilter values = .ok filter ∧
      stmt = ⟨"select * from " ++ m.quotedName ++ " where " ++ filter.sql, filter.args⟩ := by
  simp only [getByKeys, ite_throw_eq_ok, bind_eq_ok, pure, Except.pure, Except.ok.injEq,
    eq_comm (b := stmt)]
  constructor
  · rintro ⟨count, filter, h, made⟩
    have key := (keyFilter_eq_ok_iff.1 h).1
    exact ⟨by simpa [key] using count, filter, h, made⟩
  · rintro ⟨count, rest⟩
    exact ⟨by simp [count], rest⟩

section Faults

variable (m values)

theorem keyFilter_of_no_key (h : m.keys = []) :
    m.keyFilter values = .error (.noSingleKey m.tableName) := by
  rw [keyFilter, h]
  rfl

theorem keyFilter_of_count (h : m.keys ≠ []) (hc : values = [] ∨ m.keys.length < values.length) :
    m.keyFilter values = .error (.keyCount m.tableName m.keys.length values.length) := by
  rw [keyFilter, if_neg (by simpa using h), if_pos (by simpa using hc)]
  rfl

theorem getByKeys_of_count (h : m.keys ≠ []) (hc : values.length ≠ m.keys.length) :
    m.getByKeys values = .error (.keyCount m.tableName m.keys.length values.length) := by
  rw [getByKeys, if_pos (by simp [h, hc])]
  rfl

theorem getByKeys_of_no_key (h : m.keys = []) :
    m.getByKeys values = .error (.noSingleKey m.tableName) := by
  rw [getByKeys, if_neg (by simp [h]), keyFilter_of_no_key m values h]
  rfl

end Faults

theorem statements_equate_key (m : TableMapping) (values : List Value) :
    ((∃ stmt, m.deleteByKeys values = .ok stmt) ↔ m.FitsKey values) ∧
    (∀ stmt, m.deleteByKeys values = .ok stmt → ∃ condition,
      stmt.sql = "delete from " ++ m.quotedName ++ " where " ++ condition ∧
      m.Equates (m.keys.take values.length) values ⟨condition, stmt.args⟩) ∧
    ((∃ stmt, m.getByKeys values = .ok stmt) ↔
      m.FitsKey values ∧ values.length = m.keys.length) ∧
    (∀ stmt, m.getByKeys values = .ok stmt → ∃ condition,
      stmt.sql = "select * from " ++ m.quotedName ++ " where " ++ condition ∧
      m.deleteByKeys values =
        .ok ⟨"delete from " ++ m.quotedName ++ " where " ++ condition, stmt.args⟩) ∧
    (m.keys = [] →
      m.deleteByKeys values = .error (.noSingleKey m.tableName) ∧
      m.getByKeys values = .error (.noSingleKey m.tableName)) ∧
    (m.keys ≠ [] → (values = [] ∨ m.keys.length < values.length →
        m.deleteByKeys values = .error (.keyCount m.tableName m.keys.length values.length)) ∧
      (values.length ≠ m.keys.length →
        m.getByKeys values = .error (.keyCount m.tableName m.keys.length values.length))) := by
  have deletes (e : Fault) (h : m.keyFilter values = .error e) :
      m.deleteByKeys values = .error e := by
    rw [deleteByKeys, h]
    rfl
  refine ⟨?_, fun stmt h => ?_, ?_, fun stmt h => ?_, fun h => ?_, fun h => ⟨fun hc => ?_, ?_⟩⟩
  · rw [← exists_keyFilter_iff]
    simp [deleteByKeys_eq_ok_iff]
  · obtain ⟨filter, made, rfl⟩ := deleteByKeys_eq_ok_iff.1 h
    exact ⟨filter.sql, rfl, equates_of_keyFilter made⟩
  · rw [← exists_keyFilter_iff]
    simp [getByKeys_eq_ok_iff, and_comm]
  · obtain ⟨_, filter, made, rfl⟩ := getByKeys_eq_ok_iff.1 h
    exact ⟨filter.sql, rfl, deleteByKeys_eq_ok_iff.2 ⟨filter, made, rfl⟩⟩
  · exact ⟨deletes _ (keyFilter_of_no_key m values h), getByKeys_of_no_key m values h⟩
  · exact deletes _ (keyFilter_of_count m values h hc)
  · exact getByKeys_of_count m values h

def seats : TableMapping where
  typeName := "Seat"
  tableName := "seats"
  columns := [
    { name := "row", property := "Row", memberIndex := 0, kind := .text, storage := "text"
      nullable := false, primaryKey := true, autoIncrement := false
      collation := none, maxLength := none, default := none },
    { name := "guest", property := "Guest", memberIndex := 1, kind := .text, storage := "text"
      nullable := true, primaryKey := false, autoIncrement := false
      collation := none, maxLength := none, default := none },
    { name := "number", property := "Number", memberIndex := 2, kind := .int64, storage := "integer"
      nullable := false, primaryKey := true, autoIncrement := false
      collation := none, maxLength := none, default := none }]
  indices := []
  ticks := true

theorem statements_equate_key_seats :
    (∃ condition, seats.deleteByKeys [.text "a"] =
        .ok ⟨"delete from \"seats\" where " ++ condition, [.text "a"]⟩ ∧
      seats.Equates (seats.keys.take 1) [.text "a"] ⟨condition, [.text "a"]⟩) ∧
    seats.getByKeys [.text "a"] = .error (.keyCount "seats" 2 1) ∧
    (∃ condition, seats.getByKeys [.text "a", .int 2] =
        .ok ⟨"select * from \"seats\" where " ++ condition, [.text "a", .integer 2]⟩ ∧
      seats.Equates seats.keys [.text "a", .int 2] ⟨condition, [.text "a", .integer 2]⟩) ∧
    (¬ ∃ stmt, seats.deleteByKeys [.list []] = .ok stmt) ∧
    seats.getByKeys [.list []] = .error (.keyCount "seats" 2 1) := by
  have some_key : seats.keys ≠ [] := by simp [seats, keys]
  obtain ⟨_, equates, _, _, _, counts⟩ := statements_equate_key seats [.text "a"]
  obtain ⟨_, equates', _, finds, _⟩ := statements_equate_key seats [.text "a", .int 2]
  obtain ⟨fits, _, _, _, _, counts'⟩ := statements_equate_key seats [.list []]
  obtain ⟨⟨sql, _⟩, deleted, rfl⟩ : ∃ stmt, seats.deleteByKeys [.text "a"] = .ok stmt ∧
      stmt.args = [.text "a"] := ⟨_, by rfl, by rfl⟩
  obtain ⟨⟨sql', _⟩, found, rfl⟩ : ∃ stmt, seats.getByKeys [.text "a", .int 2] = .ok stmt ∧
      stmt.args = [.text "a", .integer 2] := ⟨_, by rfl, by rfl⟩
  obtain ⟨condition, rfl, equated⟩ := equates _ deleted
  obtain ⟨condition', rfl, deleted'⟩ := finds _ found
  obtain ⟨_, same, equated'⟩ := equates' _ deleted'
  refine ⟨⟨condition, deleted, equated⟩, (counts some_key).2 (by decide), ⟨condition', found, ?_⟩,
    fun ok => ?_, (counts' some_key).2 (by decide)⟩
  · obtain rfl := (String.append_right_inj _).1 same
    exact equated'
  · obtain ⟨d, hd⟩ := (fits.1 ok).bound _ List.mem_cons_self
    cases hd

end Tabular.TableMapping
