import Tabular.Proofs.Database.Keys
import Tabular.Proofs.Schema.Caching
import Tabular.Proofs.Schema.Making
import Tabular.Proofs.Session.Counting

namespace Tabular

namespace Sql

open Lexer (Completes read? read?_append read?_quoteIdentifier)

theorem Command.insert?_eq_some {table : String} {ts : List Token} {cmd : Command}
    (h : Command.insert? table ts = some cmd) : ∃ columns, cmd = .insert table columns := by
  unfold insert? at h
  split at h
  · cases h
    exact ⟨[], rfl⟩
  · simp only [Option.bind_eq_bind, Option.bind_eq_some_iff] at h
    obtain ⟨⟨columns, rest⟩, _, h⟩ := h
    dsimp only at h
    split at h
    · obtain ⟨_, _, h⟩ := Option.bind_eq_some_iff.1 h
      split at h <;> cases h
      exact ⟨columns, rfl⟩
    · cases h
  · cases h

theorem Command.ofText?_insertInto {table text : String} {cmd : Command}
    (h : Command.ofText? ("insert into " ++ (quoteIdentifier table ++ (" " ++ text))) = some cmd) :
    ∃ columns, cmd = .insert table columns := by
  have start : Completes "insert into ".toList [.word "insert", .word "into"] := by decide
  obtain ⟨ks, hk, hc⟩ := Option.bind_eq_some_iff.1 h
  rw [tokens?_append start (by decide)] at hk
  obtain ⟨ls, hl, rfl⟩ := Option.map_eq_some_iff.1 hk
  have named := read?_append (read?_quoteIdentifier table) (c := ' ') rfl text.toList
  have read := (tokens?_eq_some.1 hl).2
  rw [String.toList_append, String.toList_append] at read
  obtain ⟨ms, _, rfl⟩ := Option.map_eq_some_iff.1 (named.symm.trans read)
  exact Command.insert?_eq_some hc

end Sql

theorem TableMapping.command_insert {m : TableMapping} {values : List Value} {stmt : Statement}
    {cmd : Sql.Command} (hs : m.insert values = .ok stmt)
    (h : Sql.Command.ofText? stmt.sql = some cmd) :
    ∃ columns, cmd = .insert m.tableName columns := by
  obtain ⟨args, _, built⟩ := bind_eq_ok.1 hs
  cases built
  have text : ∃ text, "insert into " ++ m.quotedName ++
      (if m.inserted.isEmpty then " default values"
        else " (" ++ ", ".intercalate (m.inserted.map Column.quotedName) ++ ") values (" ++
          placeholders ", " m.inserted.length ++ ")") =
      "insert into " ++ (quoteIdentifier m.tableName ++ (" " ++ text)) := by
    cases m.inserted.isEmpty with
    | true => exact ⟨"default values", String.append_assoc ..⟩
    | false =>
      refine ⟨"(" ++ (", ".intercalate (m.inserted.map Column.quotedName) ++ ") values (" ++
        placeholders ", " m.inserted.length ++ ")"), ?_⟩
      simp only [String.append_assoc, quotedName]
      rfl
  obtain ⟨text, same⟩ := text
  exact Sql.Command.ofText?_insertInto (same ▸ h)

namespace Database

variable {db db' db'' : Database} {m : TableMapping} {t t' : Table} {stmts : List Statement}
  {n k n' k' : Nat}

/-- Of a number of rows that are given to a table it takes so many, and all of them unless it
ignores rows. -/
structure Grows (m : TableMapping) (db db' : Database) (n k : Nat) : Prop where
  most : n ≤ k
  table : ∀ {t}, db.table? m.tableName = some t → ∃ t', db'.table? m.tableName = some t' ∧
    t'.columns = t.columns ∧ t'.rows.length = t.rows.length + n ∧
    ((∀ c ∈ t.columns, c.onNull ≠ .ignore) → n = k)

theorem Grows.refl (m : TableMapping) (db : Database) : Grows m db db 0 0 :=
  ⟨Nat.le_refl 0, fun ht => ⟨_, ht, rfl, rfl, fun _ => rfl⟩⟩

theorem Grows.trans (h : Grows m db db' n k) (h' : Grows m db' db'' n' k') :
    Grows m db db'' (n + n') (k + k') := by
  refine ⟨Nat.add_le_add h.most h'.most, fun ht => ?_⟩
  obtain ⟨t', ht', columns, length, all⟩ := h.table ht
  obtain ⟨t'', ht'', columns', length', all'⟩ := h'.table ht'
  refine ⟨t'', ht'', columns'.trans columns, by omega, fun strict => ?_⟩
  rw [all strict, all' (columns ▸ strict)]

end Database

namespace Session

variable {s s' : Session} {t : RowType} {m : TableMapping} {values : List Value}
  {rows : List (List Value)}

theorem executeAll_cons_eq_ok {db db' : Database} {stmt : Statement} {stmts : List Statement}
    {n : Nat} : executeAll db (stmt :: stmts) = (.ok n, db') ↔ ∃ k db₁ j,
      db.execute stmt = .ok (k, db₁) ∧ executeAll db₁ stmts = (.ok j, db') ∧ k + j = n := by
  rw [executeAll]
  cases he : db.execute stmt with
  | error refusal => simp
  | ok r =>
    obtain ⟨k, db₁⟩ := r
    rcases all : executeAll db₁ stmts with ⟨refusal | j, db₂⟩
    · simp [all, Except.map]
    · simp [all, Except.map, and_comm]

theorem run_mapping (s : Session) (t : RowType) : (mapping t).run s =
    match s.cache.getOrResolve t s.options.conventions s.options.rules s.options.provider with
    | .ok (m, cache) => (.ok m, { s with cache := cache })
    | .error fault => (.error (.query fault), s) := by
  refine (run_get_bind s _).trans ?_
  dsimp only
  cases h : s.cache.getOrResolve t s.options.conventions s.options.rules s.options.provider with
  | error fault => exact run_bind_error (run_ofQuery s _) _
  | ok r => exact run_bind_ok (run_ofQuery s _) _

/-- The session takes over what a statement makes of the database. -/
def taking (s : Session) : Except Database.Refusal (Nat × Database) → Except Failure Nat × Session
  | .ok (n, db) => (.ok n, { s with database := db })
  | .error refusal => (.error (.refused refusal), s)

theorem run_execute (hc : s.closed = false) (stmt : Statement) :
    (execute stmt).run s = s.taking (s.database.execute stmt) := by
  refine (run_get_bind s _).trans ?_
  dsimp only
  rw [if_neg (Bool.eq_false_iff.1 hc)]
  rcases s.database.execute stmt with refusal | ⟨n, db⟩ <;> rfl

theorem run_transaction (hc : s.closed = false) (stmts : List Statement) :
    (transaction stmts).run s =
      match executeAll s.database stmts with
      | (.ok n, db) => (.ok n, { s with database := db })
      | (.error refusal, db) => (.error (.refused refusal),
          { s with database := { s.database with lastId := db.lastId } }) := by
  refine (run_get_bind s _).trans ?_
  simp only [hc]
  rcases executeAll s.database stmts with ⟨refusal | n, db⟩ <;> rfl

structure Ready (s : Session) (t : RowType) (m : TableMapping) : Prop where
  isOpen : s.closed = false
  kept : s.cache.get? t = some m

theorem Ready.of_mapping {s₀ : Session} (hc : s.closed = false)
    (hm : (mapping t).run s = (.ok m, s₀)) :
    s₀.Ready t m ∧ s₀ = { s with cache := s₀.cache } := by
  rw [run_mapping] at hm
  split at hm <;> cases hm
  next h => exact ⟨⟨hc, MappingCache.get?_of_getOrResolve h⟩, rfl⟩

namespace Ready

variable (h : s.Ready t m)

include h

theorem with_database (db : Database) : ({ s with database := db } : Session).Ready t m :=
  ⟨h.isOpen, h.kept⟩

theorem run_mapping : (mapping t).run s = (.ok m, s) := by
  rw [Session.run_mapping, MappingCache.getOrResolve_of_get? h.kept]

theorem run_insert (values : List Value) : (insert t values).run s =
    match m.insert values with
    | .ok stmt =>
      match s.database.execute stmt with
      | .ok (_, db) => (.ok db.lastId, { s with database := db })
      | .error refusal => (.error (.refused refusal), s)
    | .error fault => (.error (.query fault), s) := by
  refine (run_bind_ok h.run_mapping _).trans ?_
  cases hs : m.insert values with
  | error fault => exact run_bind_error (run_ofQuery s _) _
  | ok stmt =>
    refine (run_bind_ok (run_ofQuery s _) _).trans ?_
    have run := run_execute h.isOpen stmt
    dsimp only
    cases he : s.database.execute stmt with
    | error refusal =>
      rw [he] at run
      exact run_bind_error run _
    | ok r =>
      rw [he] at run
      exact run_bind_ok run _

theorem insert_eq_ok {values : List Value} {id : Int64} :
    (insert t values).run s = (.ok id, s') ↔ ∃ stmt n db, m.insert values = .ok stmt ∧
      s.database.execute stmt = .ok (n, db) ∧ db.lastId = id ∧
      { s with database := db } = s' := by
  rw [h.run_insert]
  constructor
  · intro run
    split at run
    next stmt hs =>
      split at run <;> cases run
      next n db he => exact ⟨stmt, n, db, hs, he, rfl, rfl⟩
    next => cases run
  · rintro ⟨stmt, n, db, hs, he, rfl, rfl⟩
    simp only [hs, he]

end Ready

section FirstUse

variable {s₀ : Session} (hc : s.closed = false) (hm : (mapping t).run s = (.ok m, s₀))

include hc hm

theorem run_mapping_of_kept : (mapping t).run s = (mapping t).run s₀ :=
  hm.trans (Ready.of_mapping hc hm).1.run_mapping.symm

end FirstUse

def noteType : RowType where
  id := 0
  type := {
    name := "Note"
    tableName := some "notes"
    members := [
      { name := "id", kind := .int64, attributes := [.primaryKey] },
      { name := "title", kind := .text }] }

end Session

end Tabular
