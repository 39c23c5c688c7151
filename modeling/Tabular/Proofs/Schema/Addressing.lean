import Tabular.Proofs.Query.Equality
import Tabular.Proofs.Schema.Keying
import Tabular.Proofs.Sql.Conjunction

namespace Tabular

open Sql (Command Term Token keyTokens tokens? tokens?_eq_some)
open Sql.Lexer (Completes read? read?_join read?_quoteIdentifier)

theorem Text.mem_intercalate {α : Type} {sep : List α} {items : List (List α)} {a : α}
    (hs : a ∉ sep) : a ∈ sep.intercalate items ↔ ∃ xs ∈ items, a ∈ xs := by
  induction items with
  | nil => simp
  | cons xs items ih =>
    cases items with
    | nil => simp
    | cons ys items =>
      rw [List.intercalate_cons_cons, List.mem_append, List.mem_append, ih]
      simp [hs]

namespace Sql

def keyTestText (names : List String) : String :=
  " and ".intercalate (names.map fun n => quoteIdentifier n ++ " = ?")

variable {table condition : String} {names : List String} {ks : List Token} {t : Term}

theorem tokens?_where (ht : '\x00' ∉ table.toList) (hc : tokens? condition = some ks) :
    tokens? (quoteIdentifier table ++ (" where " ++ condition)) =
      some (.name table :: .word "where" :: ks) := by
  obtain ⟨whole, read⟩ := tokens?_eq_some.1 hc
  have sep : Completes " where ".toList [.word "where"] := by decide
  have joined := read?_join sep rfl (read?_quoteIdentifier table) read
  refine tokens?_eq_some.2 ⟨?_, ?_⟩
  · simp [mem_quoteIdentifier (c := '\x00') (by decide), ht, whole]
  · rw [String.toList_append, String.toList_append]
    exact joined

theorem Command.ofText?_deleteWhere (ht : '\x00' ∉ table.toList) (hc : tokens? condition = some ks)
    (h : condition? (.word "where" :: ks) = some (some t, [])) :
    Command.ofText? ("delete from " ++ (quoteIdentifier table ++ (" where " ++ condition))) =
      some (.delete table (some t)) := by
  have start : Completes "delete from ".toList [.word "delete", .word "from"] := by decide
  rw [ofText?, tokens?_append start (by decide), tokens?_where ht hc, Option.map_some,
    Option.bind_some]
  show (condition? (.word "where" :: ks)).bind _ = _
  rw [h]
  rfl

theorem tokens?_keyTestText (hn : ∀ n ∈ names, '\x00' ∉ n.toList) :
    tokens? (keyTestText names) = some (keyTokens names) := by
  refine tokens?_eq_some.2 ⟨?_, read?_equalities names⟩
  unfold keyTestText
  rw [String.toList_intercalate, Text.mem_intercalate (by decide)]
  simpa [mem_quoteIdentifier (c := '\x00') (by decide)] using hn

theorem Command.ofText?_delete (ht : '\x00' ∉ table.toList) (hn : ∀ n ∈ names, '\x00' ∉ n.toList)
    (h : Term.keyTest names = some t) :
    Command.ofText? ("delete from " ++
        (quoteIdentifier table ++ (" where " ++ keyTestText names))) =
      some (.delete table (some t)) :=
  ofText?_deleteWhere ht (tokens?_keyTestText hn) (condition?_keyTokens h)

theorem Command.ofText?_get (ht : '\x00' ∉ table.toList) (hn : ∀ n ∈ names, '\x00' ∉ n.toList)
    (h : Term.keyTest names = some t) :
    Command.ofText? ("select " ++ "*" ++ " from " ++
        (quoteIdentifier table ++ (" where " ++ keyTestText names))) =
      some (.select .all table (some t) [] {}) := by
  have source : source? (.name table :: .word "where" :: keyTokens names) =
      some ⟨table, some t, [], {}⟩ :=
    source?_eq_some.2 ⟨_, [], [], rfl, condition?_keyTokens h, rfl, rfl⟩
  rw [ofText?_all, tokens?_where ht (tokens?_keyTestText hn), Option.bind_some, source]
  rfl

end Sql

namespace TableMapping

variable {m : TableMapping} {values : List Value} {args : List Datum} {cmd : Command} {t : Term}

def keyNames (m : TableMapping) : List String := m.keys.map Column.name

theorem keyTest_keyNames (hk : m.keys ≠ []) : ∃ t, Term.keyTest m.keyNames = some t :=
  Term.exists_keyTest (by simpa [keyNames] using hk)

theorem nul_not_mem_of_createTable (h : Command.ofText? m.createTable = some cmd) :
    '\x00' ∉ m.tableName.toList ∧ ∀ c ∈ m.columns, '\x00' ∉ c.name.toList := by
  obtain ⟨_, hk, _⟩ := Option.bind_eq_some_iff.1 h
  have whole := (tokens?_eq_some.1 hk).1
  have text : m.createTable.toList = "create table if not exists ".toList ++
      ((quoteIdentifier m.tableName).toList ++ (" (".toList ++
        (", ".toList.intercalate (m.lines.map String.toList) ++ ")".toList))) := by
    have body : m.createTable = "create table if not exists " ++ quoteIdentifier m.tableName ++
        " (" ++ ", ".intercalate m.lines ++ ")" := rfl
    rw [body]
    repeat rw [String.toList_append]
    simp only [String.toList_intercalate, List.append_assoc]
  have quoted (n : String) (inside : '\x00' ∈ n.toList) : '\x00' ∈ (quoteIdentifier n).toList :=
    (mem_quoteIdentifier (c := '\x00') (by decide) n).2 inside
  simp only [text, List.mem_append, not_or] at whole
  obtain ⟨_, table, _, columns, _⟩ := whole
  refine ⟨fun inside => table (quoted _ inside), fun c hc inside => ?_⟩
  have line : c.declaration.toList ∈ m.lines.map String.toList :=
    List.mem_map_of_mem (List.mem_append_left _ (List.mem_map_of_mem hc))
  obtain ⟨cs, declaration⟩ := c.toList_declaration
  refine columns ((Text.mem_intercalate (by decide)).2 ⟨_, line, ?_⟩)
  rw [declaration]
  exact List.mem_append_left _ (quoted _ inside)

theorem nul_not_mem_keyNames (h : Command.ofText? m.createTable = some cmd) :
    ∀ n ∈ m.keyNames, '\x00' ∉ n.toList := by
  rw [keyNames, List.forall_mem_map]
  exact fun c hc => (nul_not_mem_of_createTable h).2 c (List.mem_filter.1 hc).1

section Whole

variable (hl : values.length = m.keys.length) (hv : values.mapM m.bind = .ok args)

include hl hv

theorem length_keyNames : m.keyNames.length = args.length := by
  rw [keyNames, List.length_map, ← hl, (mapM_eq_ok.1 hv).length_eq]

variable (hk : m.keys ≠ [])

include hk

theorem keyFilter_whole : m.keyFilter values = .ok ⟨Sql.keyTestText m.keyNames, args⟩ := by
  have some_value : values ≠ [] := by
    rintro rfl
    exact hk (List.length_eq_zero_iff.1 hl.symm)
  have text : Sql.keyTestText m.keyNames =
      " and ".intercalate (m.keys.map fun c => c.quotedName ++ " = ?") := by
    unfold Sql.keyTestText keyNames
    rw [List.map_map]
    rfl
  simp only [keyFilter, ite_throw_eq_ok, bind_eq_ok, pure, Except.pure, Except.ok.injEq]
  exact ⟨by simpa using hk, by simp [some_value, hl], args, hv, by simp [text, hl]⟩

variable (h : Command.ofText? m.createTable = some cmd) (test : Term.keyTest m.keyNames = some t)

include h test

theorem deleteByKeys_eq_ok : ∃ sql, m.deleteByKeys values = .ok ⟨sql, args⟩ ∧
    Command.ofText? sql = some (.delete m.tableName (some t)) := by
  have named := (nul_not_mem_of_createTable h).1
  have columns := nul_not_mem_keyNames h
  refine ⟨_, bind_eq_ok.2 ⟨_, keyFilter_whole hl hv hk, rfl⟩, ?_⟩
  rw [← Command.ofText?_delete named columns test]
  simp [quotedName, String.append_assoc]

theorem getByKeys_eq_ok : ∃ sql, m.getByKeys values = .ok ⟨sql, args⟩ ∧
    Command.ofText? sql = some (.select .all m.tableName (some t) [] {}) := by
  have named := (nul_not_mem_of_createTable h).1
  have columns := nul_not_mem_keyNames h
  simp only [getByKeys, ite_throw_eq_ok]
  refine ⟨_, ⟨by simp [hl], bind_eq_ok.2 ⟨_, keyFilter_whole hl hv hk, rfl⟩⟩, ?_⟩
  rw [← Command.ofText?_get named columns test]
  simp [quotedName, String.append_assoc]

end Whole

end TableMapping

end Tabular
