import Mathlib.Data.List.Forall2
import Tabular.Proofs.Sql.Selecting
import Tabular.Schema.Statement

namespace Tabular

open Sql (Command Token)
open Sql.Lexer (Completes endsToken read? read?_append read?_join read?_end read?_quoteIdentifier)

namespace Sql

variable {ts : List Token} {cmd : Command}

theorem Lexer.read?_intercalate {sep : List Char} {seps : List Token} (hs : Completes sep seps)
    (he : sep.head?.any endsToken) {items : List (List Char)} {kss : List (List Token)}
    (h : List.Forall₂ (fun cs ks => read? cs = some ks) items kss) :
    read? (sep.intercalate items) = some (seps.intercalate kss) := by
  induction h with
  | nil => rfl
  | cons ha h ih =>
    cases h with
    | nil => simpa using ha
    | cons => simpa [List.intercalate_cons_cons] using read?_join hs he ha ih

def nameTokens (names : List String) : List Token :=
  [Token.comma].intercalate (names.map fun n => [.name n])

theorem nameTokens_cons_cons (n m : String) (names : List String) :
    nameTokens (n :: m :: names) = .name n :: .comma :: nameTokens (m :: names) := rfl

theorem read?_names (names : List String) :
    read? (", ".intercalate (names.map quoteIdentifier)).toList = some (nameTokens names) := by
  have comma : Completes ", ".toList [.comma] := by decide
  rw [String.toList_intercalate, nameTokens]
  refine Lexer.read?_intercalate comma rfl ?_
  rw [List.map_map, List.forall₂_map_left_iff, List.forall₂_map_right_iff, List.forall₂_same]
  exact fun n _ => read?_quoteIdentifier n

theorem names?_nameTokens {names : List String} (hn : names ≠ []) (ts : List Token) :
    names? (nameTokens names ++ .closing :: ts) = some (names, ts) := by
  induction names with
  | nil => exact absurd rfl hn
  | cons n names ih =>
    cases names with
    | nil => rfl
    | cons m names =>
      rw [nameTokens_cons_cons, List.cons_append, List.cons_append, names?, ih (by simp)]
      rfl

theorem Command.createTable?_eq_some {table : String}
    (h : Command.createTable? table ts = some cmd) :
    ∃ cs key, cmd = .createTable table cs key := by
  unfold createTable? at h
  simp only [Option.bind_eq_bind, Option.bind_eq_some_iff] at h
  obtain ⟨⟨parts, rest⟩, _, ⟨cs, key⟩, _, h⟩ := h
  split at h <;> cases h
  exact ⟨cs, key, rfl⟩

theorem exists_of_bracketed {name : String} {text : List Char} {ks : List Token}
    (h : read? ((quoteIdentifier name).toList ++ (" (".toList ++ text)) = some ks) :
    ∃ ls, read? text = some ls ∧ ks = .name name :: .opening :: ls := by
  have opening : Completes " (".toList [.opening] := by decide
  have front := Lexer.read?_append (read?_quoteIdentifier name) (c := ' ') rfl ('(' :: text)
  rw [show ' ' :: '(' :: text = " (".toList ++ text from rfl, h, Lexer.read?_eq_readFrom,
    Lexer.readFrom_append opening, ← Lexer.read?_eq_readFrom] at front
  obtain ⟨_, hk, hks⟩ := Option.map_eq_some_iff.1 front.symm
  obtain ⟨ls, hl, rfl⟩ := Option.map_eq_some_iff.1 hk
  exact ⟨ls, hl, hks.symm⟩

end Sql

namespace TableMapping

variable {t : TableMapping} {cmd : Command}

theorem createTable?_of_command (h : Command.ofText? t.createTable = some cmd) :
    ∃ ks, read? (", ".intercalate (t.columns.map Column.declaration ++ t.keyClause) ++ ")").toList =
        some ks ∧
      Command.createTable? t.tableName ks = some cmd := by
  have start : Completes "create table if not exists ".toList
      [.word "create", .word "table", .word "if", .word "not", .word "exists"] := by decide
  obtain ⟨ks, hk, hc⟩ := Option.bind_eq_some_iff.1 h
  have text : t.createTable = "create table if not exists " ++ (t.quotedName ++ (" (" ++
      (", ".intercalate (t.columns.map Column.declaration ++ t.keyClause) ++ ")"))) := by
    unfold createTable
    rw [String.append_assoc, String.append_assoc, String.append_assoc]
  rw [text, Sql.tokens?_append start (by decide)] at hk
  obtain ⟨ls, hl, rfl⟩ := Option.map_eq_some_iff.1 hk
  have read := (Sql.tokens?_eq_some.1 hl).2
  rw [String.toList_append, String.toList_append] at read
  obtain ⟨ms, body, rfl⟩ := Sql.exists_of_bracketed read
  exact ⟨ms, body, hc⟩

theorem command_createTable (h : Command.ofText? t.createTable = some cmd) :
    ∃ cs key, cmd = .createTable t.tableName cs key := by
  obtain ⟨_, _, hc⟩ := createTable?_of_command h
  exact Command.createTable?_eq_some hc

def indexStart (unique : Bool) : String :=
  "create " ++ (if unique then "unique " else "") ++ "index if not exists "

def indexStartTokens (unique : Bool) : List Token :=
  .word "create" :: ((if unique then [.word "unique"] else []) ++
    [.word "index", .word "if", .word "not", .word "exists"])

theorem read?_createIndex (t : TableMapping) (i : Index) : read? (t.createIndex i).toList =
    some (indexStartTokens i.unique ++ (.name i.name :: .word "on" :: .name t.tableName ::
      .opening :: (Sql.nameTokens i.columns ++ [.closing]))) := by
  have start : Completes (indexStart i.unique).toList (indexStartTokens i.unique) := by
    cases i.unique <;> decide
  have on : Completes " on ".toList [.word "on"] := by decide
  have opening : Completes " (".toList [.opening] := by decide
  have closing : Completes ")".toList [.closing] := by decide
  have columns := read?_end closing rfl (Sql.read?_names i.columns)
  have table := read?_join opening rfl (read?_quoteIdentifier t.tableName) columns
  have named := start.read?_append (read?_join on rfl (read?_quoteIdentifier i.name) table)
  have text : (t.createIndex i).toList = (indexStart i.unique).toList ++
      ((quoteIdentifier i.name).toList ++ (" on ".toList ++ ((quoteIdentifier t.tableName).toList ++
        (" (".toList ++ ((", ".intercalate (i.columns.map quoteIdentifier)).toList ++
          ")".toList))))) := by
    unfold createIndex quotedName indexStart
    repeat rw [String.toList_append]
    simp only [List.append_assoc]
  rw [text, named]
  rfl

theorem command_createIndex {i : Index} (h : Command.ofText? (t.createIndex i) = some cmd) :
    cmd = .createIndex i.unique i.name t.tableName i.columns := by
  obtain ⟨ks, hk, hc⟩ := Option.bind_eq_some_iff.1 h
  obtain rfl := Option.some.inj ((Sql.tokens?_eq_some.1 hk).2.symm.trans (t.read?_createIndex i))
  have parsed : Command.ofTokens? (indexStartTokens i.unique ++ (.name i.name :: .word "on" ::
      .name t.tableName :: .opening :: (Sql.nameTokens i.columns ++ [.closing]))) =
      (Sql.names? (Sql.nameTokens i.columns ++ [.closing])).bind fun r =>
        if r.2.isEmpty then some (.createIndex i.unique i.name t.tableName r.1) else none := by
    cases i.unique <;> rfl
  rw [parsed] at hc
  by_cases hn : i.columns = []
  · rw [hn] at hc
    cases hc
  · rw [Sql.names?_nameTokens hn] at hc
    exact (Option.some.inj hc).symm

end TableMapping

end Tabular
