import Tabular.Proofs.Compile.Parsing
import Tabular.Proofs.Database.Membership
import Tabular.Proofs.Schema.Filling
import Tabular.Proofs.Schema.Matching

namespace Tabular

open Sql (Command Term Token tokens? tokens?_eq_some tokens?_append)
open Sql.Lexer (Completes read?_end read?_join read?_quoteIdentifier)

namespace Sql

variable {column : String} {n : Nat}

def amongText (column : String) (n : Nat) : String :=
  quoteIdentifier column ++ (" in (" ++ (placeholders "," n ++ ")"))

def amongTokens (column : String) (n : Nat) : List Token :=
  .name column :: .word "in" :: .opening :: (placeTokens n ++ [.closing])

theorem tokens?_amongText (hc : '\x00' ∉ column.toList) (n : Nat) :
    tokens? (amongText column n) = some (amongTokens column n) := by
  have opening : Completes " in (".toList [.word "in", .opening] := by decide
  have comma : Completes ",".toList [.comma] := by decide
  have closing : Completes ")".toList [.closing] := by decide
  have places := read?_end closing rfl (read?_placeholders comma rfl n)
  have read := read?_join opening rfl (read?_quoteIdentifier column) places
  have placed : '\x00' ∉ (placeholders "," n).toList := by
    rw [placeholders, String.toList_intercalate, Text.mem_intercalate (by decide)]
    simp
  refine tokens?_eq_some.2 ⟨?_, ?_⟩
  · simp [amongText, mem_quoteIdentifier (c := '\x00') (by decide), hc, placed]
  · rw [amongText, String.toList_append, String.toList_append, String.toList_append]
    exact read

theorem Term.ofTokens?_amongTokens (column : String) (n : Nat) :
    Term.ofTokens? (amongTokens column n) = some (.among column 0 n) := by
  have tokens_eq : (Clause.list (List.replicate n .null)).tokens =
      .opening :: (placeTokens n ++ [.closing]) := by
    rw [Clause.tokens, List.map_replicate]
    rfl
  have list := Clause.reads_list (List.replicate n .null) ⟨[], [⟨.name column, .isIn⟩], .term, 0⟩
    rfl fun loose => absurd loose Bool.false_ne_true
  rw [tokens_eq] at list
  have read : Parser.read? (amongTokens column n) = some (.among column 0 n) := by
    have start : Parser.run {} [.name column, .word "in"] =
        some ⟨[], [⟨.name column, .isIn⟩], .term, 0⟩ := rfl
    show (Parser.run {} ([.name column, .word "in"] ++ _)).bind Parser.finish = _
    rw [Parser.run_append, start, Option.bind_some, list]
    simp [Clause.readInto, Clause.pending, Clause.term, Parser.finish, Parser.settleAll,
      Parser.settle, among, placeholders]
  simp [ofTokens?, read, wellFormed_among]

theorem not_endsCondition_amongTokens (column : String) (n : Nat) :
    ∀ k ∈ amongTokens column n, endsCondition k = false := by
  have places : ∀ k ∈ placeTokens n, endsCondition k = false := by
    intro k hk
    obtain rfl | ⟨ks, hks, hk⟩ := Clause.mem_commas hk
    · rfl
    · rw [List.eq_of_mem_replicate hks, List.mem_singleton] at hk
      rw [hk]
      rfl
  simp only [amongTokens, List.forall_mem_cons, List.forall_mem_append]
  exact ⟨rfl, rfl, rfl, places, rfl, nofun⟩

theorem Command.ofText?_of_nul {text : String} (h : '\x00' ∈ text.toList) :
    Command.ofText? text = none := by
  have unread : tokens? text = none := by
    rw [Option.eq_none_iff_forall_ne_some]
    intro ks hk
    exact (tokens?_eq_some.1 hk).1 h
  rw [ofText?, unread]
  rfl

/-- Neither name breaks off a text. -/
def IsLegible (table column : String) : Prop :=
  '\x00' ∉ table.toList ∧ '\x00' ∉ column.toList

variable (table : String)

theorem Command.ofText?_deleteWhere_column {condition : String} {ks : List Token} {t : Term}
    (tokens : '\x00' ∉ column.toList → tokens? condition = some ks)
    (names : '\x00' ∈ column.toList → '\x00' ∈ condition.toList)
    (read : condition? (.word "where" :: ks) = some (some t, [])) :
    (IsLegible table column → Command.ofText? ("delete from " ++
        (quoteIdentifier table ++ (" where " ++ condition))) = some (.delete table (some t))) ∧
    (¬ IsLegible table column → Command.ofText? ("delete from " ++
        (quoteIdentifier table ++ (" where " ++ condition))) = none) := by
  refine ⟨fun h => ofText?_deleteWhere h.1 (tokens h.2) read, fun h => ofText?_of_nul ?_⟩
  simp only [String.toList_append, List.mem_append, mem_quoteIdentifier (c := '\x00') (by decide)]
  rw [IsLegible, not_and_or, not_not, not_not] at h
  exact h.elim (fun h => .inr (.inl h)) fun h => .inr (.inr (.inr (names h)))

end Sql

namespace TableMapping

variable {m : TableMapping} {c : Column} {values : List Value} {v : Value} {args : List Datum}
  {d : Datum}

theorem key_of_keys (hk : m.keys = [c]) : m.key = .ok c := by
  rw [key, hk]

theorem deleteIn_eq_error {fault : Fault} (hk : m.keys = [c])
    (hv : values.mapM m.bind = .error fault) : m.deleteIn values = .error fault := by
  rw [deleteIn, key_of_keys hk, hv]
  rfl

theorem exists_deleteIn (hk : m.keys = [c]) (hv : values.mapM m.bind = .ok args) :
    ∃ sql, m.deleteIn values = .ok ⟨sql, args⟩ ∧
      (Sql.IsLegible m.tableName c.name → Command.ofText? sql =
        some (.delete m.tableName (some (.among c.name 0 args.length)))) ∧
      (¬ Sql.IsLegible m.tableName c.name → Command.ofText? sql = none) := by
  have count : values.length = args.length := (mapM_eq_ok.1 hv).length_eq
  have text := Sql.Command.ofText?_deleteWhere_column m.tableName
    (fun h => Sql.tokens?_amongText h args.length)
    (fun h => by simp [Sql.amongText, mem_quoteIdentifier (c := '\x00') (by decide), h])
    (Sql.condition?_whole (Sql.not_endsCondition_amongTokens c.name args.length)
      (Sql.Term.ofTokens?_amongTokens c.name args.length))
  refine ⟨_, bind_eq_ok.2 ⟨c, key_of_keys hk, bind_eq_ok.2 ⟨args, hv, rfl⟩⟩, ?_⟩
  rw [count]
  simpa only [Sql.amongText, quotedName, Column.quotedName, String.append_assoc] using text

theorem exists_delete (hk : m.keys = [c]) (hv : m.bind v = .ok d) :
    ∃ sql, m.deleteByKeys [v] = .ok ⟨sql, [d]⟩ ∧
      (Sql.IsLegible m.tableName c.name → Command.ofText? sql =
        some (.delete m.tableName (some (.equality 0 c.name)))) ∧
      (¬ Sql.IsLegible m.tableName c.name → Command.ofText? sql = none) := by
  have single : [v].mapM m.bind = .ok [d] := mapM_eq_ok.2 (.cons hv .nil)
  have filter : m.keyFilter [v] = .ok ⟨Sql.keyTestText [c.name], [d]⟩ :=
    keyFilter_eq_ok_iff.2 ⟨by simp [hk], by simp, by simp [hk], single, by simp [hk]⟩
  have test : Term.keyTest [c.name] = some (.equality 0 c.name) := rfl
  have text := Sql.Command.ofText?_deleteWhere_column m.tableName
    (fun h => Sql.tokens?_keyTestText (List.forall_mem_singleton.2 h))
    (fun h => by simp [Sql.keyTestText, mem_quoteIdentifier (c := '\x00') (by decide), h])
    (Sql.condition?_keyTokens test)
  refine ⟨_, deleteByKeys_eq_ok_iff.2 ⟨_, filter, rfl⟩, ?_⟩
  simpa only [quotedName, String.append_assoc] using text

end TableMapping

end Tabular
