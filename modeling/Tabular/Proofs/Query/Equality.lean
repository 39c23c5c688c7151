import Mathlib.Data.List.TakeWhile
import Tabular.Proofs.Compile.Equality
import Tabular.Proofs.Database.Equality
import Tabular.Proofs.Query.Parsing

namespace Tabular

open Sql (Command Operator Term Token condition? endsCondition tokens? tokens?_eq_some)
open Sql.Command (source?)
open Sql.Lexer (Completes endsToken read? read?_end read?_join read?_quoteIdentifier)

structure Follows (tail : String) (term : String → Term) : Prop where
  tokens : ∃ ks, Completes tail.toList ks ∧ (∀ k ∈ ks, endsCondition k = false) ∧
    ∀ column, Term.ofTokens? (.opening :: .name column :: ks) = some (term column)
  apart : tail.toList.head?.any endsToken
  noNul : '\x00' ∉ tail.toList

namespace Asking

def term (way : Asking) (negated null : Bool) (column : String) : Term :=
  .brackets [.binary (way.operator negated null) (.name column)
    (match way with
      | .compared => .placeholder 0
      | _ => .brackets [.placeholder 0])]

theorem height_term (way : Asking) (negated null : Bool) (column : String) :
    (way.term negated null column).height ≤ Database.greatestHeight := by
  have low : (way.term negated null column).height ≤ 3 := by
    unfold term
    cases way <;> simp only [Term.height, Term.heightAll] <;> split <;> decide
  exact low.trans (by decide)

theorem pruned_term (way : Asking) (negated null : Bool) (column : String) :
    (way.term negated null column).pruned = .probe (way.operator negated null) column := by
  unfold term operator
  cases way with
  | compared => cases null <;> cases negated <;> simp [Term.pruned, Term.joined, Term.probe]
  | called => cases negated <;> simp [Term.pruned, Term.joined, Term.probe]
  | listed name =>
    cases negated <;> simp [Term.pruned, Term.prunedCollection, Term.prunedAll, Term.joined,
      Term.isEmptyList, Term.probe]

theorem follows_tail (way : Asking) (negated null : Bool) :
    Follows (way.tail negated null) (way.term negated null) := by
  cases way with
  | compared =>
    cases null <;> cases negated <;> exact ⟨⟨_, rfl, by decide, fun _ => rfl⟩, by decide, by decide⟩
  | called =>
    cases negated <;> simp only [tail, Bool.false_eq_true, if_true, if_false] <;>
      exact ⟨⟨_, rfl, by decide, fun _ => rfl⟩, by decide, by decide⟩
  | listed name =>
    cases negated <;> simp only [tail, Bool.false_eq_true, if_true, if_false] <;>
      exact ⟨⟨_, rfl, by decide, fun _ => rfl⟩, by decide, by decide⟩

end Asking

theorem mem_quoteIdentifier {c : Char} (hc : c ≠ '"') (name : String) :
    c ∈ (quoteIdentifier name).toList ↔ c ∈ name.toList := by
  simp [quoteIdentifier, Text.Delimited.encode, Text.Delimited.mem_double, hc]

/-- Names that a text can hold to its end. -/
def Readable (table column : String) : Prop :=
  '\x00' ∉ table.toList ∧ '\x00' ∉ column.toList

instance (table column : String) : Decidable (Readable table column) :=
  inferInstanceAs (Decidable (_ ∧ _))

namespace Query

variable {t : TableMapping} {e : Expr} {f : Fragment}

def meeting (t : TableMapping) (e : Expr) : Query := (ofMapping t).after [.filter (.lambda 1 e)]

theorem meeting_eq (t : TableMapping) (e : Expr) :
    meeting t e = { mapping := t, predicate := some e } := rfl

theorem statement_meeting (hf : t.fragment e = .ok f) : (meeting t e).statement =
    .ok ⟨"select " ++ "*" ++ " from " ++ (t.quotedName ++ (" where " ++ f.sql)), f.args⟩ := by
  refine build_eq_ok.2 ⟨{ sql := " where " ++ f.sql, args := f.args }, ?_, ?_⟩
  · simp only [meeting_eq, whereClause, hf]
    rfl
  · simp [meeting_eq, body, orderClause, pageClause]

theorem ofText?_meeting {tail : String} {term : String → Term} (h : Follows tail term)
    (table column : String) :
    Command.ofText? ("select " ++ "*" ++ " from " ++ (quoteIdentifier table ++ (" where " ++
      ("(" ++ quoteIdentifier column ++ tail)))) =
      if Readable table column then some (.select .all table (some (term column)) [] {})
      else none := by
  obtain ⟨ks, hk, plain, parsed⟩ := h.tokens
  have text : (quoteIdentifier table ++ (" where " ++
      ("(" ++ quoteIdentifier column ++ tail))).toList =
      (quoteIdentifier table).toList ++ (" where (".toList ++ ((quoteIdentifier column).toList ++
        tail.toList)) := by simp
  have nul_mem : '\x00' ∈ (quoteIdentifier table ++ (" where " ++
      ("(" ++ quoteIdentifier column ++ tail))).toList ↔
      ¬ Readable table column := by
    have fixed : '\x00' ∉ " where (".toList := by decide
    rw [text]
    simp only [List.mem_append, mem_quoteIdentifier (c := '\x00') (by decide), fixed,
      h.noNul, false_or, or_false, Readable, not_and_or, not_not]
  rw [Command.ofText?_all]
  by_cases hr : Readable table column
  · have sep : Completes " where (".toList [.word "where", .opening] := by decide
    have test := read?_end hk h.apart (read?_quoteIdentifier column)
    have read := read?_join sep rfl (read?_quoteIdentifier table) test
    rw [← text] at read
    have ends : ∀ k ∈ Token.opening :: .name column :: ks, (!endsCondition k) = true := by
      simpa [endsCondition] using plain
    have source : source? (.name table :: .word "where" :: .opening :: .name column :: ks) =
        some ⟨table, some (term column), [], {}⟩ := by
      refine Command.source?_eq_some.2 ⟨_, [], [], rfl, ?_, rfl, rfl⟩
      rw [condition?, List.takeWhile_eq_self_iff.2 ends, List.dropWhile_eq_nil_iff.2 ends,
        parsed column]
      rfl
    rw [if_pos hr, tokens?_eq_some.2 ⟨fun hm => nul_mem.1 hm hr, read⟩, Option.bind_some]
    exact congrArg _ source
  · have broken : tokens? (quoteIdentifier table ++ (" where " ++
        ("(" ++ quoteIdentifier column ++ tail))) = none :=
      if_pos (List.contains_iff_mem.2 (nul_mem.2 hr))
    rw [if_neg hr, broken]
    rfl

end Query

end Tabular
