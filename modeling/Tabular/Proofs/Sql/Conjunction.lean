import Mathlib.Data.List.TakeWhile
import Tabular.Database.Conjunct
import Tabular.Proofs.Schema.Making

namespace Tabular.Sql

open Lexer (Completes read? read?_quoteIdentifier)

namespace Term

def equality (place : Nat) (column : String) : Term :=
  .binary .eq (.name column) (.placeholder place)

def equalities (place : Nat) (columns : List String) : List Term :=
  (columns.zipIdx place).map fun c => equality c.2 c.1

theorem equalities_cons (place : Nat) (column : String) (columns : List String) :
    equalities place (column :: columns) =
      equality place column :: equalities (place + 1) columns := rfl

def conjunction (t : Term) (ts : List Term) : Term := ts.foldl (.binary .and) t

def keyTest : List String → Option Term
  | [] => none
  | n :: names => some (conjunction (equality 0 n) (equalities 1 names))

theorem exists_keyTest {names : List String} (h : names ≠ []) : ∃ t, keyTest names = some t := by
  cases names with
  | nil => exact absurd rfl h
  | cons n names => exact ⟨_, rfl⟩

inductive IsConjunction : Term → Prop
  | equality (place : Nat) (column : String) : IsConjunction (equality place column)
  | and {t u : Term} (ht : IsConjunction t) (hu : IsConjunction u) :
      IsConjunction (.binary .and t u)

theorem IsConjunction.conjunction {t : Term} {ts : List Term} (ht : t.IsConjunction)
    (hts : ∀ u ∈ ts, u.IsConjunction) : (conjunction t ts).IsConjunction := by
  induction ts generalizing t with
  | nil => exact ht
  | cons u ts ih =>
    obtain ⟨hu, hts⟩ := List.forall_mem_cons.1 hts
    exact ih (.and ht hu) hts

theorem isConjunction_of_mem_equalities {place : Nat} {columns : List String} :
    ∀ t ∈ equalities place columns, t.IsConjunction := by
  simp only [equalities, List.forall_mem_map]
  exact fun c _ => .equality c.2 c.1

theorem isConjunction_keyTest {names : List String} {t : Term} (h : keyTest names = some t) :
    t.IsConjunction := by
  cases names with
  | nil => cases h
  | cons n names =>
    cases h
    exact .conjunction (.equality 0 n) isConjunction_of_mem_equalities

theorem conjoined_conjunction {t : Term} {ts : List Term}
    (h : ∀ u ∈ ts, Database.conjoined u = [u]) :
    Database.conjoined (conjunction t ts) = Database.conjoined t ++ ts := by
  induction ts generalizing t with
  | nil => simp [conjunction]
  | cons u ts ih =>
    obtain ⟨hu, h⟩ := List.forall_mem_cons.1 h
    rw [conjunction, List.foldl_cons, ← conjunction, ih h, Database.conjoined, hu,
      List.append_assoc]
    rfl

theorem conjoined_keyTest {names : List String} {t : Term} (h : keyTest names = some t) :
    Database.conjoined t = equalities 0 names := by
  cases names with
  | nil => cases h
  | cons n names =>
    cases h
    refine conjoined_conjunction fun u hu => ?_
    obtain ⟨c, _, rfl⟩ := List.mem_map.1 hu
    rfl

theorem height_conjunction {t : Term} {ts : List Term} (ht : 2 ≤ t.height)
    (h : ∀ u ∈ ts, u.height = 2) :
    (conjunction t ts).height = t.height + ts.length := by
  induction ts generalizing t with
  | nil => rfl
  | cons u ts ih =>
    obtain ⟨hu, h⟩ := List.forall_mem_cons.1 h
    have joined : (Term.binary .and t u).height = t.height + 1 := by
      simp [height, hu, ht]
    rw [conjunction, List.foldl_cons, ← conjunction, ih (by omega) h, joined, List.length_cons]
    omega

theorem height_keyTest {names : List String} {t : Term} (h : keyTest names = some t) :
    t.height = names.length + 1 := by
  cases names with
  | nil => cases h
  | cons n names =>
    cases h
    rw [height_conjunction (by rfl)]
    · simp [equalities, equality, height]
      omega
    · intro u hu
      obtain ⟨c, _, rfl⟩ := List.mem_map.1 hu
      rfl

namespace IsConjunction

variable {t : Term} (h : t.IsConjunction)

include h

theorem wellFormed : t.wellFormed := by
  induction h with
  | equality => rfl
  | and _ _ iht ihu => simp [Term.wellFormed, iht, ihu]

theorem not_isZero : ¬ t.isZero := by
  cases h <;> exact Bool.false_ne_true

theorem pruned : t.pruned = t := by
  induction h with
  | equality => simp [Term.equality, Term.pruned, Term.joined]
  | and ht hu iht ihu => simp [Term.pruned, Term.joined, iht, ihu, ht.not_isZero, hu.not_isZero]

theorem conjoined : ∀ u ∈ Database.conjoined t, ∃ place column, u = .equality place column := by
  induction h with
  | equality place column => simp [Database.conjoined, Term.equality]
  | and _ _ iht ihu =>
    rw [Database.conjoined, List.forall_mem_append]
    exact ⟨iht, ihu⟩

end IsConjunction

end Term

open Term (conjunction equality equalities)

def equalityTokens (column : String) : List Token := [.name column, .eq, .placeholder]

def keyTokens (columns : List String) : List Token :=
  [Token.word "and"].intercalate (columns.map equalityTokens)

theorem keyTokens_cons (n : String) (columns : List String) :
    keyTokens (n :: columns) =
      equalityTokens n ++ columns.flatMap fun m => .word "and" :: equalityTokens m := by
  unfold keyTokens
  induction columns generalizing n with
  | nil => simp
  | cons m columns ih =>
    rw [List.map_cons, List.map_cons, List.intercalate_cons_cons, ← List.map_cons, ih,
      List.flatMap_cons, List.append_assoc]
    rfl

theorem read?_equalities (columns : List String) :
    read? (" and ".intercalate (columns.map fun n => quoteIdentifier n ++ " = ?")).toList =
      some (keyTokens columns) := by
  have sep : Completes " and ".toList [.word "and"] := by decide
  have tail : Completes " = ?".toList [.eq, .placeholder] := by decide
  rw [String.toList_intercalate, keyTokens]
  refine Lexer.read?_intercalate sep rfl ?_
  rw [List.map_map, List.forall₂_map_left_iff, List.forall₂_map_right_iff, List.forall₂_same]
  intro n _
  rw [Function.comp_apply, String.toList_append]
  exact Lexer.read?_end tail rfl (read?_quoteIdentifier n)

namespace Parser

def afterEquality (before : Option Term) (n : String) (place : Nat) : State where
  waiting := ⟨.name n, .eq⟩ :: before.toList.map (⟨·, .and⟩)
  phase := .operator (.placeholder place)
  places := place + 1

def joinedTo (before : Option Term) (t : Term) : Term :=
  match before with
  | some u => .binary .and u t
  | none => t

theorem finish_afterEquality (before : Option Term) (n : String) (place : Nat) :
    finish (afterEquality before n place) = some (joinedTo before (equality place n)) := by
  cases before <;> rfl

theorem run_and_equality (before : Option Term) (n m : String) (place : Nat) :
    run (afterEquality before n place) (.word "and" :: equalityTokens m) =
      some (afterEquality (some (joinedTo before (equality place n))) m (place + 1)) := by
  cases before <;> rfl

theorem run_equalities (before : Option Term) (n : String) (columns : List String) (place : Nat) :
    (run (afterEquality before n place)
      (columns.flatMap fun m => .word "and" :: equalityTokens m)).bind finish =
      some (conjunction (joinedTo before (equality place n)) (equalities (place + 1) columns)) := by
  induction columns generalizing before n place with
  | nil => exact finish_afterEquality before n place
  | cons m columns ih =>
    rw [List.flatMap_cons, run_append, run_and_equality, Option.bind_some, ih]
    rfl

end Parser

theorem Term.ofTokens?_keyTokens {columns : List String} {t : Term}
    (h : keyTest columns = some t) : Term.ofTokens? (keyTokens columns) = some t := by
  cases columns with
  | nil => cases h
  | cons n columns =>
    have formed := (isConjunction_keyTest h).wellFormed
    have read : Parser.read? (keyTokens (n :: columns)) = some t := by
      rw [keyTokens_cons, Parser.read?, Parser.run_append]
      exact (Parser.run_equalities none n columns 0).trans h
    simp [ofTokens?, read, formed]

theorem not_endsCondition_keyTokens (columns : List String) :
    ∀ k ∈ keyTokens columns, endsCondition k = false := by
  cases columns with
  | nil => simp [keyTokens]
  | cons n columns =>
    rw [keyTokens_cons, List.forall_mem_append]
    refine ⟨by simp [equalityTokens, endsCondition], fun k hk => ?_⟩
    obtain ⟨m, _, hk⟩ := List.mem_flatMap.1 hk
    simp only [equalityTokens, List.mem_cons, List.not_mem_nil, or_false] at hk
    rcases hk with rfl | rfl | rfl | rfl <;> simp [endsCondition]

theorem condition?_whole {ks : List Token} {t : Term} (h : ∀ k ∈ ks, endsCondition k = false)
    (read : Term.ofTokens? ks = some t) : condition? (.word "where" :: ks) = some (some t, []) := by
  have stays : ∀ k ∈ ks, (!endsCondition k) = true := by simpa using h
  rw [condition?, List.takeWhile_eq_self_iff.2 stays, List.dropWhile_eq_nil_iff.2 stays, read]
  rfl

theorem condition?_keyTokens {columns : List String} {t : Term}
    (h : Term.keyTest columns = some t) :
    condition? (.word "where" :: keyTokens columns) = some (some t, []) :=
  condition?_whole (not_endsCondition_keyTokens columns) (Term.ofTokens?_keyTokens h)

end Tabular.Sql
