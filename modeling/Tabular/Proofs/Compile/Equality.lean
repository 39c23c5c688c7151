import Mathlib.Data.List.Find
import Tabular.Proofs.Compile.Inversion
import Tabular.Proofs.Sql.Naming
import Tabular.Proofs.Text.Occurrence
import Tabular.Sql.Term

namespace Tabular

open Sql (Operator holdsOperator)

/-- How to ask whether a member equals a value. -/
inductive Asking
  | compared
  | called
  | listed (captured : String)
  deriving DecidableEq

namespace Asking

def equal (way : Asking) (property : String) (v : Value) : Expr :=
  match way with
  | .compared => .binary .eq (.field property) (.constant v)
  | .called => .invoke (.field property) "equals" [.constant v]
  | .listed name => .invoke (.captured name (.list [v])) "contains" [.field property]

def differ (way : Asking) (property : String) (v : Value) : Expr :=
  match way with
  | .compared => .binary .ne (.field property) (.constant v)
  | way => .not (way.equal property v)

def operator (way : Asking) (negated null : Bool) : Operator :=
  match way with
  | .compared =>
    if null then if negated then .isNot else .is else if negated then .ne else .eq
  | .called => if negated then .ne else .eq
  | .listed _ => if negated then .notIn else .isIn

def tail (way : Asking) (negated null : Bool) : String :=
  match way with
  | .compared =>
    if null then if negated then " is not ?)" else " is ?)"
    else if negated then " != ?)" else " = ?)"
  | .called => if negated then " <> (?))" else " = (?))"
  | .listed _ => if negated then " not in (?))" else " in (?))"

theorem differ_of_call {way : Asking} (hw : way ≠ .compared) (property : String) (v : Value) :
    way.differ property v = .not (way.equal property v) ∧ (way.equal property v).isCall := by
  cases way with
  | compared => exact absurd rfl hw
  | called | listed => exact ⟨rfl, rfl⟩

theorem negatedText_tail {way : Asking} (hw : way ≠ .compared) (null : Bool) :
    Fragment.negatedText (way.tail false null) = way.tail true null := by
  cases way with
  | compared => exact absurd rfl hw
  | called =>
    show Fragment.negatedText " = (?))" = " <> (?))"
    decide +kernel
  | listed name =>
    show Fragment.negatedText " in (?))" = " not in (?))"
    decide +kernel

end Asking

theorem Fragment.negatedText_quoted {name : String} (hn : holdsOperator name = false)
    (tail : String) : negatedText ("(" ++ quoteIdentifier name ++ tail) =
      "(" ++ quoteIdentifier name ++ negatedText tail := by
  let front := ['('] ++ '"' :: Text.Delimited.double '"' name.toList
  have split (s : String) :
      ("(" ++ quoteIdentifier name ++ s).toList = front ++ '"' :: s.toList := by
    simp [front, quoteIdentifier, Text.Delimited.encode]
  have plain : ∀ n ∈ negations, n.1.toList ≠ [] ∧ '"' ∉ n.1.toList ∧
      Text.occurs n.1.toList ['('] = false := by decide
  have free : ∀ n ∈ negations, Text.occurs n.1.toList front = false := by
    intro n hm
    obtain ⟨hne, hq, ho⟩ := plain n hm
    rw [Text.occurs_append_cons hne hq, ho, Text.occurs_double hne hq]
    simpa using List.any_eq_false.1 hn n hm
  have found : negations.find? (fun n => Text.occurs n.1.toList (front ++ '"' :: tail.toList)) =
      negations.find? fun n => Text.occurs n.1.toList tail.toList := by
    refine List.find?_congr fun n hm => ?_
    rw [Text.occurs_append_cons (plain n hm).1 (plain n hm).2.1, free n hm, Bool.false_or]
  unfold negatedText
  rw [split, found]
  cases hf : negations.find? fun n => Text.occurs n.1.toList tail.toList with
  | none => rfl
  | some n =>
    have hm := List.mem_of_find?_eq_some hf
    obtain ⟨hne, hq, _⟩ := plain n hm
    apply String.toList_injective
    simp only [Text.replaceAll_append_cons hne hq, Text.replaceAll_eq_self hne _ (free n hm), split,
      String.toList_ofList]

namespace TableMapping

variable {t : TableMapping} {property : String} {c : Column} {v : Value} {d : Datum}

theorem fragment_field (hc : t.columnOf property = .ok c) : t.fragment (.field property) =
    .ok { sql := c.quotedName, args := [], textual := c.kind.isTextual } := by
  rw [Expr.field, fragment, hc]
  rfl

theorem fragment_constant (hv : t.bind v = .ok d) : t.fragment (.constant v) =
    .ok { sql := "?", args := [d], value := some v, textual := v.isText } := by
  rw [fragment]
  exact placeholder_eq_ok.2 ⟨d, hv, rfl⟩

theorem fragment_compared (hc : t.columnOf property = .ok c) (hv : t.bind v = .ok d)
    (negated : Bool) : ∃ f, t.fragment (.binary (if negated then .ne else .eq) (.field property)
      (.constant v)) = .ok f ∧ f.args = [d] ∧
      f.sql = "(" ++ c.quotedName ++ Asking.compared.tail negated v.isNull := by
  have named : Fragment.isNull { sql := c.quotedName, args := [], textual := c.kind.isTextual } =
      false := by simp [Fragment.isNull]
  have place : Fragment.isNull { sql := "?", args := [d], value := some v, textual := v.isText } =
      v.isNull := by simp [Fragment.isNull]
  rw [fragment, fragment_field hc, fragment_constant hv]
  simp only [Bind.bind, Except.bind, Fragment.binary, named, place]
  cases v.isNull with
  | true => cases negated <;> exact ⟨_, rfl, rfl, rfl⟩
  | false =>
    cases negated <;> refine ⟨_, rfl, rfl, ?_⟩ <;>
      simp only [Fragment.infixed, String.append_assoc, String.reduceAppend, Asking.tail] <;> rfl

theorem fragment_called (hc : t.columnOf property = .ok c) (hv : t.bind v = .ok d) :
    ∃ f, t.fragment (Asking.called.equal property v) = .ok f ∧ f.args = [d] ∧
      f.sql = "(" ++ c.quotedName ++ " = (?))" := by
  rw [Asking.equal, fragment, fragment_field hc, fragments, fragment_constant hv]
  refine ⟨_, rfl, rfl, ?_⟩
  simp only [Fragment.invoke, Fragment.equals, String.append_assoc, String.reduceAppend]
  rfl

theorem fragment_listed (hc : t.columnOf property = .ok c) (hv : t.bind v = .ok d) (name : String) :
    ∃ f, t.fragment ((Asking.listed name).equal property v) = .ok f ∧ f.args = [d] ∧
      f.sql = "(" ++ c.quotedName ++ " in (?))" := by
  have collection : t.fragment (.captured name (.list [v])) =
      .ok { sql := "(?)", args := [d], value := some (.list [v]) } := by
    rw [fragment]
    refine expand_eq_ok.2 (.inl ⟨[v], [d], rfl, ?_, rfl⟩)
    exact mapM_eq_ok.2 (.cons hv .nil)
  rw [Asking.equal, fragment, collection, fragments, fragment_field hc]
  refine ⟨_, rfl, rfl, ?_⟩
  simp only [Fragment.invoke, Fragment.isIn, Fragment.infixed, String.append_assoc,
    String.reduceAppend]
  rfl

theorem fragment_equal (hc : t.columnOf property = .ok c) (hv : t.bind v = .ok d)
    (way : Asking) : ∃ f, t.fragment (way.equal property v) = .ok f ∧ f.args = [d] ∧
      f.sql = "(" ++ c.quotedName ++ way.tail false v.isNull := by
  cases way with
  | compared => exact fragment_compared hc hv false
  | called => exact fragment_called hc hv
  | listed name => exact fragment_listed hc hv name

theorem fragment_differ (hc : t.columnOf property = .ok c) (hv : t.bind v = .ok d)
    {way : Asking} (hn : way = .compared ∨ holdsOperator c.name = false) :
    ∃ f, t.fragment (way.differ property v) = .ok f ∧ f.args = [d] ∧
      f.sql = "(" ++ c.quotedName ++ way.tail true v.isNull := by
  by_cases hw : way = .compared
  · rw [hw]
    exact fragment_compared hc hv true
  · obtain ⟨differ, call⟩ := Asking.differ_of_call hw property v
    obtain ⟨f, hf, ha, hs⟩ := fragment_equal hc hv way
    refine ⟨f.negatedCall, ?_, ha, ?_⟩
    · rw [differ, fragment, hf]
      exact Fragment.negate_eq_ok.2 (.inr ⟨call, rfl⟩)
    · have kept := hn.resolve_left hw
      rw [Fragment.negatedCall, hs, Column.quotedName, Fragment.negatedText_quoted kept,
        Asking.negatedText_tail hw]

end TableMapping

end Tabular
