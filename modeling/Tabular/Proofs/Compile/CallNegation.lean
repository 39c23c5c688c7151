import Tabular.Proofs.Compile.Ending
import Tabular.Proofs.Compile.Negating
import Tabular.Proofs.Text.Occurrence

/-! Negated calls. The negation of a call replaces an operator wherever it occurs in the text, so
it is the negation of the operator that the call itself is written with only if that is the first
one looked for and occurs nowhere else. A call that is written without such an operator compiles to
the same text as its negation, unless an operand has one. -/

namespace Tabular

open Fragment (negations negatedText)
open Sql (Operator)
open Text (Ends occurs replaceAll)

theorem find?_eq_some_iff_takeWhile {α : Type} [BEq α] [LawfulBEq α] {p : α → Bool} {a : α}
    {xs : List α} (ha : a ∈ xs) (hp : p a) :
    xs.find? p = some a ↔ ∀ x ∈ xs.takeWhile (· != a), p x = false := by
  induction xs with
  | nil => cases ha
  | cons x xs ih =>
    by_cases hx : x = a
    · simp [hx, hp]
    · have rest : a ∈ xs := List.mem_of_ne_of_mem (Ne.symm hx) ha
      cases h : p x with
      | true => simp [h, hx]
      | false => simp [h, hx, ih rest]

namespace Fragment

def IsForeign (c : Char) : Prop := ∀ n ∈ negations, c ∉ n.1.toList

instance (c : Char) : Decidable (IsForeign c) := inferInstanceAs (Decidable (∀ n ∈ negations, _))

theorem differ_of_mem_negations {n : String × String} (h : n ∈ negations) :
    ∃ x y op new, n.1.toList = ' ' :: x :: op ∧ n.2.toList = ' ' :: y :: new ∧ x ≠ y := by
  simp only [negations, List.mem_cons, List.not_mem_nil, or_false] at h
  rcases h with rfl | rfl | rfl <;> exact ⟨_, _, _, _, rfl, rfl, by decide⟩

theorem length_of_mem_negations :
    ∀ n ∈ negations, n.1.toList ≠ [] ∧ n.1.toList.length < n.2.toList.length := by
  decide

theorem eq_of_mem_negations : ∀ n ∈ negations, ∀ m ∈ negations,
    n.1.toList[1]? = m.1.toList[1]? → n = m := by
  decide

theorem eq_of_replaced {n m : String × String} (hn : n ∈ negations) (hm : m ∈ negations)
    {xs ys zs zs' us us' : List Char} (h : xs ++ (n.1.toList ++ zs) = ys ++ (m.1.toList ++ us))
    (h' : xs ++ (n.2.toList ++ zs') = ys ++ (m.2.toList ++ us')) : n = m := by
  obtain ⟨x, y, op, new, ho, hw, hxy⟩ := differ_of_mem_negations hn
  obtain ⟨x', y', op', new', ho', hw', hxy'⟩ := differ_of_mem_negations hm
  refine eq_of_mem_negations n hn m hm ?_
  have first (xs ys zs : List Char) (c : Char) : xs ++ (' ' :: c :: ys ++ zs) =
      (xs ++ [' ']) ++ c :: (ys ++ zs) := by simp
  rw [ho, ho', first, first] at h
  rw [hw, hw', first, first] at h'
  obtain ⟨_, rfl⟩ := Text.eq_of_differ hxy hxy' h h'
  rw [ho, ho']
  rfl

theorem negatedText_of_find? {n : String × String} {s : String}
    (h : negations.find? (fun n => occurs n.1.toList s.toList) = some n) :
    (negatedText s).toList = replaceAll n.1.toList n.2.toList s.toList := by
  rw [negatedText, h, String.toList_ofList]

theorem negatedText_eq_self_iff (s : String) :
    negatedText s = s ↔ ∀ n ∈ negations, occurs n.1.toList s.toList = false := by
  cases hf : negations.find? fun n => occurs n.1.toList s.toList with
  | none =>
    have free : ∀ n ∈ negations, occurs n.1.toList s.toList = false := by
      simpa using List.find?_eq_none.1 hf
    rw [negatedText, hf]
    exact ⟨fun _ => free, fun _ => rfl⟩
  | some n =>
    have hn := List.mem_of_find?_eq_some hf
    have there : occurs n.1.toList s.toList := by simpa using List.find?_some hf
    obtain ⟨hne, hl⟩ := length_of_mem_negations n hn
    constructor
    · intro h
      have kept : (replaceAll n.1.toList n.2.toList s.toList).length = s.toList.length := by
        rw [← negatedText_of_find? hf, h]
      rw [Text.occurs_eq_false_of_length hne hl kept] at there
      cases there
    · intro h
      rw [h n hn] at there
      cases there

end Fragment

structure Parted where
  before : String
  operator : String × String
  after : String

namespace Parted

def text (p : Parted) : String := p.before ++ p.operator.1 ++ p.after

def negated (p : Parted) : String := p.before ++ p.operator.2 ++ p.after

/-- No operator that is looked for earlier occurs in the text, and the operator itself occurs
nowhere else. -/
def Alone (p : Parted) : Prop :=
  (∀ n ∈ negations.takeWhile (· != p.operator), occurs n.1.toList p.text.toList = false) ∧
    occurs p.operator.1.toList p.before.toList = false ∧
    occurs p.operator.1.toList p.after.toList = false

instance (p : Parted) : Decidable p.Alone := inferInstanceAs (Decidable (_ ∧ _ ∧ _))

def IsCut (p : Parted) : Prop := Ends Fragment.IsForeign p.before.toList

variable {p : Parted}

theorem toList_text (p : Parted) :
    p.text.toList = p.before.toList ++ (p.operator.1.toList ++ p.after.toList) := by
  simp [text]

theorem toList_negated (p : Parted) :
    p.negated.toList = p.before.toList ++ (p.operator.2.toList ++ p.after.toList) := by
  simp [negated]

theorem occurs_text (p : Parted) : occurs p.operator.1.toList p.text.toList := by
  rw [toList_text]
  exact Text.occurs_append_right (Text.occurs_append _ _) _

theorem replaceAll_text (hp : p.operator ∈ negations) (hc : p.IsCut) :
    replaceAll p.operator.1.toList p.operator.2.toList p.text.toList =
      replaceAll p.operator.1.toList p.operator.2.toList p.before.toList ++
        (p.operator.2.toList ++
          replaceAll p.operator.1.toList p.operator.2.toList p.after.toList) := by
  have hne := (Fragment.length_of_mem_negations _ hp).1
  obtain ⟨z, hz, free⟩ := hc
  obtain ⟨front, hfront⟩ := List.getLast?_eq_some_iff.1 hz
  have foreign := free _ hp
  rw [toList_text, hfront, List.append_assoc, List.singleton_append,
    Text.replaceAll_append_cons hne foreign, Text.replaceAll_append_cons hne foreign,
    Text.replaceAll_append hne]
  simp [replaceAll, Text.replaceFrom]

theorem negatedText_eq_iff (hp : p.operator ∈ negations) (hc : p.IsCut) :
    negatedText p.text = p.negated ↔ p.Alone := by
  obtain ⟨hne, hl⟩ := Fragment.length_of_mem_negations _ hp
  have there := p.occurs_text
  have first : negations.find? (fun n => occurs n.1.toList p.text.toList) = some p.operator ↔
      ∀ n ∈ negations.takeWhile (· != p.operator), occurs n.1.toList p.text.toList = false :=
    find?_eq_some_iff_takeWhile hp there
  constructor
  · intro h
    have found : negations.find? (fun n => occurs n.1.toList p.text.toList) = some p.operator := by
      cases hf : negations.find? fun n => occurs n.1.toList p.text.toList with
      | none =>
        have free := List.find?_eq_none.1 hf _ hp
        exact absurd there free
      | some n =>
        have hn := List.mem_of_find?_eq_some hf
        have hne := (Fragment.length_of_mem_negations n hn).1
        obtain ⟨front, back, hs, hr⟩ := Text.exists_of_occurs hne
          (by simpa using List.find?_some hf) n.2.toList
        rw [← Fragment.negatedText_of_find? hf, h, toList_negated] at hr
        rw [toList_text] at hs
        rw [Fragment.eq_of_replaced hp hn hs hr]
    have lengths := congrArg List.length (replaceAll_text hp hc)
    rw [← Fragment.negatedText_of_find? found, h, toList_negated] at lengths
    simp only [List.length_append] at lengths
    have before := (Text.replaced_replaceAll hne p.operator.2.toList p.before.toList).length_le
      (Nat.le_of_lt hl)
    have after := (Text.replaced_replaceAll hne p.operator.2.toList p.after.toList).length_le
      (Nat.le_of_lt hl)
    exact ⟨first.1 found, Text.occurs_eq_false_of_length hne hl (by omega),
      Text.occurs_eq_false_of_length hne hl (by omega)⟩
  · rintro ⟨earlier, hb, ha⟩
    apply String.toList_injective
    rw [Fragment.negatedText_of_find? (first.2 earlier), replaceAll_text hp hc,
      Text.replaceAll_eq_self hne _ hb, Text.replaceAll_eq_self hne _ ha, toList_negated]

end Parted

namespace Setting

def parted? : Setting → String → String → Option Parted
  | .infixed .like, l, r => some ⟨"(" ++ l, (" like ", " not like "), r ++ ")"⟩
  | .infixed .isIn, l, r => some ⟨"(" ++ l, (" in ", " not in "), r ++ ")"⟩
  | .equals, l, r => some ⟨"(" ++ l, (" = ", " <> "), "(" ++ r ++ "))"⟩
  | .startsWith, l, r => some ⟨"(" ++ l, (" like ", " not like "), "(" ++ r ++ " || '%'))"⟩
  | .endsWith, l, r => some ⟨"(" ++ l, (" like ", " not like "), "('%' || " ++ r ++ "))"⟩
  | .containsText, l, r =>
    some ⟨"(" ++ l, (" like ", " not like "), "('%' || " ++ r ++ " || '%'))"⟩
  | .swapped s, l, r => s.parted? r l
  | .infixed _, _, _ | .apply _, _, _ => none

variable {s : Setting} {l r : Fragment} {p : Parted}

theorem parted?_text (h : s.parted? l.sql r.sql = some p) : (s.fragment l r).sql = p.text := by
  induction s generalizing l r with
  | swapped s ih => exact ih h
  | infixed op =>
    apply String.toList_injective
    cases op <;> cases h <;> simp [fragment, Fragment.infixed, Operator.text, Parted.text]
  | apply => cases h
  | _ =>
    apply String.toList_injective
    cases h
    simp [fragment, Fragment.equals, Fragment.startsWith, Fragment.endsWith, Fragment.containsText,
      Parted.text]

theorem parted?_operator (h : s.parted? l.sql r.sql = some p) : p.operator ∈ negations := by
  induction s generalizing l r with
  | swapped s ih => exact ih h
  | infixed op => cases op <;> cases h <;> simp [negations]
  | apply => cases h
  | _ =>
    cases h
    simp [negations]

theorem parted?_isCut (h : s.parted? l.sql r.sql = some p)
    (hl : Ends Fragment.IsForeign l.sql.toList) (hr : Ends Fragment.IsForeign r.sql.toList) :
    p.IsCut := by
  have opened {f : Fragment} (hf : Ends Fragment.IsForeign f.sql.toList) :
      Ends Fragment.IsForeign ("(" ++ f.sql).toList := by
    rw [String.toList_append]
    exact hf.append _
  induction s generalizing l r with
  | swapped s ih => exact ih h hr hl
  | infixed op => cases op <;> cases h <;> exact opened hl
  | apply => cases h
  | _ =>
    cases h
    exact opened hl

end Setting

namespace TableMapping

variable {t : TableMapping} {e : Expr} {f : Fragment}

/-- The text of an expression ends with a bracket, a placeholder, a quotation or a zero. -/
theorem fragment_ends_foreign (h : t.fragment e = .ok f) :
    Ends Fragment.IsForeign f.sql.toList := by
  obtain ⟨c, hc, hp⟩ := fragment_prints h
  rw [hp.text]
  rcases clause_closes hc with ⟨z, hz, rfl | rfl⟩ | ⟨name, rfl⟩ | ⟨operand, d, _, _, rfl⟩
  · exact ⟨_, hz, by decide⟩
  · exact ⟨_, hz, by decide⟩
  · rw [Clause.write, Marked.text_ofString, quoteIdentifier, String.toList_ofList]
    exact Text.ends_append_singleton ('"' :: Text.Delimited.double '"' name.toList) (by decide)
  · have zero : Ends Fragment.IsForeign (Marked.ofString " = 0").text := ⟨'0', rfl, by decide⟩
    rw [Clause.write, Marked.text_append]
    exact zero.append _

end TableMapping

def Dyad.parted? (t : TableMapping) (o : Dyad) (x y : Expr) : Option Parted := do
  let s ← o.setting? t x y
  let l ← (t.fragment x).toOption
  let r ← (t.fragment y).toOption
  s.parted? l.sql r.sql

namespace TableMapping

def parted? (t : TableMapping) : Expr → Option Parted
  | .call method [x, y] => (Dyad.call method).parted? t x y
  | .invoke x method [y] => (Dyad.invoke method).parted? t x y
  | _ => none

variable {t : TableMapping} {e : Expr} {f : Fragment} {p : Parted}

theorem fragment_parted (hf : t.fragment e = .ok f) (h : t.parted? e = some p) :
    f.sql = p.text ∧ p.operator ∈ negations ∧ p.IsCut := by
  have dyad : ∃ (o : Dyad) (x y : Expr), e = o.expr x y ∧ o.parted? t x y = some p := by
    unfold parted? at h
    split at h
    · exact ⟨_, _, _, rfl, h⟩
    · exact ⟨_, _, _, rfl, h⟩
    · cases h
  obtain ⟨o, x, y, rfl, parted⟩ := dyad
  simp only [Dyad.parted?, Option.bind_eq_bind, Option.bind_eq_some_iff, toOption_eq_some] at parted
  obtain ⟨s, hs, l, hl, r, hr, parted⟩ := parted
  cases hf.symm.trans (Dyad.fragment_expr hl hr hs)
  exact ⟨Setting.parted?_text parted, Setting.parted?_operator parted,
    Setting.parted?_isCut parted (fragment_ends_foreign hl) (fragment_ends_foreign hr)⟩

theorem fragment_not (he : e.isCall) (hf : t.fragment e = .ok f) :
    t.fragment (.not e) = .ok f.negatedCall :=
  fragment_not_eq_ok.2 ⟨f, hf, .inr ⟨he, rfl⟩⟩

theorem compile_not_call (t : TableMapping) (e : Expr) (params : List Datum) (he : e.isCall) :
    match t.compile e params with
    | (.ok f, params') => ∃ g, t.compile (.not e) params = (.ok g, params') ∧ g.args = f.args ∧
        (g.sql = f.sql ↔ ∀ n ∈ negations, occurs n.1.toList f.sql.toList = false) ∧
        ∀ p, t.parted? e = some p → f.sql = p.text ∧ (g.sql = p.negated ↔ p.Alone)
    | (.error fault, params') => t.compile (.not e) params = (.error fault, params') := by
  cases hf : t.fragment e with
  | error fault =>
    have fails : t.fragment (.not e) = .error fault := by
      rw [fragment, hf]
      rfl
    simp only [compile, hf, fails]
  | ok f =>
    simp only [compile, hf, fragment_not he hf]
    refine ⟨_, rfl, rfl, Fragment.negatedText_eq_self_iff f.sql, fun p h => ?_⟩
    obtain ⟨text, operator, cut⟩ := fragment_parted hf h
    refine ⟨text, ?_⟩
    rw [Fragment.negatedCall, text]
    exact Parted.negatedText_eq_iff operator cut

theorem compile_not_call_notes :
    let e : Expr := .invoke (.field "Title") "starts_with" [.captured "s" (.text "a")]
    let p : Parted := ⟨"(\"title\"", (" like ", " not like "), "(? || '%'))"⟩
    e.isCall ∧ notes.parted? e = some p ∧ p.Alone ∧
      ∃ g, notes.compile (.not e) [] = (.ok g, [.text "a"]) ∧
        g.sql = "(\"title\" not like (? || '%'))" := by
  intro e p
  have parted : notes.parted? e = some p := rfl
  have alone : p.Alone := by decide
  obtain ⟨g, hg, _, _, own⟩ := compile_not_call notes e [] rfl
  exact ⟨rfl, parted, alone, g, hg, (own p parted).2.2 alone⟩

theorem negation_lost :
    (∃ f, notes.compile (.invoke (.field "Title") "to_lower" []) [] = (.ok f, []) ∧
      ∃ g, notes.compile (.not (.invoke (.field "Title") "to_lower" [])) [] = (.ok g, []) ∧
        g.sql = f.sql) ∧
    (∃ f, notes.compile (.call "abs" [.field "Id"]) [] = (.ok f, []) ∧
      ∃ g, notes.compile (.not (.call "abs" [.field "Id"])) [] = (.ok g, []) ∧ g.sql = f.sql) ∧
    let test : Expr := .invoke (.field "Title") "starts_with" [.constant (.text "a")]
    let e : Expr := .invoke test "equals" [.constant (.bool true)]
    ∃ g, notes.compile (.not e) [] = (.ok g, [.text "a", .integer 1]) ∧
      g.sql = "((\"title\" not like (? || '%')) = (?))" ∧
      notes.parted? e = some ⟨"((\"title\" like (? || '%'))", (" = ", " <> "), "(?))"⟩ := by
  refine ⟨⟨_, rfl, _, rfl, ?_⟩, ⟨_, rfl, _, rfl, ?_⟩, _, rfl, ?_, rfl⟩ <;> decide

end TableMapping

end Tabular
