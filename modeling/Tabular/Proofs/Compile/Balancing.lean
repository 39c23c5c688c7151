import Tabular.Proofs.Compile.Brackets
import Tabular.Proofs.Sql.Naming

namespace Tabular

open Sql (Balanced Operand Token depth isPlainName opened)
open Sql.Lexer (Completes Survives endsToken read? read?_join)
open Text (Replaced)

namespace Sql

def Token.isOutline : Token → Bool
  | .opening | .closing | .placeholder => true
  | _ => false

def outline (ks : List Token) : List Token := ks.filter Token.isOutline

variable {ks ls : List Token} {n m : Nat}

theorem depth_outline (d : Nat) (ks : List Token) : depth d (outline ks) = depth d ks := by
  induction ks generalizing d with
  | nil => rfl
  | cons k ks ih =>
    by_cases hk : k.isOutline
    · rw [outline, List.filter_cons_of_pos hk, depth, depth]
      exact congrArg _ (funext ih)
    · have same : k.depth d = some d := by cases k <;> first | rfl | exact absurd rfl hk
      rw [outline, List.filter_cons_of_neg hk, depth, same]
      exact ih d

theorem Balanced.of_outline (h : Balanced ks n) (ho : outline ks = outline ls) : Balanced ls n where
  depth_eq d := by rw [← depth_outline, ← ho, depth_outline, h.depth_eq]
  count_eq := by
    have count (ks : List Token) : (outline ks).count .placeholder = ks.count .placeholder :=
      List.count_filter rfl
    rw [← count, ← ho, count, h.count_eq]

theorem Balanced.append (hk : Balanced ks n) (hl : Balanced ls m) :
    Balanced (ks ++ ls) (n + m) where
  depth_eq d := by rw [depth_append, hk.depth_eq, Option.bind_some, hl.depth_eq]
  count_eq := by rw [List.count_append, hk.count_eq, hl.count_eq]

theorem Balanced.enclosed (h : Balanced ks n) (function : Option String) :
    Balanced (opened function ++ (ks ++ [.closing])) n where
  depth_eq d := by
    have closing : depth (d + 1) (ks ++ [.closing]) = some d := by
      rw [depth_append, h.depth_eq]
      rfl
    cases function <;> exact closing
  count_eq := by
    have closing : (ks ++ [Token.closing]).count .placeholder = n := by
      rw [List.count_append, h.count_eq]
      rfl
    cases function <;> simpa [opened] using closing

theorem balanced_operator (op : Operator) : Balanced op.tokens 0 := by
  cases op <;> exact ⟨fun _ => rfl, rfl⟩

def IsBalanced (cs : List Char) (places : Nat) : Prop :=
  ∃ ks, read? cs = some ks ∧ Balanced ks places

def IsEnclosed (cs : List Char) (places : Nat) : Prop :=
  ∃ (function : Option String) (inner : List Char),
    (∀ f ∈ function, isPlainName f ∧ f ≠ "not") ∧
    cs = function.elim [] String.toList ++ '(' :: (inner ++ [')']) ∧ IsBalanced inner places

variable {cs ds : List Char}

theorem IsBalanced.join {sep : List Char} {seps : List Token} (hc : IsBalanced cs n)
    (hd : IsBalanced ds m) (hs : Completes sep seps) (he : sep.head?.any endsToken)
    (hb : Balanced seps 0) : IsBalanced (cs ++ (sep ++ ds)) (n + m) := by
  obtain ⟨ks, hk, balanced⟩ := hc
  obtain ⟨ls, hl, balanced'⟩ := hd
  exact ⟨_, read?_join hs he hk hl, by simpa using balanced.append (hb.append balanced')⟩

theorem IsEnclosed.operand (h : IsEnclosed cs n) : ∃ ks, read? cs = some ks ∧ Operand ks n := by
  obtain ⟨function, inner, hf, rfl, ks, hk, balanced⟩ := h
  have brackets := Lexer.read?_brackets hk
  cases function with
  | none => exact ⟨_, brackets, .enclosed none (by simp) balanced⟩
  | some f =>
    obtain ⟨plain, named⟩ := hf f rfl
    have called := Lexer.read?_append (Lexer.read?_plainName plain) (c := '(') rfl (inner ++ [')'])
    rw [brackets, Option.map_some] at called
    exact ⟨_, called, .enclosed (some f) (by simpa using named) balanced⟩

theorem Operand.balanced (h : Operand ks n) : Balanced ks n := by
  cases h with
  | @simple k _ hk count =>
    refine ⟨fun d => ?_, count⟩
    cases k <;> first | rfl | cases hk
  | enclosed function _ balanced => exact balanced.enclosed function

theorem IsEnclosed.isBalanced (h : IsEnclosed cs n) : IsBalanced cs n := by
  obtain ⟨ks, hk, operand⟩ := h.operand
  exact ⟨ks, hk, operand.balanced⟩

theorem IsBalanced.brackets (h : IsBalanced cs n) : IsEnclosed ('(' :: (cs ++ [')'])) n :=
  ⟨none, cs, by simp, rfl, h⟩

theorem IsBalanced.apply (h : IsBalanced cs n) {function : String} (hp : isPlainName function)
    (hn : function ≠ "not") : IsEnclosed (function.toList ++ '(' :: (cs ++ [')'])) n :=
  ⟨some function, cs, by simpa using ⟨hp, hn⟩, rfl, h⟩

section Negation

variable {op : String × String}

theorem survives_outline (h : op ∈ Fragment.negations) :
    Survives op.1.toList op.2.toList fun ks ls => outline ks = outline ls where
  refl _ := rfl
  append hk hl := by
    rw [outline, outline, List.filter_append, List.filter_append]
    exact congrArg₂ _ hk hl
  quoted q _ := by
    unfold Lexer.quoted
    split <;> rfl
  swapped {ops news} ho hn := by
    have flat : (Fragment.negations.all fun op => [op.1, op.2].all fun s =>
        (Lexer.run .between s.toList).all fun r => (outline r.1).isEmpty) = true := by decide
    have flat := List.all_eq_true.1 flat op h
    rw [Completes] at ho hn
    have flat : outline ops = [] ∧ outline news = [] := by simpa [ho, hn] using flat
    rw [flat.1, flat.2]

theorem IsBalanced.replaced (h : IsBalanced cs n) (ho : op ∈ Fragment.negations)
    (hr : Replaced op.1.toList op.2.toList cs ds) : IsBalanced ds n := by
  obtain ⟨ks, hk, balanced⟩ := h
  obtain ⟨ls, hl, same⟩ :=
    Lexer.read?_replaced (swaps_of_mem_negations ho) (survives_outline ho) hr hk
  exact ⟨ls, hl, balanced.of_outline same⟩

theorem IsEnclosed.replaced (h : IsEnclosed cs n) (ho : op ∈ Fragment.negations)
    (hr : Replaced op.1.toList op.2.toList cs ds) : IsEnclosed ds n := by
  obtain ⟨function, inner, hf, rfl, balanced⟩ := h
  have apart : (Fragment.negations.all fun op => op.1.toList.contains ' ' &&
      op.1.toList.all fun c => c != '(' && c != ')') = true := by decide
  have apart := List.all_eq_true.1 apart op ho
  simp only [Bool.and_eq_true, List.contains_iff_mem] at apart
  have no_opening : '(' ∉ op.1.toList := fun hc => by simpa using List.all_eq_true.1 apart.2 _ hc
  have no_closing : ')' ∉ op.1.toList := fun hc => by simpa using List.all_eq_true.1 apart.2 _ hc
  obtain ⟨front, rest, rfl, hfront, hrest⟩ := hr.cut no_opening rfl
  obtain ⟨inner', last, rfl, hinner, hlast⟩ := hrest.cut no_closing rfl
  -- The name of the function has no blanks, so that no operator is in it.
  have blank : ' ' ∉ function.elim [] String.toList := by
    cases function with
    | none => simp
    | some f => exact fun hc => absurd (isAlphanum_of_mem (hf f rfl).1 hc) (by decide)
  cases hfront.eq_of_not_mem apart.1 blank
  cases hlast.eq_of_not_mem apart.1 (by simp)
  exact ⟨function, inner', hf, rfl, balanced.replaced ho hinner⟩

end Negation

end Sql

namespace Clause

open Sql (IsBalanced IsEnclosed)

theorem balanced_separated (texts : List Marked)
    (h : ∀ ms ∈ texts, IsBalanced ms.text ms.args.length) :
    IsBalanced (separated texts).text (separated texts).args.length := by
  have comma : Completes [','] [.comma] := by decide
  induction texts with
  | nil => exact ⟨[], rfl, fun _ => rfl, rfl⟩
  | cons a texts ih =>
    have ha := h a (by simp)
    have ih := ih fun ms hms => h ms (by simp [hms])
    cases texts with
    | nil => simpa [separated] using ha
    | cons b texts => simpa [separated] using ha.join ih comma rfl ⟨fun _ => rfl, rfl⟩

theorem balanced_of_enclosed {cs : List Char} {n : Nat} {p : Prop} (h : IsEnclosed cs n) :
    IsBalanced cs n ∧ (p → IsEnclosed cs n) :=
  ⟨h.isBalanced, fun _ => h⟩

theorem balanced_write {c : Clause} (hp : c.CallsOnly fun f => isPlainName f)
    (hn : c.CallsOnly fun f => f ≠ "not") :
    IsBalanced c.write.text c.write.args.length ∧
      (c.isEnclosed → IsEnclosed c.write.text c.write.args.length) := by
  induction c using Clause.induction with
  | datum d => exact ⟨⟨[.placeholder], rfl, fun _ => rfl, rfl⟩, fun h => by cases h⟩
  | list ds =>
    have items := balanced_separated (ds.map fun d => [.datum d]) fun ms hms => by
      obtain ⟨d, _, rfl⟩ := List.mem_map.1 hms
      exact ⟨[.placeholder], rfl, fun _ => rfl, rfl⟩
    exact balanced_of_enclosed (by simpa using items.brackets)
  | column name =>
    refine ⟨⟨[.name name], ?_, fun _ => rfl, by simp⟩, fun h => by cases h⟩
    simpa using Sql.Lexer.read?_quoteIdentifier name
  | literal s =>
    refine ⟨⟨[.literal s], ?_, fun _ => rfl, by simp⟩, fun h => by cases h⟩
    simpa using Sql.Lexer.read?_quoteLiteral s
  | brackets c ih => exact balanced_of_enclosed (by simpa using (ih hp hn).1.brackets)
  | infixed op left right ihl ihr =>
    have inner := (ihl hp.1 hn.1).1.join (ihr hp.2 hn.2).1 (Sql.Lexer.completes_operator op)
      (Sql.Lexer.endsToken_operator op) (Sql.balanced_operator op)
    exact balanced_of_enclosed (by simpa using inner.brackets)
  | anywhere part ih =>
    have percent : IsBalanced "'%'".toList 0 := ⟨[.literal "%"], by decide, fun _ => rfl, rfl⟩
    have concat : Completes " || ".toList [.concat] := by decide
    have plain : Balanced [.concat] 0 := ⟨fun _ => rfl, rfl⟩
    have inner := percent.join ((ih hp hn).1.join percent concat rfl plain) concat rfl plain
    exact balanced_of_enclosed (by simpa using inner.brackets)
  | apply function args ih =>
    have items := balanced_separated (args.map write) fun ms hms => by
      obtain ⟨a, ha, rfl⟩ := List.mem_map.1 hms
      exact (ih a ha (callOnly_iff.1 hp.2 a ha) (callOnly_iff.1 hn.2 a ha)).1
    exact balanced_of_enclosed (by simpa [writeAll_eq_map] using items.apply hp.1 hn.1)
  | isFalse c ih =>
    have zero : IsBalanced "0".toList 0 := ⟨[.number 0], by decide, fun _ => rfl, rfl⟩
    have equals : Completes " = ".toList [.eq] := by decide
    have test := (ih hp hn).1.join zero equals rfl ⟨fun _ => rfl, rfl⟩
    exact ⟨by simpa using test, fun h => by cases h⟩
  | negated c ih =>
    obtain ⟨balanced, enclosed⟩ := ih hp hn
    rw [write, Marked.args_negated]
    rcases Marked.text_negated_cases c.write with same | ⟨op, ho, hr⟩
    · rw [same]
      exact ⟨balanced, enclosed⟩
    · exact ⟨balanced.replaced ho hr, fun h => (enclosed h).replaced ho hr⟩

theorem operand_write {c : Clause} (hp : c.CallsOnly fun f => isPlainName f)
    (hn : c.CallsOnly fun f => f ≠ "not") (h : c.isOperand) :
    ∃ ks, read? c.write.text = some ks ∧ Operand ks c.write.args.length := by
  cases c with
  | datum d => exact ⟨[.placeholder], rfl, .simple rfl rfl⟩
  | column name =>
    exact ⟨[.name name], by simpa using Sql.Lexer.read?_quoteIdentifier name, .simple rfl (by simp)⟩
  | _ => exact ((balanced_write hp hn).2 h).operand

end Clause

end Tabular
