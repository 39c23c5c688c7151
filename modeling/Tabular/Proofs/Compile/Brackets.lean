import Tabular.Proofs.Compile.Parsing

namespace Tabular

open Clause (enclosed)
open Sql (Operator Term Token)

namespace Sql

/-- How deep in brackets a token leaves off. No bracket may be closed that was not opened, but
commas may stand anywhere. -/
def Token.depth : Token → Nat → Option Nat
  | .opening, d => some (d + 1)
  | .closing, 0 => none
  | .closing, d + 1 => some d
  | _, d => some d

def depth (d : Nat) : List Token → Option Nat
  | [] => some d
  | k :: ks => (k.depth d).bind fun e => depth e ks

/-- Every bracket that is opened is closed, and so many placeholders are in the tokens. -/
structure Balanced (ks : List Token) (places : Nat) : Prop where
  depth_eq : ∀ d, depth d ks = some d
  count_eq : ks.count .placeholder = places

def Token.simple? (p : Nat) : Token → Option Term
  | .placeholder => some (.placeholder p)
  | .name s => some (.name s)
  | .literal s => some (.literal s)
  | .number n => some (.number n)
  | _ => none

def opened : Option String → List Token
  | some f => [.word f, .opening]
  | none => [.opening]

inductive Operand : List Token → Nat → Prop
  | simple {k : Token} {n : Nat} : (k.simple? 0).isSome → [k].count .placeholder = n → Operand [k] n
  | enclosed {ks : List Token} {n : Nat} (function : Option String) : function ≠ some "not" →
      Balanced ks n → Operand (opened function ++ (ks ++ [.closing])) n

variable {k : Token} {ks ls : List Token} {d e n m : Nat}

theorem depth_append : depth d (ks ++ ls) = (depth d ks).bind fun e => depth e ls := by
  induction ks generalizing d with
  | nil => rfl
  | cons k ks ih =>
    simp only [List.cons_append, depth]
    cases k.depth d with
    | none => rfl
    | some e => exact ih

theorem Token.depth_succ (h : k.depth d = some e) : k.depth (d + 1) = some (e + 1) := by
  cases k <;> cases d <;> cases h <;> rfl

namespace Parser

variable {s s₁ : State}

theorem closeBracket_eq_some {items : List Term} (h : closeBracket s items = some s₁) :
    ∃ b bs, s.brackets = b :: bs ∧
      s₁ = ⟨bs, b.outside, .operator (enclosed b.function items), s.places⟩ := by
  unfold closeBracket at h
  split at h
  · cases h
  · next b bs hb =>
    cases h
    refine ⟨b, bs, hb, ?_⟩
    cases b.function <;> rfl

/-- What the parser does at a token. -/
inductive Moves : State → Token → State → Prop
  | simple {bs : List Bracket} {ws : List Waiting} {p : Nat} {k : Token} {t : Term} :
      k.simple? p = some t →
      Moves ⟨bs, ws, .term, p⟩ k ⟨bs, ws, .operator t, p + [k].count .placeholder⟩
  | opening (bs : List Bracket) (ws : List Waiting) (p : Nat) :
      Moves ⟨bs, ws, .term, p⟩ .opening ⟨⟨none, ws, []⟩ :: bs, [], .term, p⟩
  | function (bs : List Bracket) (ws : List Waiting) (p : Nat) {f : String} : f ≠ "not" →
      Moves ⟨bs, ws, .term, p⟩ (.word f) ⟨bs, ws, .arguments f, p⟩
  | arguments (bs : List Bracket) (ws : List Waiting) (p : Nat) (f : String) :
      Moves ⟨bs, ws, .arguments f, p⟩ .opening ⟨⟨some f, ws, []⟩ :: bs, [], .term, p⟩
  | isNot (bs : List Bracket) (ws : List Waiting) (p : Nat) (t : Term) :
      Moves ⟨bs, ⟨t, .is⟩ :: ws, .term, p⟩ (.word "not") ⟨bs, ⟨t, .isNot⟩ :: ws, .term, p⟩
  | empty (f : Option String) (outside : List Waiting) (bs : List Bracket) (p : Nat) :
      Moves ⟨⟨f, outside, []⟩ :: bs, [], .term, p⟩ .closing
        ⟨bs, outside, .operator (enclosed f []), p⟩
  | comma (f : Option String) (outside : List Waiting) (items : List Term) (bs : List Bracket)
      (ws : List Waiting) (t : Term) (p : Nat) :
      Moves ⟨⟨f, outside, items⟩ :: bs, ws, .operator t, p⟩ .comma
        ⟨⟨f, outside, settleAll ws t :: items⟩ :: bs, [], .term, p⟩
  | closing (f : Option String) (outside : List Waiting) (items : List Term) (bs : List Bracket)
      (ws : List Waiting) (t : Term) (p : Nat) :
      Moves ⟨⟨f, outside, items⟩ :: bs, ws, .operator t, p⟩ .closing
        ⟨bs, outside, .operator (enclosed f (settleAll ws t :: items).reverse), p⟩
  | operator (bs : List Bracket) (ws : List Waiting) (t : Term) (p : Nat) {k : Token}
      {op : Operator} : operator? k = some op →
      Moves ⟨bs, ws, .operator t, p⟩ k (pushOperator ⟨bs, ws, .operator t, p⟩ t op)
  | not (bs : List Bracket) (ws : List Waiting) (t : Term) (p : Nat) :
      Moves ⟨bs, ws, .operator t, p⟩ (.word "not") ⟨bs, ws, .negated t, p⟩
  | notIn (bs : List Bracket) (ws : List Waiting) (t : Term) (p : Nat) :
      Moves ⟨bs, ws, .negated t, p⟩ (.word "in")
        (pushOperator ⟨bs, ws, .negated t, p⟩ t .notIn)
  | notLike (bs : List Bracket) (ws : List Waiting) (t : Term) (p : Nat) :
      Moves ⟨bs, ws, .negated t, p⟩ (.word "like")
        (pushOperator ⟨bs, ws, .negated t, p⟩ t .notLike)

theorem Moves.step (h : Moves s k s₁) : step s k = some s₁ := by
  cases h with
  | @simple bs ws p k t hk => cases k <;> cases hk <;> rfl
  | function _ _ _ hf => simp [Parser.step, stepTerm, hf]
  | empty f => cases f <;> rfl
  | closing f => cases f <;> rfl
  | @operator bs ws t p k op hk =>
    have hn : k ≠ .word "not" := by
      rintro rfl
      simp [operator?] at hk
    simp only [Parser.step]
    unfold stepOperator
    split
    · cases hk
    · cases hk
    · rw [if_neg hn, hk, Option.map_some]
  | _ => rfl

theorem moves_of_stepTerm {bs : List Bracket} {ws : List Waiting} {p : Nat}
    (h : stepTerm ⟨bs, ws, .term, p⟩ k = some s₁) : Moves ⟨bs, ws, .term, p⟩ k s₁ := by
  cases k with
  | placeholder | name | literal | number =>
    cases h
    exact .simple rfl
  | opening =>
    cases h
    exact .opening bs ws p
  | word f =>
    simp only [stepTerm] at h
    split at h
    · next hf =>
      subst hf
      split at h <;> cases h
      exact .isNot bs _ p _
    · next hf =>
      cases h
      exact .function bs ws p hf
  | closing =>
    simp only [stepTerm] at h
    split at h
    · next f outside bs =>
      obtain ⟨_, _, hb, rfl⟩ := closeBracket_eq_some h
      cases hb
      exact .empty f outside bs p
    · cases h
  | _ => cases h

theorem moves_of_stepOperator {bs : List Bracket} {ws : List Waiting} {t : Term} {p : Nat}
    (h : stepOperator ⟨bs, ws, .operator t, p⟩ t k = some s₁) :
    Moves ⟨bs, ws, .operator t, p⟩ k s₁ := by
  unfold stepOperator at h
  split at h
  · split at h
    · cases h
    · next b bs hb =>
      cases hb
      cases h
      exact .comma b.function b.outside b.items bs ws t p
  · split at h
    · cases h
    · next b bs hb =>
      cases hb
      obtain ⟨_, _, hb, rfl⟩ := closeBracket_eq_some h
      cases hb
      exact .closing b.function b.outside b.items bs ws t p
  · split at h
    · next hk =>
      cases h
      exact hk ▸ .not bs ws t p
    · obtain ⟨op, hk, rfl⟩ := Option.map_eq_some_iff.1 h
      exact .operator bs ws t p hk

theorem moves_of_step (h : step s k = some s₁) : Moves s k s₁ := by
  obtain ⟨bs, ws, phase, p⟩ := s
  cases phase with
  | term => exact moves_of_stepTerm h
  | operator t => exact moves_of_stepOperator h
  | arguments f =>
    simp only [Parser.step] at h
    split at h
    · next hk =>
      cases h
      exact hk ▸ .arguments bs ws p f
    · cases h
  | negated t =>
    simp only [Parser.step] at h
    split at h
    · next hk =>
      cases h
      exact hk ▸ .notIn bs ws t p
    split at h
    · next hk =>
      cases h
      exact hk ▸ .notLike bs ws t p
    · cases h

theorem Moves.counts (h : Moves s k s₁) :
    k.depth s.brackets.length = some s₁.brackets.length ∧
      s₁.places = s.places + [k].count .placeholder := by
  cases h with
  | @simple _ _ _ k _ hk => cases k <;> first | cases hk; done | exact ⟨rfl, rfl⟩
  | @operator _ _ _ _ k _ hk => cases k <;> first | exact ⟨rfl, rfl⟩ | cases hk
  | _ => exact ⟨rfl, rfl⟩

theorem run_opened {function : Option String} (hf : function ≠ some "not") (bs : List Bracket)
    (ws : List Waiting) (p : Nat) (ks : List Token) :
    run ⟨bs, ws, .term, p⟩ (opened function ++ ks) =
      run ⟨⟨function, ws, []⟩ :: bs, [], .term, p⟩ ks := by
  cases function with
  | none => rfl
  | some f =>
    have hf : f ≠ "not" := by simpa using hf
    have called := (Moves.function bs ws p hf).step
    have opening := (Moves.arguments bs ws p f).step
    simp [opened, run, called, opening]

theorem run_counts (hd : depth d ks = some e) (hl : s.brackets.length = d + 1)
    (h : run s ks = some s₁) :
    s₁.brackets.length = e + 1 ∧ s₁.places = s.places + ks.count .placeholder := by
  induction ks generalizing s d with
  | nil =>
    cases hd
    cases h
    exact ⟨hl, rfl⟩
  | cons k ks ih =>
    obtain ⟨d', hk, hd⟩ := Option.bind_eq_some_iff.1 hd
    obtain ⟨s', hs, h⟩ := Option.bind_eq_some_iff.1 h
    obtain ⟨length, places⟩ := (moves_of_step hs).counts
    rw [hl, Token.depth_succ hk, Option.some.injEq] at length
    obtain ⟨length', places'⟩ := ih hd length.symm h
    refine ⟨length', ?_⟩
    rw [places', places, Nat.add_assoc, ← List.count_append, List.singleton_append]

end Parser

end Sql

end Tabular
