import Tabular.Proofs.Compile.Brackets
import Tabular.Proofs.Compile.Grouping

/-! Operands in a longer text. An operand that is a single token, stands in brackets or is the call
of a function is read wherever a term may stand as it is read by itself. -/

namespace Tabular

open Clause (enclosed)
open Sql (Operator Term Token)

/-- What stands around an operand: the arguments before and after its own, and what waits for it or
for a bracket to be closed. -/
structure Frame where
  before : List Datum
  args : List Datum
  after : List Datum
  waiting : List Sql.Parser.Waiting
  brackets : List Sql.Parser.Bracket

namespace Frame

open Sql (Balanced Operand depth opened)
open Sql.Parser (Bracket Moves Phase State Waiting moves_of_step pushOperator run settle settleAll
  step)

variable {F : Frame} {t t' u u' : Term} {ts ts' : List Term} {ws ws' : List Waiting}
  {s s' s₁ : State} {k : Token} {ks : List Token} {d e : Nat}

def Same (F : Frame) (t t' : Term) : Prop :=
  t.tree F.args = t'.tree (F.before ++ (F.args ++ F.after))

inductive Waits (F : Frame) : Waiting → Waiting → Prop
  | before (op : Operator) {t t' : Term} : F.Same t t' → F.Waits ⟨t, op⟩ ⟨t', op⟩

inductive Opens (F : Frame) : List Bracket → List Bracket → Prop
  | outermost (function : Option String) {items items' : List Term} :
      List.Forall₂ F.Same items items' →
      F.Opens [⟨function, [], items⟩] (⟨function, F.waiting, items'⟩ :: F.brackets)
  | inner (function : Option String) {outside outside' : List Waiting} {items items' : List Term}
      {bs bs' : List Bracket} : List.Forall₂ F.Waits outside outside' →
      List.Forall₂ F.Same items items' → F.Opens bs bs' →
      F.Opens (⟨function, outside, items⟩ :: bs) (⟨function, outside', items'⟩ :: bs')

inductive Expects (F : Frame) : Phase → Phase → Prop
  | term : F.Expects .term .term
  | arguments (function : String) : F.Expects (.arguments function) (.arguments function)
  | operator {t t' : Term} : F.Same t t' → F.Expects (.operator t) (.operator t')
  | negated {t t' : Term} : F.Same t t' → F.Expects (.negated t) (.negated t')

/-- The parser inside an operand, and in the same place of the whole text. -/
structure Follows (F : Frame) (s s' : State) : Prop where
  brackets : F.Opens s.brackets s'.brackets
  waiting : List.Forall₂ F.Waits s.waiting s'.waiting
  phase : F.Expects s.phase s'.phase
  places : s'.places = F.before.length + s.places

theorem Same.binary (op : Operator) (ht : F.Same t t') (hu : F.Same u u') :
    F.Same (.binary op t u) (.binary op t' u') := by
  unfold Same at *
  rw [Term.tree, Term.tree, ht, hu]

theorem trees_eq (h : List.Forall₂ F.Same ts ts') :
    Term.trees F.args ts = Term.trees (F.before ++ (F.args ++ F.after)) ts' := by
  induction h with
  | nil => rfl
  | cons ht _ ih => rw [Term.trees, Term.trees, ht, ih]

theorem same_enclosed (function : Option String) (h : List.Forall₂ F.Same ts ts') :
    F.Same (enclosed function ts) (enclosed function ts') := by
  unfold Same
  cases function <;> rw [enclosed, enclosed, Term.tree, Term.tree, trees_eq h]

theorem same_simple {p : Nat} (ht : k.simple? p = some t)
    (hp : p + [k].count .placeholder ≤ F.args.length) :
    ∃ t', k.simple? (F.before.length + p) = some t' ∧ F.Same t t' := by
  cases k with
  | placeholder =>
    cases ht
    have inside : p < F.args.length := by simpa [Nat.add_one_le_iff] using hp
    refine ⟨_, rfl, ?_⟩
    simp [Same, Term.tree, List.getElem?_append_right, List.getElem?_append_left inside]
  | name | literal | number =>
    cases ht
    exact ⟨_, rfl, rfl⟩
  | _ => cases ht

theorem settle_same (level : Nat) (hw : List.Forall₂ F.Waits ws ws') (ht : F.Same t t') :
    List.Forall₂ F.Waits (settle level ws t).1 (settle level ws' t').1 ∧
      F.Same (settle level ws t).2 (settle level ws' t').2 := by
  induction hw generalizing t t' with
  | nil => exact ⟨.nil, ht⟩
  | cons h hw ih =>
    obtain ⟨op, left⟩ := h
    rw [settle, settle]
    split
    · exact ih (left.binary op ht)
    · exact ⟨.cons (.before op left) hw, ht⟩

theorem settleAll_same (hw : List.Forall₂ F.Waits ws ws') (ht : F.Same t t') :
    F.Same (settleAll ws t) (settleAll ws' t') :=
  (settle_same 0 hw ht).2

theorem follows_pushOperator {bs bs' : List Bracket} (hb : F.Opens bs bs')
    (hw : List.Forall₂ F.Waits ws ws') (ht : F.Same t t') (op : Operator) (phase phase' : Phase)
    (p : Nat) :
    F.Follows (pushOperator ⟨bs, ws, phase, p⟩ t op)
      (pushOperator ⟨bs', ws', phase', F.before.length + p⟩ t' op) := by
  obtain ⟨waiting, left⟩ := settle_same op.level hw ht
  exact ⟨hb, .cons (.before op left) waiting, .term, rfl⟩

theorem follows_of_moves (h : F.Follows s s') (hm : Moves s k s₁) (hb : s₁.brackets ≠ [])
    (hp : s.places + [k].count .placeholder ≤ F.args.length) :
    ∃ s₁', Moves s' k s₁' ∧ F.Follows s₁ s₁' := by
  obtain ⟨bs', ws', phase', p'⟩ := s'
  obtain ⟨brackets, waiting, phase, rfl⟩ := h
  dsimp only at *
  cases hm with
  | simple hk =>
    cases phase
    obtain ⟨t', hk', same⟩ := same_simple hk hp
    exact ⟨_, .simple hk', brackets, waiting, .operator same, Nat.add_assoc ..⟩
  | opening bs ws p =>
    cases phase
    exact ⟨_, .opening bs' ws' _, .inner none waiting .nil brackets, .nil, .term, rfl⟩
  | function bs ws p hf =>
    cases phase
    exact ⟨_, .function bs' ws' _ hf, brackets, waiting, .arguments _, rfl⟩
  | arguments bs ws p f =>
    cases phase
    exact ⟨_, .arguments bs' ws' _ f, .inner (some f) waiting .nil brackets, .nil, .term, rfl⟩
  | isNot bs ws p t =>
    cases phase
    obtain _ | ⟨⟨_, same⟩, waiting⟩ := waiting
    exact ⟨_, .isNot bs' _ _ _, brackets, .cons (.before .isNot same) waiting, .term, rfl⟩
  | empty f outside bs p =>
    cases phase
    cases waiting
    -- The outermost bracket would leave none open.
    obtain _ | ⟨_, outside, items, brackets⟩ := brackets
    · exact absurd rfl hb
    cases items
    exact ⟨_, .empty f _ _ _, brackets, outside, .operator (same_enclosed f .nil), rfl⟩
  | comma f outside items bs ws t p =>
    obtain _ | _ | same | _ := phase
    have settled := settleAll_same waiting same
    obtain ⟨_, items⟩ | ⟨_, outside, items, brackets⟩ := brackets
    · exact ⟨_, .comma f _ _ _ _ _ _, .outermost f (.cons settled items), .nil, .term, rfl⟩
    · exact ⟨_, .comma f _ _ _ _ _ _, .inner f outside (.cons settled items) brackets, .nil, .term,
        rfl⟩
  | closing f outside items bs ws t p =>
    obtain _ | _ | same | _ := phase
    have settled := settleAll_same waiting same
    obtain _ | ⟨_, outside, items, brackets⟩ := brackets
    · exact absurd rfl hb
    have whole := same_enclosed f (List.rel_reverse (.cons settled items))
    exact ⟨_, .closing f _ _ _ _ _ _, brackets, outside, .operator whole, rfl⟩
  | operator bs ws t p hk =>
    obtain _ | _ | same | _ := phase
    exact ⟨_, .operator bs' ws' _ _ hk, follows_pushOperator brackets waiting same _ _ _ p⟩
  | not bs ws t p =>
    obtain _ | _ | same | _ := phase
    exact ⟨_, .not bs' ws' _ _, brackets, waiting, .negated same, rfl⟩
  | notIn bs ws t p =>
    obtain _ | _ | _ | same := phase
    exact ⟨_, .notIn bs' ws' _ _, follows_pushOperator brackets waiting same .notIn _ _ p⟩
  | notLike bs ws t p =>
    obtain _ | _ | _ | same := phase
    exact ⟨_, .notLike bs' ws' _ _, follows_pushOperator brackets waiting same .notLike _ _ p⟩

/-- Balanced tokens never close the bracket of the operand, so that the two runs stay together. -/
theorem follows_of_run (h : F.Follows s s') (hd : depth d ks = some e)
    (hl : s.brackets.length = d + 1) (hp : s.places + ks.count .placeholder ≤ F.args.length)
    (hr : run s ks = some s₁) : ∃ s₁', run s' ks = some s₁' ∧ F.Follows s₁ s₁' := by
  induction ks generalizing s s' d with
  | nil =>
    cases hr
    exact ⟨s', rfl, h⟩
  | cons k ks ih =>
    obtain ⟨d', hk, hd⟩ := Option.bind_eq_some_iff.1 hd
    obtain ⟨s₂, hs, hr⟩ := Option.bind_eq_some_iff.1 hr
    have moves := moves_of_step hs
    obtain ⟨length, places⟩ := moves.counts
    rw [hl, Sql.Token.depth_succ hk, Option.some.injEq] at length
    rw [← List.singleton_append, List.count_append, ← Nat.add_assoc, ← places] at hp
    have open_left : s₂.brackets ≠ [] := List.ne_nil_of_length_pos (by omega)
    obtain ⟨s₂', moves', h⟩ := follows_of_moves h moves open_left (by omega)
    obtain ⟨s₁', hr', h⟩ := ih h hd length.symm hp hr
    exact ⟨s₁', by rw [run, moves'.step, Option.bind_some, hr'], h⟩

theorem moves_closing (h : F.Follows s s') (hl : s.brackets.length = 1)
    (hm : Moves s .closing s₁) :
    ∃ t t', s₁ = ⟨[], [], .operator t, s.places⟩ ∧ F.Same t t' ∧
      Moves s' .closing ⟨F.brackets, F.waiting, .operator t', F.before.length + s.places⟩ := by
  obtain ⟨bs', ws', phase', p'⟩ := s'
  obtain ⟨brackets, waiting, phase, rfl⟩ := h
  cases hm with
  | simple hk => cases hk
  | operator _ _ _ _ hk => cases hk
  | empty f =>
    cases phase
    cases waiting
    obtain ⟨_, items⟩ | ⟨_, _, _, brackets⟩ := brackets
    · cases items
      exact ⟨_, _, rfl, same_enclosed f .nil, .empty f _ _ _⟩
    · cases brackets <;> cases hl
  | closing f =>
    obtain _ | _ | same | _ := phase
    obtain ⟨_, items⟩ | ⟨_, _, _, brackets⟩ := brackets
    · have settled := settleAll_same waiting same
      exact ⟨_, _, rfl, same_enclosed f (List.rel_reverse (.cons settled items)),
        .closing f _ _ _ _ _ _⟩
    · cases brackets <;> cases hl

theorem run_operand (F : Frame) (h : Operand ks F.args.length)
    (hr : Sql.Parser.read? ks = some t) :
    ∃ t', run ⟨F.brackets, F.waiting, .term, F.before.length⟩ ks =
        some ⟨F.brackets, F.waiting, .operator t', F.before.length + F.args.length⟩ ∧
      F.Same t t' := by
  obtain ⟨s, hs, hr⟩ := Option.bind_eq_some_iff.1 hr
  generalize hn : F.args.length = n at h
  cases h with
  | @simple k _ hk count =>
    obtain ⟨u, hu⟩ := Option.isSome_iff_exists.1 hk
    have own : step ⟨[], [], .term, 0⟩ k = some _ := (Moves.simple hu).step
    obtain ⟨_, first, rest⟩ := Option.bind_eq_some_iff.1 hs
    cases rest
    cases own.symm.trans first
    cases hr
    obtain ⟨t', hk', same⟩ := same_simple (F := F) hu (by rw [count, hn, Nat.zero_add])
    have framed : step ⟨F.brackets, F.waiting, .term, F.before.length⟩ k = some _ :=
      (Moves.simple hk').step
    exact ⟨t', by rw [run, framed, count]; rfl, same⟩
  | @enclosed ks _ function hf balanced =>
    have hs : run ⟨[], [], .term, 0⟩ (opened function ++ (ks ++ [.closing])) = some s := hs
    rw [Sql.Parser.run_opened hf, Sql.Parser.run_append] at hs
    obtain ⟨s₁, inner, closing⟩ := Option.bind_eq_some_iff.1 hs
    obtain ⟨s₂, closing, hs⟩ := Option.bind_eq_some_iff.1 closing
    cases hs
    have start : F.Follows ⟨[⟨function, [], []⟩], [], .term, 0⟩
        ⟨⟨function, F.waiting, []⟩ :: F.brackets, [], .term, F.before.length⟩ :=
      ⟨.outermost function .nil, .nil, .term, rfl⟩
    have places : 0 + ks.count .placeholder ≤ F.args.length := by
      rw [balanced.count_eq, hn, Nat.zero_add]
    obtain ⟨s₁', inner', follows⟩ := follows_of_run start (balanced.depth_eq 0) rfl places inner
    obtain ⟨length, counted⟩ := Sql.Parser.run_counts (balanced.depth_eq 0) rfl inner
    obtain ⟨u, t', rfl, same, moves⟩ := moves_closing follows length (moves_of_step closing)
    cases hr
    refine ⟨t', ?_, same⟩
    rw [Sql.Parser.run_opened hf, Sql.Parser.run_append, inner', Option.bind_some, run, moves.step,
      counted, balanced.count_eq, Nat.zero_add]
    rfl

end Frame

end Tabular
