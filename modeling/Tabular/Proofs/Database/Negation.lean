import Tabular.Proofs.Database.Equality

namespace Tabular

open Sql (Operator Term)
open Sql.Term (joined)

def Sql.Operator.negation? : Operator → Option Operator
  | .like => some .notLike
  | .isIn => some .notIn
  | .eq => some .ne
  | _ => none

namespace Database

/-- Evaluations that fail alike, or come to opposite truths. The opposite of null is null. -/
inductive Opposite : Except Refusal Datum → Except Refusal Datum → Prop
  | failed (refusal : Refusal) : Opposite (.error refusal) (.error refusal)
  | decided {d e : Datum} : d.truth = e.truth.map (!·) → Opposite (.ok d) (.ok e)

theorem Opposite.bind {α : Type} (x : Except Refusal α) {f g : α → Except Refusal Datum}
    (h : ∀ a, x = .ok a → Opposite (f a) (g a)) : Opposite (x >>= f) (x >>= g) := by
  cases x with
  | error refusal => exact .failed refusal
  | ok a => exact h a rfl

theorem truth_negatedIf (found : Option Bool) :
    (negatedIf .notIn found).truth = (negatedIf .isIn found).truth.map (!·) := by
  simp [negatedIf, truth_ofTruth]

variable {db : Database} {op neg : Operator} {s : Scope} {left right : Term}

theorem Scope.operate_opposite (h : op.negation? = some neg) (hm : op ≠ .isIn) (d e : Datum) :
    Opposite (s.operate neg left right d e) (s.operate op left right d e) := by
  cases op <;> cases h
  · exact .decided (by simp [truth_ofTruth, compareBy_ne])
  · exact absurd rfl hm
  · exact .bind _ fun b _ => .decided (by simp [truth_ofTruth])

theorem Scope.eval_lists_opposite {l m : Term} {ls : List Term} (h : op.negation? = some neg)
    (hs : isSupported db (.binary neg (.brackets (l :: m :: ls)) right)) (r : Row) :
    Opposite (s.eval r (.binary neg (.brackets (l :: m :: ls)) right))
      (s.eval r (.binary op (.brackets (l :: m :: ls)) right)) := by
  cases right with
  | brackets es =>
    have equality : op = .eq ∧ neg = .ne := by
      cases op <;> cases h <;> simp [isSupported, comparesLists] at hs ⊢
    obtain ⟨rfl, rfl⟩ := equality
    simp only [Scope.eval]
    refine .bind _ fun ds _ => .bind _ fun values _ => .decided ?_
    simp [Scope.operateLists, compareOrders, truth_ofTruth]
  | name n =>
    have membership : op = .isIn ∧ neg = .notIn := by
      cases op <;> cases h <;> simp [isSupported] at hs ⊢
    obtain ⟨rfl, rfl⟩ := membership
    simp only [Scope.eval]
    refine .bind _ fun ds _ => ?_
    cases s.database.table? n with
    | none => exact .failed _
    | some t => exact .decided (truth_negatedIf _)
  | _ => simp [isSupported] at hs

theorem Scope.eval_opposite (h : op.negation? = some neg) (hf : s.fixed = [])
    (hs : isSupported db (.binary neg left right)) (r : Row) :
    Opposite (s.eval r (.binary neg left right)) (s.eval r (.binary op left right)) := by
  by_cases hl : ∃ l m ls, left = .brackets (l :: m :: ls)
  · obtain ⟨l, m, ls, rfl⟩ := hl
    exact Scope.eval_lists_opposite h hs r
  have single : ∀ l m ls, left ≠ .brackets (l :: m :: ls) := fun l m ls h => hl ⟨l, m, ls, h⟩
  have free := s.fixedSides_eq_none hf
  by_cases hm : op = .isIn
  · subst hm
    cases h
    rw [Scope.eval, Scope.eval]
    rotate_left
    · exact single
    · exact single
    simp only [free, Option.getD_none]
    refine .bind _ fun d _ => ?_
    simp only [true_or, or_true, if_true]
    cases right with
    | brackets items => exact .bind _ fun es _ => .decided (truth_negatedIf _)
    | name n =>
      dsimp only
      cases s.database.table? n with
      | none => exact .failed _
      | some t => exact .decided (truth_negatedIf _)
    | _ => exact .failed _
  · have tests : ¬ (neg = .isIn ∨ neg = .notIn) ∧ ¬ (op = .isIn ∨ op = .notIn) := by
      cases op <;> cases h <;> simp at hm ⊢
    rw [Scope.eval, Scope.eval]
    rotate_left
    · exact single
    · exact single
    simp only [free, Option.getD_none, tests, if_false]
    exact .bind _ fun d _ => .bind _ fun e _ => Scope.operate_opposite h hm d e

theorem joined_negation (h : op.negation? = some neg) (left right : Term) :
    (joined op left right = .number 0 ∧ joined neg left right = .number 1) ∨
      (joined op left right = .binary op left right ∧
        joined neg left right = .binary neg left right) := by
  cases he : right.isEmptyList <;> cases op <;> cases h <;> simp [joined, he]

theorem Scope.eval_joined_opposite (h : op.negation? = some neg) (hf : s.fixed = [])
    (hs : isSupported db (joined neg left right)) (r : Row) :
    Opposite (s.eval r (joined neg left right)) (s.eval r (joined op left right)) := by
  rcases joined_negation h left right with ⟨inside, outside⟩ | ⟨kept, kept'⟩
  · rw [outside, inside, Scope.eval, Scope.eval]
    exact .decided (by decide)
  · rw [kept'] at hs
    rw [kept, kept']
    exact Scope.eval_opposite h hf hs r

theorem isSupported_negation (h : op.negation? = some neg) (db : Database) (left right : Term) :
    isSupported db (.binary neg left right) = isSupported db (.binary op left right) := by
  by_cases hl : ∃ l m ls, left = .brackets (l :: m :: ls)
  · obtain ⟨l, m, ls, rfl⟩ := hl
    cases op <;> cases h <;> cases right <;> rfl
  · have single : ∀ l m ls, left ≠ .brackets (l :: m :: ls) := fun l m ls h => hl ⟨l, m, ls, h⟩
    cases op <;> cases h <;> cases right <;> simp [isSupported]

theorem checkCondition_negation (h : op.negation? = some neg) (db : Database) (left right : Term) :
    checkCondition db (joined neg left right) = checkCondition db (joined op left right) := by
  rcases joined_negation h left right with ⟨inside, outside⟩ | ⟨kept, kept'⟩
  · rw [inside, outside]
    simp [checkCondition, missingTable?, isSupported]
  · have missing : missingTable? db (.binary neg left right) =
        missingTable? db (.binary op left right) := by
      cases op <;> cases h <;> simp [missingTable?]
    rw [kept, kept', checkCondition, checkCondition, missing, isSupported_negation h]

theorem shownTo_negation (h : op.negation? = some neg) (db : Database) (left right : Term) :
    db.shownTo (some (joined neg left right)) = db.shownTo (some (joined op left right)) := by
  rcases joined_negation h left right with ⟨inside, outside⟩ | ⟨kept, kept'⟩
  · rw [inside, outside]
    rfl
  · rw [kept, kept']
    simp [shownTo, asksLastId]

theorem height_negation (h : op.negation? = some neg) (left right : Term) :
    (Term.binary op left right).height ≤ (Term.binary neg left right).height := by
  cases op <;> cases h <;> simp [Term.height]

theorem checkSize_negation (h : op.negation? = some neg) {args : List Datum}
    (hs : checkSize (some (.brackets [.binary neg left right])) args = .ok ()) :
    checkSize (some (.brackets [.binary op left right])) args = .ok () := by
  have lower := height_negation h left right
  have single (t : Term) : (Term.brackets [t]).height = t.height := by
    simp [Term.height, Term.heightAll]
  unfold checkSize at hs ⊢
  split at hs
  · next fits =>
    simp only [Option.all_some, single, Bool.and_eq_true, decide_eq_true_eq] at fits ⊢
    rw [if_pos ⟨fits.1, Nat.le_trans lower fits.2⟩]
  · cases hs

theorem prepare_opposite (h : op.negation? = some neg) {table : String} {args : List Datum}
    {w : Term}
    (hp : db.prepare table (some (.brackets [.binary neg left right])) args = .ok (s, some w)) :
    ∃ u, db.prepare table (some (.brackets [.binary op left right])) args = .ok (s, some u) ∧
      ∀ r, Opposite (s.eval r w) (s.eval r u) := by
  have pruned : ∃ L R, ∀ o, o = op ∨ o = neg →
      (Term.brackets [.binary o left right]).pruned = joined o L R := by
    by_cases hm : op = .isIn
    · refine ⟨left.pruned, right.prunedCollection, ?_⟩
      subst hm
      cases h
      rintro o (rfl | rfl) <;> simp [Term.pruned]
    · refine ⟨left.pruned, right.pruned, ?_⟩
      rintro o (rfl | rfl)
      · cases o <;> cases h <;> simp [Term.pruned] at hm ⊢
      · cases op <;> cases h <;> simp [Term.pruned] at hm ⊢
  obtain ⟨L, R, pruned⟩ := pruned
  simp only [prepare, Option.map_some, pruned neg (.inr rfl), bind_eq_ok] at hp
  obtain ⟨_, size, hp⟩ := hp
  simp only [prepare, Option.map_some, pruned op (.inl rfl), checkSize_negation h size]
  cases ht : db.table? table with
  | none =>
    rw [ht] at hp
    cases hp
  | some t =>
    rw [ht] at hp
    simp only [bind_eq_ok] at hp
    obtain ⟨_, checked, hp⟩ := hp
    cases hp
    have supported : isSupported db (joined neg L R) := by
      unfold checkCondition at checked
      split at checked
      · cases checked
      · split at checked
        · assumption
        · cases checked
    rw [checkCondition_negation h] at checked
    refine ⟨joined op L R, ?_, Scope.eval_joined_opposite h rfl supported⟩
    simp only [checked, shownTo_negation h]
    rfl

end Database

end Tabular
