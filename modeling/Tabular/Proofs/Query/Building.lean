import Tabular.Proofs.Compile.Inversion
import Tabular.Query

namespace Tabular.Query

inductive Step
  | filter (predicate : Expr)
  | orderBy (key : Expr)
  | orderByDescending (key : Expr)
  | take (n : Nat)
  | skip (n : Nat)
  | elementAt (i : Nat)
  | first
  | defer
  | join (inner : Query) (outerKey innerKey result : Expr)

def apply (q : Query) : Step → Except Fault Query
  | .filter p => q.filter p
  | .orderBy key => q.orderBy key
  | .orderByDescending key => q.orderByDescending key
  | .take n => .ok (q.take n)
  | .skip n => .ok (q.skip n)
  | .elementAt i => .ok (q.elementAt i)
  | .first => .ok q.first
  | .defer => .ok q.defer
  | .join inner outerKey innerKey result => q.join inner outerKey innerKey result

def step (q : Query) (s : Step) : Query := (q.apply s).toOption.getD q

def after (q : Query) (steps : List Step) : Query := steps.foldl step q

def ofMapping (t : TableMapping) : Query := { mapping := t }

variable {q q' : Query}

theorem step_of_ok {s : Step} (h : q.apply s = .ok q') : q.step s = q' := by
  rw [step, h]; rfl

theorem step_of_error {s : Step} {fault : Fault} (h : q.apply s = .error fault) :
    q.step s = q := by
  rw [step, h]; rfl

theorem after_induction {motive : Query → Prop} (h : motive q)
    (hs : ∀ q s q', motive q → q.apply s = .ok q' → motive q') (steps : List Step) :
    motive (q.after steps) := by
  induction steps generalizing q with
  | nil => exact h
  | cons s steps ih =>
    refine ih ?_
    cases hq : q.apply s with
    | error fault => rwa [step_of_error hq]
    | ok q' => exact step_of_ok hq ▸ hs q s q' h hq

theorem filter_lambda (q : Query) (body : Expr) :
    q.filter (.lambda 1 body) =
      .ok { q with predicate := some (q.predicate.elim body fun p => .binary .and p body) } := by
  unfold filter
  cases q.predicate <;> rfl

theorem filter_of_ne {e : Expr} (h : ∀ body, e ≠ .lambda 1 body) :
    q.filter e = .error (.notPredicate e) := by
  unfold filter
  split
  · next body => exact absurd rfl (h body)
  · rfl

theorem filter_eq_ok {e : Expr} :
    q.filter e = .ok q' ↔ ∃ body, e = .lambda 1 body ∧
      q' = { q with predicate := some (q.predicate.elim body fun p => .binary .and p body) } := by
  by_cases h : ∃ body, e = .lambda 1 body
  · obtain ⟨body, rfl⟩ := h
    simp [filter_lambda, eq_comm]
  · rw [not_exists] at h
    simp [filter_of_ne h, h]

theorem columnName?_eq_some_ok {t : TableMapping} {e : Expr} {column : String} :
    t.columnName? e = some (.ok column) ↔
      ∃ name c, e = .field name ∧ t.columnOf name = .ok c ∧ column = c.quotedName := by
  unfold TableMapping.columnName?
  split
  · next name =>
    cases hc : t.columnOf name <;> simp [Expr.field, Functor.map, Except.map, hc, eq_comm]
  · next h =>
    simp only [reduceCtorEq, false_iff, not_exists, not_and]
    rintro name c rfl
    exact absurd rfl (h name)

theorem keyColumn_eq_ok {unsupported : Fault} {e : Expr} {column : String} :
    q.keyColumn unsupported e = .ok column ↔
      ∃ name c,
        (e = .lambda 1 (.field name) ∨ ∃ kind, e = .lambda 1 (.convert (.field name) kind)) ∧
          q.mapping.columnOf name = .ok c ∧ column = c.quotedName := by
  have getD_eq_ok (x : Option (Except Fault String)) :
      x.getD (.error unsupported) = .ok column ↔ x = some (.ok column) := by
    cases x <;> simp
  unfold keyColumn
  split
  · next body =>
    rw [getD_eq_ok, columnName?_eq_some_ok]
    cases body <;> simp [Expr.field]
  · next h =>
    simp only [reduceCtorEq, false_iff, not_exists, not_and]
    rintro name c (rfl | ⟨kind, rfl⟩) <;> exact absurd rfl (h _)

theorem order_eq_ok {key : Expr} {ascending : Bool} :
    q.order key ascending = .ok q' ↔ ∃ column, q.keyColumn (.orderingKey key) key = .ok column ∧
      q' = { q with orderings := q.orderings ++ [⟨column, ascending⟩] } := by
  simp only [order, bind_eq_ok, pure, Except.pure, Except.ok.injEq, @eq_comm _ q']

theorem apply_eq_ok {s : Step} (h : q.apply s = .ok q') :
    (∃ body, s = .filter (.lambda 1 body) ∧
      q' = { q with predicate := some (q.predicate.elim body fun p => .binary .and p body) }) ∨
    (∃ key ascending column, q.keyColumn (.orderingKey key) key = .ok column ∧
      q' = { q with orderings := q.orderings ++ [⟨column, ascending⟩] }) ∨
    ∃ limit offset deferred, q' = { q with limit, offset, deferred } := by
  cases s with
  | filter p =>
    obtain ⟨body, rfl, hq⟩ := filter_eq_ok.1 h
    exact .inl ⟨body, rfl, hq⟩
  | orderBy key =>
    obtain ⟨column, hc, hq⟩ := order_eq_ok.1 h
    exact .inr (.inl ⟨key, true, column, hc, hq⟩)
  | orderByDescending key =>
    obtain ⟨column, hc, hq⟩ := order_eq_ok.1 h
    exact .inr (.inl ⟨key, false, column, hc, hq⟩)
  | join => cases h
  | _ =>
    cases h
    exact .inr (.inr ⟨_, _, _, rfl⟩)

theorem mapping_of_apply {s : Step} (h : q.apply s = .ok q') : q'.mapping = q.mapping := by
  rcases apply_eq_ok h with ⟨_, _, rfl⟩ | ⟨_, _, _, _, rfl⟩ | ⟨_, _, _, rfl⟩ <;> rfl

theorem mapping_after (q : Query) (steps : List Step) : (q.after steps).mapping = q.mapping :=
  after_induction (motive := fun p => p.mapping = q.mapping) rfl
    (fun _ _ _ hm h => (mapping_of_apply h).trans hm) steps

end Tabular.Query
