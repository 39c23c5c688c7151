import Tabular.Proofs.Except
import Tabular.Session.Rows

namespace Tabular.Session

variable {α β : Type} (s : Session)

@[simp] theorem run_ofQuery (x : Except Fault α) :
    (ofQuery x).run s = (x.mapError .query, s) := by
  cases x <;> rfl

@[simp] theorem run_ofDecoded (x : Except Failure α) : (ofDecoded x).run s = (x, s) := by
  cases x <;> rfl

theorem run_bind_ok {s s' : Session} {x : Action α} {a : α} (h : x.run s = (.ok a, s'))
    (f : α → Action β) : (x >>= f).run s = (f a).run s' := by
  rw [ExceptT.run_bind]
  simp only [bind, StateT.bind]
  rw [h]

theorem run_bind_error {s s' : Session} {x : Action α} {e : Failure} (h : x.run s = (.error e, s'))
    (f : α → Action β) : (x >>= f).run s = (.error e, s') := by
  rw [ExceptT.run_bind]
  simp only [bind, StateT.bind]
  rw [h]
  rfl

theorem run_get_bind (f : Session → Action β) : (get >>= f).run s = (f s).run s := rfl

theorem run_bind_eq_ok {s s' : Session} {x : Action α} {f : α → Action β} {b : β} :
    (x >>= f).run s = (.ok b, s') ↔
      ∃ a s₁, x.run s = (.ok a, s₁) ∧ (f a).run s₁ = (.ok b, s') := by
  constructor
  · intro h
    rcases hx : x.run s with ⟨failure | a, s₁⟩
    · cases (run_bind_error hx f).symm.trans h
    · exact ⟨a, s₁, rfl, (run_bind_ok hx f).symm.trans h⟩
  · rintro ⟨a, s₁, hx, h⟩
    exact (run_bind_ok hx f).trans h

theorem run_bind_congr {s s' : Session} {x : Action α} (h : x.run s = x.run s')
    (f : α → Action β) : (x >>= f).run s = (x >>= f).run s' := by
  rcases hx : x.run s' with ⟨failure | a, s₁⟩
  · exact (run_bind_error (h.trans hx) f).trans (run_bind_error hx f).symm
  · exact (run_bind_ok (h.trans hx) f).trans (run_bind_ok hx f).symm

theorem exists_run_eq_ok {s : Session} {x : Action α} {f : Session → β} {b : β}
    (h : ((x.run s).1.isOk, f (x.run s).2) = (true, b)) :
    ∃ a s', x.run s = (.ok a, s') ∧ f s' = b := by
  rcases hr : x.run s with ⟨_ | a, s'⟩ <;> rw [hr] at h <;> cases h
  exact ⟨a, s', rfl, rfl⟩

section Each

variable {f : α → Action β} {x : α} {xs : List α}

theorem run_mapM_cons {y : β} {ys : List β} {s s₁ s₂ : Session} (hx : (f x).run s = (.ok y, s₁))
    (hxs : (xs.mapM f).run s₁ = (.ok ys, s₂)) :
    ((x :: xs).mapM f).run s = (.ok (y :: ys), s₂) := by
  rw [List.mapM_cons]
  exact (run_bind_ok hx _).trans (run_bind_ok hxs _)

theorem run_mapM_cons_congr {s s' : Session} (h : (f x).run s = (f x).run s') :
    ((x :: xs).mapM f).run s = ((x :: xs).mapM f).run s' := by
  rw [List.mapM_cons]
  exact run_bind_congr h _

end Each

theorem run_bind {x : Action α} {a : Except Failure α} (h : x.run s = (a, s))
    {f : α → Action β} {g : α → Except Failure β} (hf : ∀ a, (f a).run s = (g a, s)) :
    (x >>= f).run s = (a >>= g, s) := by
  rw [ExceptT.run_bind]
  simp only [bind, StateT.bind]
  rw [h]
  cases a with
  | ok a => exact hf a
  | error e => rfl

theorem answer_of_open {s : Session} (h : s.closed = false) (stmt : Statement) :
    s.answer stmt = (s.database.fetch stmt).mapError .refused := by
  rw [answer, h]
  rfl

@[simp] theorem run_fetch (stmt : Statement) : (fetch stmt).run s = (s.answer stmt, s) := by
  refine run_bind s (a := .ok s) rfl (g := fun s' => s'.answer stmt) ?_
  intro s'
  cases s'.answer stmt <;> rfl

def listed (q : Query) : Except Failure (List NamedRow) := do
  let a ← s.answer (← q.statement.mapError .query)
  a.rows.mapM (decoded (q.mapping.decodeRow a.columns))

theorem listed_of_fetch {s : Session} {q : Query} {stmt : Statement}
    (hs : q.statement = .ok stmt) (hopen : s.closed = false) :
    s.listed q = (s.database.fetch stmt).mapError .refused >>= fun a =>
      a.rows.mapM (decoded (q.mapping.decodeRow a.columns)) := by
  simp only [listed, hs, answer_of_open hopen]
  rfl

theorem run_toList (q : Query) : (toList q).run s = (s.listed q, s) :=
  run_bind s (run_ofQuery s _) fun stmt => run_bind s (run_fetch s stmt) fun _ => run_ofDecoded s _

theorem run_toList_eq_ok {s s' : Session} {q : Query} {rows : List NamedRow} :
    (toList q).run s = (.ok rows, s') ↔ s.listed q = .ok rows ∧ s = s' := by
  rw [run_toList, Prod.mk.injEq]

def number : List (Except Database.Refusal (List Datum)) → Except Failure Int64
  | .ok [.integer n] :: _ => .ok n
  | .error refusal :: _ => .error (.refused refusal)
  | _ => .error .noRow

def counted (x : Except Fault Statement) : Except Failure Int64 := do
  let a ← s.answer (← x.mapError .query)
  number a.rows

theorem run_countOf (x : Except Fault Statement) :
    (do countOf (← ofQuery x)).run s = (s.counted x, s) := by
  refine run_bind s (run_ofQuery s x) fun stmt => run_bind s (run_fetch s stmt) fun a => ?_
  obtain ⟨columns, rows⟩ := a
  cases rows with
  | nil => rfl
  | cons r rows =>
    cases r with
    | error refusal => rfl
    | ok row =>
      cases row with
      | nil => rfl
      | cons d row => cases d <;> cases row <;> rfl

theorem listed_eq_ok {q : Query} {rows : List NamedRow} (h : s.listed q = .ok rows) :
    ∃ stmt a, q.statement = .ok stmt ∧ s.answer stmt = .ok a ∧ a.rows.length = rows.length := by
  simp only [listed, bind_eq_ok, mapError_eq_ok, mapM_eq_ok] at h
  obtain ⟨stmt, hs, a, ha, hr⟩ := h
  exact ⟨stmt, a, hs, ha, hr.length_eq⟩

end Tabular.Session
