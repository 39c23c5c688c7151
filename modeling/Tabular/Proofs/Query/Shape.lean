import Tabular.Proofs.Compile.Shape
import Tabular.Proofs.Query.Building

namespace Tabular

/-- The same call, with expressions that are equal but for their values. -/
inductive Query.Step.Alike : Step → Step → Prop
  | filter {p p' : Expr} : p.Alike p' → Alike (.filter p) (.filter p')
  | orderBy {key key' : Expr} : key.Alike key' → Alike (.orderBy key) (.orderBy key')
  | orderByDescending {key key' : Expr} :
    key.Alike key' → Alike (.orderByDescending key) (.orderByDescending key')
  | take (n : Nat) : Alike (.take n) (.take n)
  | skip (n : Nat) : Alike (.skip n) (.skip n)
  | elementAt (i : Nat) : Alike (.elementAt i) (.elementAt i)
  | first : Alike .first .first
  | defer : Alike .defer .defer
  | join (inner inner' : Query) (outerKey outerKey' innerKey innerKey' result result' : Expr) :
    Alike (.join inner outerKey innerKey result) (.join inner' outerKey' innerKey' result')

/-- Queries that differ only in the values of their conditions. -/
structure Query.Alike (q q' : Query) : Prop where
  mapping : q.mapping = q'.mapping
  predicate : Option.Rel Expr.Alike q.predicate q'.predicate
  orderings : q.orderings = q'.orderings
  limit : q.limit = q'.limit
  offset : q.offset = q'.offset

structure Statement.Alike (s s' : Statement) : Prop where
  sql : s.sql = s'.sql
  length : s.args.length = s'.args.length

namespace Query

variable {q q' : Query} {e e' : Expr}

namespace Alike

theorem keyColumn_iff (h : q.mapping = q'.mapping) (he : e.Alike e') {unsupported : Fault}
    (unsupported' : Fault) {column : String} :
    q.keyColumn unsupported e = .ok column ↔ q'.keyColumn unsupported' e' = .ok column := by
  rw [keyColumn_eq_ok, keyColumn_eq_ok, h]
  cases he with
  | lambda arity he => simp [he.eq_field_iff, he.eq_convert_field_iff]
  | _ => simp

theorem filter (h : q.Alike q') (he : e.Alike e') :
    Option.Rel Alike (q.filter e).toOption (q'.filter e').toOption := by
  cases he with
  | @lambda arity body body' hb =>
    by_cases ha : arity = 1
    · have conjoined {p p' : Option Expr} (hp : Option.Rel Expr.Alike p p') :
          Expr.Alike (p.elim body fun p => .binary .and p body)
            (p'.elim body' fun p => .binary .and p body') := by
        cases hp with
        | none => exact hb
        | some hp => exact .binary .and hp hb
      rw [ha, filter_lambda, filter_lambda]
      exact .some ⟨h.mapping, .some (conjoined h.predicate), h.orderings, h.limit, h.offset⟩
    · rw [filter_of_ne (by simp [ha]), filter_of_ne (by simp [ha])]
      exact .none
  | _ => exact .none

theorem order (h : q.Alike q') (he : e.Alike e') (ascending : Bool) :
    Option.Rel Alike (q.order e ascending).toOption (q'.order e' ascending).toOption := by
  cases hc : q.keyColumn (.orderingKey e) e with
  | ok column =>
    rw [order_eq_ok.2 ⟨column, hc, rfl⟩,
      order_eq_ok.2 ⟨column, (keyColumn_iff h.mapping he _).1 hc, rfl⟩]
    exact .some ⟨h.mapping, h.predicate, by rw [h.orderings], h.limit, h.offset⟩
  | error fault =>
    cases hc' : q'.keyColumn (.orderingKey e') e' with
    | ok column =>
      rw [(keyColumn_iff h.mapping he _).2 hc'] at hc
      cases hc
    | error fault' =>
      simp only [Query.order, hc, hc']
      exact .none

theorem apply (h : q.Alike q') {s s' : Step} (hs : s.Alike s') :
    Option.Rel Alike (q.apply s).toOption (q'.apply s').toOption := by
  cases hs with
  | filter he => exact filter h he
  | orderBy he => exact order h he true
  | orderByDescending he => exact order h he false
  | take n => exact .some ⟨h.mapping, h.predicate, h.orderings, rfl, h.offset⟩
  | skip n => exact .some ⟨h.mapping, h.predicate, h.orderings, h.limit, rfl⟩
  | elementAt i => exact .some ⟨h.mapping, h.predicate, h.orderings, rfl, rfl⟩
  | first => exact .some ⟨h.mapping, h.predicate, h.orderings, rfl, h.offset⟩
  | defer => exact .some ⟨h.mapping, h.predicate, h.orderings, h.limit, h.offset⟩
  | join => exact .none

theorem step (h : q.Alike q') {s s' : Step} (hs : s.Alike s') :
    (q.step s).Alike (q'.step s') := by
  have kept {x x' : Option Query} (hx : Option.Rel Alike x x') : (x.getD q).Alike (x'.getD q') := by
    cases hx with
    | none => exact h
    | some hq => exact hq
  exact kept (h.apply hs)

theorem after (h : q.Alike q') {steps steps' : List Step}
    (hs : List.Forall₂ Step.Alike steps steps') : (q.after steps).Alike (q'.after steps') := by
  induction hs generalizing q q' with
  | nil => exact h
  | cons hs _ ih => exact ih (h.step hs)

theorem build (h : q.Alike q') (columns : String) {s s' : Statement}
    (hs : q.build columns = .ok s) (hs' : q'.build columns = .ok s') : s.Alike s' := by
  have condition {f f' : Fragment} (hf : q.whereClause = .ok f) (hf' : q'.whereClause = .ok f') :
      f.sql = f'.sql ∧ f.args.length = f'.args.length := by
    have hp := h.predicate
    unfold Query.whereClause at hf hf'
    cases hq : q.predicate <;> cases hq' : q'.predicate <;> rw [hq, hq'] at hp <;> cases hp
    · rw [hq] at hf
      rw [hq'] at hf'
      cases hf
      cases hf'
      exact ⟨rfl, rfl⟩
    · next hp =>
      simp only [hq, hq', bind_eq_ok] at hf hf'
      obtain ⟨g, hg, hf⟩ := hf
      obtain ⟨g', hg', hf'⟩ := hf'
      cases hf
      cases hf'
      have hg := TableMapping.fragment_alike hp hg (h.mapping ▸ hg')
      exact ⟨by rw [hg.sql], hg.length⟩
  simp only [Query.build, bind_eq_ok] at hs hs'
  obtain ⟨f, hf, hs⟩ := hs
  obtain ⟨f', hf', hs'⟩ := hs'
  cases hs
  cases hs'
  obtain ⟨hsql, hlength⟩ := condition hf hf'
  refine ⟨?_, hlength⟩
  simp only [h.mapping, hsql, Query.orderClause, h.orderings, Query.pageClause, h.limit, h.offset]

theorem select (h : q.Alike q') (he : e.Alike e') {s s' : Statement} (hs : q.select e = .ok s)
    (hs' : q'.select e' = .ok s') : s.Alike s' := by
  simp only [Query.select, bind_eq_ok] at hs hs'
  obtain ⟨column, hc, hs⟩ := hs
  obtain ⟨column', hc', hs'⟩ := hs'
  rw [keyColumn_iff h.mapping he (.projectionKey e'), hc'] at hc
  cases hc
  exact h.build _ hs hs'

end Alike

end Query

namespace TableMapping

open Query (Step ofMapping)

theorem texts_alike (t : TableMapping) :
    (∀ (e e' : Expr) (params ps ps' : List Datum) (f f' : Fragment), e.Alike e' →
      t.compile e params = (.ok f, ps) → t.compile e' params = (.ok f', ps') →
      f.sql = f'.sql ∧ ps.length = ps'.length) ∧
    ∀ steps steps' : List Step, List.Forall₂ Step.Alike steps steps' →
      let q := (ofMapping t).after steps
      let q' := (ofMapping t).after steps'
      (∀ s s', q.statement = .ok s → q'.statement = .ok s' → s.Alike s') ∧
      (∀ s s', q.count = .ok s → q'.count = .ok s' → s.Alike s') ∧
      ∀ (key key' : Expr) (s s' : Statement), key.Alike key' →
        q.select key = .ok s → q'.select key' = .ok s' → s.Alike s' := by
  constructor
  · intro e e' params ps ps' f f' he h h'
    unfold compile at h h'
    cases hf : t.fragment e <;> rw [hf] at h <;> cases h
    cases hf' : t.fragment e' <;> rw [hf'] at h' <;> cases h'
    have alike := fragment_alike he hf hf'
    exact ⟨alike.sql, by rw [List.length_append, List.length_append, alike.length]⟩
  · intro steps steps' hs q q'
    have empty : (ofMapping t).Alike (ofMapping t) := ⟨rfl, .none, rfl, rfl, rfl⟩
    have h : q.Alike q' := empty.after hs
    exact ⟨fun s s' => h.build "*", fun s s' => h.build "count(*)", fun _ _ _ _ he => h.select he⟩

theorem texts_alike_notes :
    let e (part : String) (a b : Value) : Expr :=
      .binary .and (.invoke (.field "Title") "contains" [.constant (.text part)])
        (.invoke (.captured "ids" (.list [a, b])) "contains" [.field "Id"])
    let steps (e : Expr) : List Step := [.filter (.lambda 1 e), .orderBy (.lambda 1 (.field "Id"))]
    let a := e "x" (.int 1) (.int 2)
    let b := e "' or 1 = 1 --" .null (.text "3")
    a.Alike b ∧ List.Forall₂ Step.Alike (steps a) (steps b) ∧
      (∃ f f' ps ps', notes.compile a [] = (.ok f, ps) ∧ notes.compile b [] = (.ok f', ps') ∧
        f.sql = f'.sql ∧ ps.length = ps'.length) ∧
      ∃ s s', ((ofMapping notes).after (steps a)).statement = .ok s ∧
        ((ofMapping notes).after (steps b)).statement = .ok s' ∧ s.Alike s' := by
  intro e steps a b
  have field (name : String) : (Expr.field name).Alike (.field name) := .member name .parameter
  have he : a.Alike b :=
    .binary .and (.invoke "contains" (field "Title") (.cons (.constant (.text ..)) .nil))
      (.invoke "contains" (.captured "ids" (.list rfl)) (.cons (field "Id") .nil))
  have hs : List.Forall₂ Step.Alike (steps a) (steps b) :=
    .cons (.filter (.lambda 1 he)) (.cons (.orderBy (.lambda 1 (field "Id"))) .nil)
  exact ⟨he, hs, ⟨_, _, _, _, rfl, rfl, (texts_alike notes).1 _ _ _ _ _ _ _ he rfl rfl⟩,
    _, _, rfl, rfl, ((texts_alike notes).2 _ _ hs).1 _ _ rfl rfl⟩

end TableMapping

end Tabular
