import Mathlib.Data.List.Induction
import Tabular.Proofs.Query.Building

namespace Tabular

namespace TableMapping

variable {t : TableMapping} {key : Expr} {c : Column}

def keyColumn? (t : TableMapping) : Expr → Option Column
  | .lambda 1 (.member .parameter name) => (t.columnOf name).toOption
  | .lambda 1 (.convert (.member .parameter name) _) => (t.columnOf name).toOption
  | _ => none

theorem keyColumn?_eq_some :
    t.keyColumn? key = some c ↔ ∃ name,
      (key = .lambda 1 (.field name) ∨ ∃ kind, key = .lambda 1 (.convert (.field name) kind)) ∧
        t.columnOf name = .ok c := by
  have toOption_eq_some (x : Except Fault Column) : x.toOption = some c ↔ x = .ok c := by
    cases x <;> simp
  unfold keyColumn?
  split
  · simp [Expr.field, toOption_eq_some]
  · simp [Expr.field, toOption_eq_some]
  · next hm hc =>
    simp only [reduceCtorEq, false_iff, not_exists, not_and]
    rintro name (rfl | ⟨kind, rfl⟩)
    · exact absurd rfl (hm name)
    · exact absurd rfl (hc name kind)

end TableMapping

namespace Query

namespace Step

def condition? : Step → Option Expr
  | .filter (.lambda 1 body) => some body
  | _ => none

def sorted? (t : TableMapping) : Step → Option (Column × Bool)
  | .orderBy key => (t.keyColumn? key).map fun c => (c, true)
  | .orderByDescending key => (t.keyColumn? key).map fun c => (c, false)
  | _ => none

def limit? : Step → Option Nat
  | .take n => some n
  | .elementAt _ | .first => some 1
  | _ => none

def offset? : Step → Option Nat
  | .skip n => some n
  | .elementAt i => some i
  | _ => none

def defers : Step → Bool
  | .defer => true
  | _ => false

end Step

def conjunction : List Expr → Option Expr
  | [] => none
  | p :: ps => some (ps.foldl (.binary .and) p)

def sortKey (k : Column × Bool) : SortKey := ⟨k.1.quotedName, k.2⟩

/-- The query has kept what the calls said, and nothing else. -/
structure Records (t : TableMapping) (steps : List Step) (q : Query) : Prop where
  mapping : q.mapping = t
  predicate : q.predicate = conjunction (steps.filterMap Step.condition?)
  orderings : q.orderings = (steps.filterMap (Step.sorted? t)).map sortKey
  limit : q.limit = (steps.filterMap Step.limit?).getLast?
  offset : q.offset = (steps.filterMap Step.offset?).getLast?
  deferred : q.deferred = steps.any Step.defers

variable {t : TableMapping} {q : Query} {steps : List Step}

theorem after_append (q : Query) (steps more : List Step) :
    q.after (steps ++ more) = (q.after steps).after more :=
  List.foldl_append

theorem conjunction_append (ps : List Expr) (p : Expr) :
    conjunction (ps ++ [p]) = some ((conjunction ps).elim p fun e => .binary .and e p) := by
  cases ps <;> simp [conjunction]

theorem keyColumn_eq_ok_iff {unsupported : Fault} {key : Expr} {column : String} :
    q.keyColumn unsupported key = .ok column ↔
      ∃ c, q.mapping.keyColumn? key = some c ∧ column = c.quotedName := by
  simp only [keyColumn_eq_ok, TableMapping.keyColumn?_eq_some]
  constructor
  · rintro ⟨name, c, hk, hc, rfl⟩
    exact ⟨c, ⟨name, hk, hc⟩, rfl⟩
  · rintro ⟨c, ⟨name, hk, hc⟩, rfl⟩
    exact ⟨name, c, hk, hc, rfl⟩

theorem getD_order (q : Query) (key : Expr) (ascending : Bool) :
    (q.order key ascending).toOption.getD q =
      { q with orderings := q.orderings ++
          ((q.mapping.keyColumn? key).map fun c => sortKey (c, ascending)).toList } := by
  cases hk : q.mapping.keyColumn? key with
  | none =>
    have failed : ∃ fault, q.order key ascending = .error fault := by
      cases ho : q.order key ascending with
      | error fault => exact ⟨fault, rfl⟩
      | ok q' =>
        obtain ⟨column, hc, _⟩ := order_eq_ok.1 ho
        obtain ⟨c, hc, _⟩ := keyColumn_eq_ok_iff.1 hc
        rw [hk] at hc
        cases hc
    obtain ⟨fault, hf⟩ := failed
    simp [hf]
  | some c =>
    have column : q.keyColumn (.orderingKey key) key = .ok c.quotedName :=
      keyColumn_eq_ok_iff.2 ⟨c, hk, rfl⟩
    rw [order_eq_ok.2 ⟨_, column, rfl⟩]
    rfl

theorem step_eq (q : Query) (s : Step) :
    q.step s = { q with
      predicate := s.condition?.elim q.predicate fun body =>
        some (q.predicate.elim body fun p => .binary .and p body)
      orderings := q.orderings ++ ((s.sorted? q.mapping).map sortKey).toList
      limit := s.limit?.or q.limit
      offset := s.offset?.or q.offset
      deferred := q.deferred || s.defers } := by
  have unchanged :
      q = { q with orderings := q.orderings ++ [], deferred := q.deferred || false } := by simp
  cases s with
  | filter p =>
    by_cases hb : ∃ body, p = .lambda 1 body
    · obtain ⟨body, rfl⟩ := hb
      have accepted := q.filter_lambda body
      rw [step_of_ok (s := .filter (.lambda 1 body)) accepted]
      simp [Step.condition?, Step.sorted?, Step.limit?, Step.offset?, Step.defers]
    · rw [not_exists] at hb
      have refused := q.filter_of_ne hb
      have adds : (Step.filter p).condition? = none := by
        unfold Step.condition?
        split
        · next body h => cases h; exact absurd rfl (hb body)
        · rfl
      rw [step_of_error (s := .filter p) refused, adds]
      exact unchanged
  | orderBy key =>
    refine (q.getD_order key true).trans ?_
    simp [Step.condition?, Step.sorted?, Step.limit?, Step.offset?, Step.defers, Function.comp_def]
  | orderByDescending key =>
    refine (q.getD_order key false).trans ?_
    simp [Step.condition?, Step.sorted?, Step.limit?, Step.offset?, Step.defers, Function.comp_def]
  | join => exact unchanged
  | _ =>
    simp [step, apply, Query.take, Query.skip, Query.elementAt, Query.first, Query.defer,
      Step.condition?, Step.sorted?, Step.limit?, Step.offset?, Step.defers]

theorem Records.step (h : Records t steps q) (s : Step) : Records t (steps ++ [s]) (q.step s) := by
  obtain ⟨rfl, hp, ho, hl, hf, hd⟩ := h
  rw [step_eq]
  constructor
  · rfl
  · cases hc : s.condition? with
    | none => simp [hc, hp]
    | some body => simp [hc, hp, conjunction_append]
  · cases hs : s.sorted? q.mapping <;> simp [hs, ho]
  · cases hs : s.limit? <;> simp [hs, hl]
  · cases hs : s.offset? <;> simp [hs, hf]
  · simp [hd]

theorem records_after (t : TableMapping) (steps : List Step) :
    Records t steps ((ofMapping t).after steps) := by
  induction steps using List.reverseRecOn with
  | nil => exact ⟨rfl, rfl, rfl, rfl, rfl, rfl⟩
  | append_singleton steps s ih => exact after_append _ _ _ ▸ ih.step s

def whereText (t : TableMapping) (conditions : List Expr) : Except Fault Statement :=
  match conjunction conditions with
  | none => .ok ⟨"", []⟩
  | some e =>
    match t.compile e [] with
    | (.ok f, args) => .ok ⟨" where " ++ f.sql, args⟩
    | (.error fault, _) => .error fault

def orderText (keys : List (Column × Bool)) : String :=
  if keys.isEmpty then ""
  else
    " order by " ++
      ", ".intercalate (keys.map fun k => k.1.quotedName ++ if k.2 then "" else " desc")

def pageText (limit offset : Option Nat) : String :=
  match limit, offset with
  | none, none => ""
  | some l, none => " limit " ++ number l
  | some l, some o => " limit " ++ number l ++ " offset " ++ number o
  | none, some o => " limit -1  offset " ++ number o

/-- The statement that calls ask for, put together from what was accepted of them. -/
def assembled (t : TableMapping) (steps : List Step) (columns : String) :
    Except Fault Statement := do
  let condition ← whereText t (steps.filterMap Step.condition?)
  return ⟨"select " ++ columns ++ " from " ++ quoteIdentifier t.tableName ++ condition.sql ++
    orderText (steps.filterMap (Step.sorted? t)) ++
    pageText (steps.filterMap Step.limit?).getLast? (steps.filterMap Step.offset?).getLast?,
    condition.args⟩

theorem whereClause_eq {conditions : List Expr} (h : q.predicate = conjunction conditions) :
    (do let f ← q.whereClause; return (⟨f.sql, f.args⟩ : Statement)) =
      whereText q.mapping conditions := by
  unfold whereClause whereText
  rw [h]
  cases conjunction conditions with
  | none => rfl
  | some e =>
    unfold TableMapping.compile
    cases hf : q.mapping.fragment e with
    | error fault => simp [hf, bind, Except.bind]
    | ok f => simp [hf, bind, Except.bind, pure, Except.pure]

theorem orderClause_eq {keys : List (Column × Bool)} (h : q.orderings = keys.map sortKey) :
    q.orderClause = orderText keys := by
  have line (k : Column × Bool) :
      (sortKey k).sql = k.1.quotedName ++ if k.2 then "" else " desc" := by
    obtain ⟨c, ascending⟩ := k
    cases ascending <;> simp [sortKey, SortKey.sql]
  unfold orderClause orderText
  rw [h, List.isEmpty_map, List.map_map]
  simp only [Function.comp_def, line]

theorem pageClause_eq (q : Query) : q.pageClause = pageText q.limit q.offset := by
  unfold pageClause pageText
  cases q.limit <;> cases q.offset <;> simp [String.append_assoc]

theorem Records.build (h : Records t steps q) (columns : String) :
    q.build columns = assembled t steps columns := by
  obtain ⟨rfl, hp, ho, hl, hf, _⟩ := h
  rw [assembled, ← whereClause_eq hp, ← orderClause_eq ho, ← hl, ← hf, ← pageClause_eq]
  unfold Query.build
  cases q.whereClause <;> rfl

/-- The same conditions and orderings were accepted in the same order, and the last limit and the
last offset are the same. -/
structure SameClauses (t : TableMapping) (steps steps' : List Step) : Prop where
  conditions : steps.filterMap Step.condition? = steps'.filterMap Step.condition?
  orderings : steps.filterMap (Step.sorted? t) = steps'.filterMap (Step.sorted? t)
  limit : (steps.filterMap Step.limit?).getLast? = (steps'.filterMap Step.limit?).getLast?
  offset : (steps.filterMap Step.offset?).getLast? = (steps'.filterMap Step.offset?).getLast?

theorem SameClauses.assembled_eq {steps' : List Step} (h : SameClauses t steps steps')
    (columns : String) : assembled t steps columns = assembled t steps' columns := by
  rw [assembled, assembled, h.conditions, h.orderings, h.limit, h.offset]

theorem Records.select (h : Records t steps q) {key : Expr} {c : Column}
    (hk : t.keyColumn? key = some c) : q.select key = assembled t steps c.quotedName := by
  have column : q.keyColumn (.projectionKey key) key = .ok c.quotedName :=
    keyColumn_eq_ok_iff.2 ⟨c, h.mapping ▸ hk, rfl⟩
  rw [Query.select, column, ← h.build]
  rfl

theorem select_eq_error {key : Expr} (hk : q.mapping.keyColumn? key = none) :
    ∃ fault, q.select key = .error fault := by
  cases hc : q.keyColumn (.projectionKey key) key with
  | error fault => exact ⟨fault, by rw [Query.select, hc]; rfl⟩
  | ok column =>
    obtain ⟨c, hc, _⟩ := keyColumn_eq_ok_iff.1 hc
    rw [hk] at hc
    cases hc

theorem statement_after (t : TableMapping) (steps : List Step) :
    let q := (ofMapping t).after steps
    q.statement = assembled t steps "*" ∧ q.count = assembled t steps "count(*)" ∧
    (∀ key c, t.keyColumn? key = some c → q.select key = assembled t steps c.quotedName) ∧
    (∀ key, t.keyColumn? key = none → ∃ fault, q.select key = .error fault) ∧
    ∀ steps', SameClauses t steps steps' →
      let q' := (ofMapping t).after steps'
      q'.statement = q.statement ∧ q'.count = q.count ∧
        ∀ key c, t.keyColumn? key = some c → q'.select key = q.select key := by
  intro q
  have records : Records t steps q := records_after t steps
  refine ⟨records.build "*", records.build "count(*)", fun key c hk => records.select hk, ?_, ?_⟩
  · intro key hk
    exact select_eq_error (records.mapping ▸ hk)
  · intro steps' same q'
    have records' : Records t steps' q' := records_after t steps'
    have build (columns : String) : q'.build columns = q.build columns := by
      rw [records'.build, records.build, same.assembled_eq]
    refine ⟨build "*", build "count(*)", fun key c hk => ?_⟩
    rw [records'.select hk, records.select hk, same.assembled_eq]

theorem statement_after_notes :
    let early : Expr := .lambda 1 (.binary .lt (.field "Id") (.constant (.int 9)))
    let titled : Expr := .lambda 1 (.binary .ne (.field "Title") (.constant .null))
    let byTitle : Expr := .lambda 1 (.field "Title")
    let steps : List Step :=
      [.take 10, .filter early, .orderByDescending byTitle, .filter (.field "Id"), .elementAt 7,
        .filter titled, .join (ofMapping .notes) byTitle byTitle byTitle, .defer, .first]
    let steps' : List Step :=
      [.skip 7, .orderByDescending byTitle, .filter early, .filter titled, .take 1]
    SameClauses .notes steps steps' ∧
      let q := (ofMapping .notes).after steps
      ((ofMapping .notes).after steps').statement = q.statement ∧
        q.statement = .ok
          ⟨"select * from \"notes\" where ((\"id\" < ?) and (\"title\" is not ?)) " ++
            "order by \"title\" desc limit 1 offset 7", [.integer 9, .null]⟩ := by
  refine ⟨⟨rfl, rfl, rfl, rfl⟩, ?_, ?_⟩
  · obtain ⟨_, _, _, _, determined⟩ := statement_after .notes _
    exact (determined _ ⟨rfl, rfl, rfl, rfl⟩).1
  · rfl

end Query

end Tabular
