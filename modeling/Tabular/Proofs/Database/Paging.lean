import Tabular.Proofs.Database.Order
import Tabular.Proofs.Database.Selection

/-! The rows of a page are a slice of all rows, if the rows come in the same order however many of
them are wanted. They do where nothing is sorted, and where the keys tell all rows apart. -/

namespace Tabular.Database

open Sql (Command Page SortTerm Term)

namespace Survey

variable (v : Survey)

def wanting (limit : Option Nat) : Survey := { v with limit := limit }

variable (limit : Option Nat)

theorem extensions_wanting (n : Nat) (p : Path) (factor rows : Estimate) :
    (v.wanting limit).extensions n p factor rows = v.extensions n p factor rows := by
  induction n generalizing p factor rows with
  | zero => rfl
  | succ n ih =>
    simp only [extensions, ih]
    rfl

theorem paths_wanting : (v.wanting limit).paths = v.paths := by
  simp only [paths, pathsBy, extensions_wanting]
  rfl

theorem unionCost?_wanting (n : Nat) (c : Conjunct) :
    (v.wanting limit).unionCost? n c = v.unionCost? n c := by
  induction n generalizing v c with
  | zero => rfl
  | succ n ih =>
    have within (cs : List Conjunct) :
        (v.wanting limit).within cs = (v.within cs).wanting limit := rfl
    simp only [unionCost?, within, paths_wanting, ih]
    rfl

theorem candidates_wanting : (v.wanting limit).candidates = v.candidates := by
  simp only [candidates, unions, paths_wanting, unionCost?_wanting]
  rfl

theorem choose_wanting (h : v.order = []) (width : Nat) :
    (v.wanting limit).choose width = v.choose width := by
  have unordered : (v.wanting limit).order = [] := h
  simp only [choose, candidates_wanting, h, unordered, List.isEmpty_nil, if_true]

theorem planOf_wanting (n : Nat) (p : Path) (reverse : Bool) :
    (v.wanting limit).planOf n p reverse = v.planOf n p reverse := by
  induction n generalizing v p reverse with
  | zero => rfl
  | succ n ih =>
    have side (cs : List Conjunct) : ({ (v.wanting limit).narrowed cs with order := [] } : Survey) =
        ({ v.narrowed cs with order := [] } : Survey).wanting limit := rfl
    simp only [planOf, side, ih, choose_wanting]
    rfl

theorem plan_wanting (h : v.order = []) (width : Nat) :
    (v.wanting limit).plan width = v.plan width := by
  simp only [plan, planOf_wanting, choose_wanting v limit h]
  rfl

end Survey

namespace Selection

def rows (q : Selection) : List Row :=
  (q.scope.table.sort q.order (q.plan.1.arrange q.scope q.scope.table.rows)).filter q.holds

variable {q : Selection}

theorem found_eq_rows (h : q.isSafe) : q.found = q.rows.map .ok := if_pos h

theorem rows_perm (q : Selection) : q.rows.Perm q.matching := by
  have read := q.plan.1.arrange_perm q.scope q.scope.table.rows
  exact ((q.scope.table.sort_perm q.order _).trans read).filter q.holds

theorem pairwise_rows (q : Selection) :
    q.rows.Pairwise fun r s => q.scope.table.compareRows q.order r s != .gt :=
  (q.scope.table.pairwise_sort q.order _).filter q.holds

end Selection

section Listing

variable (s : Scope) (c : Option Term) (order : List SortTerm)

def Scope.keys : List (Option Place × Bool) :=
  order.map fun k => (s.table.locate? k.column, k.descending)

def Scope.listing (limit : Option Nat) : Selection where
  scope := s
  condition := c
  order := s.keys order
  answered := s.table.answered .all
  idle := []
  limit := limit

/-- However many rows are wanted, the same are found in the same order. -/
def Scope.IsSteady : Prop :=
  ∀ limit, (s.listing c order limit).found = (s.listing c order none).found

theorem Scope.isSteady_nil : s.IsSteady c [] := by
  intro limit
  let v := (s.listing c [] none).survey (s.database.indicesOf s.table)
  have plan_eq : (s.listing c [] limit).plan = (s.listing c [] none).plan :=
    v.plan_wanting limit rfl (s.table.answered .all).length
  rw [Selection.found, plan_eq]
  rfl

/-- Nothing is sorted, or the keys tell the matching rows apart. -/
def Scope.settles : Bool :=
  order.isEmpty || (s.selection c).isSafe && s.table.Untied (s.keys order) (s.selection c).matching

variable {s c order}

theorem Scope.isSteady_of_untied (safe : (s.selection c).isSafe)
    (h : s.table.Untied (s.keys order) (s.selection c).matching) : s.IsSteady c order := by
  have safe (limit : Option Nat) : (s.listing c order limit).isSafe := safe
  intro limit
  have rows_eq : (s.listing c order limit).rows = (s.listing c order none).rows :=
    h.eq_of_perm (s.listing c order limit).rows_perm (s.listing c order none).rows_perm
      (s.listing c order limit).pairwise_rows (s.listing c order none).pairwise_rows
  rw [Selection.found_eq_rows (safe limit), Selection.found_eq_rows (safe none), rows_eq]

theorem Scope.isSteady_of_settles (h : s.settles c order) : s.IsSteady c order := by
  simp only [settles, Bool.or_eq_true, Bool.and_eq_true, decide_eq_true_eq,
    List.isEmpty_iff] at h
  rcases h with rfl | ⟨safe, untied⟩
  · exact s.isSteady_nil c
  · exact isSteady_of_untied safe untied

variable {db : Database} {table : String} {condition : Option Term} {p : Page} {args : List Datum}

theorem select_page (hs : db.prepare table condition args = .ok (s, c)) (hp : checkPage p = .ok ())
    (steady : s.IsSteady c order) : db.select .all table condition order p args =
      (db.select .all table condition order {} args).map fun a => ⟨a.columns, page p a.rows⟩ := by
  have none_eq : db.select .all table condition order {} args =
      .ok ⟨s.table.columns.map TableColumn.name,
        (s.listing c order none).found.map fun r => r.map Row.cells⟩ := by
    simp only [select, hs, bind, Except.bind]
    rfl
  rw [none_eq, Except.map, page_map, ← steady (wanted? p)]
  simp only [select, hs, hp, bind, Except.bind, pure, Except.pure]
  split
  -- With a limit of zero no row is looked for, and no row would be on the page.
  · next hl => simp [page, hl]
  · rfl

theorem select_of_checkPage (hs : db.prepare table condition args = .ok (s, c))
    {refusal : Refusal} (hp : checkPage p = .error refusal) {projection : Sql.Projection} :
    db.select projection table condition order p args = .error refusal := by
  simp only [select, hs, hp, bind, Except.bind]

end Listing

def settles (db : Database) (stmt : Statement) : Bool :=
  match Command.ofText? stmt.sql with
  | some (.select _ table condition order _) =>
    match db.prepare table condition stmt.args with
    | .ok (s, c) => s.settles c order
    | .error _ => true
  | _ => true

/-- However many of its rows are wanted, a statement finds the same in the same order. -/
def IsSteady (db : Database) (stmt : Statement) : Prop :=
  match Command.ofText? stmt.sql with
  | some (.select _ table condition order _) =>
    match db.prepare table condition stmt.args with
    | .ok (s, c) => s.IsSteady c order
    | .error _ => True
  | _ => True

variable {db : Database} {stmt : Statement}

theorem isSteady_of_settles (h : db.settles stmt) : db.IsSteady stmt := by
  unfold settles at h
  unfold IsSteady
  split at h
  · split at h
    · exact Scope.isSteady_of_settles h
    · trivial
  · trivial

theorem IsSteady.scope {projection : Sql.Projection} {table : String} {condition c : Option Term}
    {order : List SortTerm} {p : Page} {s : Scope} (h : db.IsSteady stmt)
    (hc : Command.ofText? stmt.sql = some (.select projection table condition order p))
    (hs : db.prepare table condition stmt.args = .ok (s, c)) : s.IsSteady c order := by
  simpa only [IsSteady, hc, hs] using h

end Tabular.Database
