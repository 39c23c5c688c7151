import Tabular.Database.Choice

/-! Plans say in which order the rows of a table are read. Which rows a condition selects does not
depend on the plan. -/

namespace Tabular.Database

open Sql (Term)

inductive Plan
  | walk (path : Path) (reverse : Bool)
  | union (source : Nat) (sides : List (List Conjunct × Plan))

/-- Compares rows by places, upwards or downwards; a place that tells nothing is passed over. -/
def Table.compareRows (t : Table) (keys : List (Option Place × Bool)) (r s : Row) : Ordering :=
  match keys with
  | [] => .eq
  | (some p, descending) :: ks =>
    let o := compareData (t.collationOf p) (r.get p) (s.get p)
    (if descending then o.swap else o).then (t.compareRows ks r s)
  | (none, _) :: ks => t.compareRows ks r s

def Table.sort (t : Table) (keys : List (Option Place × Bool)) (rows : List Row) : List Row :=
  rows.mergeSort fun r s => t.compareRows keys r s != .gt

def Path.arrange (t : Table) (p : Path) (reverse : Bool) (rows : List Row) : List Row :=
  let rows :=
    match p.directory with
    | none => rows
    | some d => t.sort (d.places.map fun p => (p, false)) rows
  if reverse then rows.reverse else rows

def Scope.meets (s : Scope) (t : Term) (r : Row) : Bool :=
  match s.eval r t with
  | .ok d => d.truth == some true
  | .error _ => false

def Scope.meetsAll (s : Scope) (cs : List Conjunct) (r : Row) : Bool :=
  cs.all fun c => (s.under c).meets c.term r

mutual

/-- The rows in the order in which a plan reads them, those that it passes over after the others. -/
def Plan.arrange (s : Scope) : Plan → List Row → List Row
  | .walk p reverse, rows => p.arrange s.table reverse rows
  | .union _ sides, rows => Plan.arrangeSides s sides rows

def Plan.arrangeSides (s : Scope) : List (List Conjunct × Plan) → List Row → List Row
  | [], rows => rows
  | (cs, plan) :: rest, rows =>
    (plan.arrange s rows).filter (s.meetsAll cs) ++
      Plan.arrangeSides s rest (rows.filter fun r => !s.meetsAll cs r)

end

namespace Survey

def sides (v : Survey) (source : Nat) : List (List Conjunct) :=
  match v.conjuncts[source]? with
  | none => []
  | some c =>
    let others := v.conjuncts.zipIdx.filterMap fun (d, i) =>
      let speaks := (v.scope.constraint? i d).isSome || (v.scope.equivalence? d).isSome ||
        1 < (disjoined d.term).length
      if i != source && speaks && !looksIntoTable d.term then some d else none
    (disjoined c.term).map fun t => ((conjoined t).map fun t => { c with term := t }) ++ others

def planOf (v : Survey) : Nat → Path → Bool → Plan
  | 0, p, reverse => .walk p reverse
  | n + 1, p, reverse =>
    match p.union with
    | none => .walk p reverse
    | some source =>
      .union source ((v.sides source).map fun cs =>
        let w := { v.narrowed cs with order := [] }
        (cs, w.planOf n (w.choose 1) false))

def plan (v : Survey) (width : Nat) : Plan × Nat :=
  let p := v.shortcut?.getD (v.choose width)
  let (followed, reverse) := v.direction p
  let depth := (v.conjuncts.map fun c => c.term.height).foldr (· + ·) 0
  (v.planOf depth p reverse, followed)

end Survey

end Tabular.Database
