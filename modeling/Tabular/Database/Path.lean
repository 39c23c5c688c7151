import Tabular.Database.Constraint
import Tabular.Database.Directory

/-! The ways in which the rows of a table can be read, each with what it is expected to cost. -/

namespace Tabular.Database

open Sql (Term)

structure Path where
  directory : Option Directory := none
  used : List Constraint := []
  equal : Nat := 0
  lower : Bool := false
  upper : Bool := false
  oneRow : Bool := false
  union : Option Nat := none
  /-- Paths that may differ in the order of their rows have different marks. -/
  mark : Nat := 0
  cost : Estimate := 0
  rows : Estimate := 0

namespace Path

def isLookup (p : Path) : Bool :=
  p.used.any fun c => c.relation.isEquality || c.relation.isMembership

def uses (p : Path) (source : Nat) : Bool :=
  p.union == some source || p.used.any fun c => c.source == source && c.whole

def next? (p : Path) : Option (Option Place) :=
  match p.directory with
  | none => if p.equal = 0 then some (some .id) else none
  | some d => (if d.primary then d.places else d.sortPlaces)[p.equal]?

end Path

structure Survey where
  scope : Scope
  conjuncts : List Conjunct
  outer : List (List Conjunct) := []
  constraints : List Constraint
  directories : List Directory
  order : List (Option Place × Bool) := []
  reads : List Place := []
  limit : Option Nat := none

namespace Survey

def table (v : Survey) : Table := v.scope.table

def narrowed (v : Survey) (cs : List Conjunct) : Survey :=
  { v with conjuncts := cs, outer := [], constraints := v.scope.constraints [cs] }

/-- The same question with other conditions that stand under those so far. -/
def within (v : Survey) (cs : List Conjunct) : Survey :=
  let outer := v.conjuncts :: v.outer
  { v with conjuncts := cs, outer := outer, constraints := v.scope.constraints (cs :: outer) }

def isCovered (v : Survey) (d : Directory) : Bool := v.reads.all d.covers

def mayOrder (v : Survey) (d : Option Directory) : Bool :=
  v.order.any fun k => k.1 == some Place.id || d.any fun d => k.1.isSome && d.places.contains k.1

def thinning (c : Constraint) : Estimate :=
  if !c.relation.isEquality || !c.whole then 0 else if c.common then 10 else 20

def thinned (v : Survey) (p : Path) (rows : Estimate) : Estimate :=
  let others := v.conjuncts.zipIdx.filter fun (c, i) =>
    !p.uses i && !(v.scope.under c).isIndependent c.term
  let most := (v.constraints.filter fun c => others.any fun o => o.2 == c.source).foldl
    (fun n c => max n (thinning c)) 0
  min (rows - others.length) (Table.rowEstimate - most)

def between (lower upper : Bool) (rows : Estimate) : Estimate :=
  let count := lower.toNat + upper.toNat
  min (rows - count) (max 10 (rows - 20 * count - if count = 2 then 20 else 0))

def readCost (v : Survey) (d : Option Directory) (rows : Estimate) : Estimate :=
  let search := Table.rowEstimate.search
  match d with
  | none => Estimate.sum search (rows + 16)
  | some d =>
    let cost := Estimate.sum search (rows + d.stepEstimate v.table)
    if v.isCovered d then cost else Estimate.sum cost (rows + 16)

def leavesOneRow (v : Survey) (p : Path) (c : Constraint) (alone : Bool) : Bool :=
  c.relation.isEquality &&
    match p.directory with
    | none => true
    | some d =>
      p.equal == d.places.length ||
        alone && p.equal + 1 == d.places.length &&
          (d.isKey v.table || d.places.length == 1 && d.unique && c.relation == .equal)

def accepts (v : Survey) (p : Path) (c : Constraint) : Bool :=
  p.next? == some (some c.place) && (!p.lower || c.relation == .below) &&
    (p.directory.isNone || c.fits v.table)

def extended (v : Survey) (p : Path) (c : Constraint) (alone : Bool) : Path :=
  { p with
    used := p.used ++ [c]
    equal := if c.relation.isRange then p.equal else p.equal + 1
    lower := p.lower || c.relation == .above || c.relation == .beginning
    upper := c.relation == .below || c.relation == .beginning
    oneRow := v.leavesOneRow p c alone }

/-- All paths that begin with a path and use more constraints. Memberships multiply the rows. -/
def extensions (v : Survey) : Nat → Path → Estimate → Estimate → List Path
  | 0, _, _, _ => []
  | n + 1, p, factor, rows =>
    (v.constraints.filter (v.accepts p)).flatMap fun c =>
      let q := v.extended p c (factor == 0)
      let inRange := q.equal == p.equal
      let found :=
        if inRange then between q.lower q.upper rows
        else
          match p.directory with
          | none => 0
          | some d => rows + d.sharers q.equal - d.sharers p.equal
      let factor := factor + c.relation.members
      { q with
        cost := v.readCost p.directory found + factor
        rows := v.thinned q (found + factor) } ::
      if q.upper then [] else v.extensions n q factor (if inRange then rows else found)

def lookups (v : Survey) (d : Directory) : Estimate :=
  let covered := v.conjuncts.zipIdx.takeWhile fun (c, _) => (v.table.reads c.term).all d.covers
  let equalities := covered.countP fun (_, i) =>
    v.constraints.any fun c => c.source == i && c.relation.isEquality && c.whole
  let paraphrases : Nat :=
    if covered.length = v.conjuncts.length then
      (v.conjuncts.map v.scope.paraphraseCount).foldr (· + ·) 0
    else 0
  Table.rowEstimate + 16 - covered.length - 19 * equalities - paraphrases

/-- Reading a list from end to end. A list is only read for its order, or for being narrower than
the rows themselves. -/
def scan? (v : Survey) (d : Option Directory) (mark : Nat) : Option Path :=
  let n := Table.rowEstimate
  let path (cost : Estimate) : Path :=
    let p : Path := { directory := d, mark := mark, cost := cost }
    { p with rows := v.thinned p n }
  match d with
  | none => some (path (n + 16))
  | some d =>
    if v.isCovered d then
      if v.mayOrder (some d) || d.widthEstimate v.table < v.table.widthEstimate then
        some (path (n + d.stepEstimate v.table))
      else none
    else if v.mayOrder (some d) then
      some (path (Estimate.sum (n + d.stepEstimate v.table) (v.lookups d)))
    else none

def pathsBy (v : Survey) (d : Option Directory) (place : Nat) : List Path :=
  let mark := if v.mayOrder d then place + 1 else 0
  let fuel := (d.map fun d => d.places.length).getD 0 + 3
  (v.scan? d mark).toList ++
    v.extensions fuel { directory := d, mark := mark } 0 Table.rowEstimate

def paths (v : Survey) : List Path :=
  (none :: v.directories.map some).zipIdx.flatMap fun (d, i) => v.pathsBy d i

def isIndexable (s : Scope) (c : Conjunct) : Bool :=
  let s := s.under c
  match c.term with
  | .binary .isIn left _ => (s.placeOf? left).isSome
  | .binary op left right =>
    (Relation.ofOperator? op).isSome &&
        ((s.placeOf? left).or (s.openRight? op left right)).isSome ||
      (s.pattern? 0 c).isSome
  | _ => (s.pattern? 0 c).isSome

/-- The cheaper of two ways, with the smaller number of rows where the cost does not grow. -/
def cheaper (a b : Estimate × Estimate) : Estimate × Estimate :=
  if b.1 ≤ a.1 then (b.1, min a.2 b.2) else a

def unionCost? (v : Survey) : Nat → Conjunct → Option (Estimate × Estimate)
  | 0, _ => none
  | n + 1, c => do
    let costs ← (disjoined c.term).mapM fun t => do
      let cs := (conjoined t).map fun t => { c with term := t }
      let w := v.within cs
      let single := (w.paths.filter fun p => !p.used.isEmpty).map fun p => (p.cost, p.rows)
      let unions := cs.filterMap fun c => (w.unionCost? n c).map fun a => (a.1 + 1, a.2)
      if cs.any (isIndexable v.scope) then
        match single ++ unions with
        | [] => none
        | a :: as => some (as.foldl cheaper a)
      else none
    match costs with
    | a :: b :: as =>
      some ((b :: as).foldl (fun m n => (Estimate.sum m.1 n.1, Estimate.sum m.2 n.2)) a)
    | _ => none

def unions (v : Survey) : List Path :=
  v.conjuncts.zipIdx.filterMap fun (c, i) =>
    (v.unionCost? c.term.height c).map fun a =>
      { union := some i, cost := a.1 + 1, rows := a.2 }

end Survey

end Tabular.Database
