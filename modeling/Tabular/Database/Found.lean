import Tabular.Database.Plan

namespace Tabular.Database

open Sql (Term)

abbrev Found := List (Except Refusal Row)

/-- The elements that pass a test, up to the first failure. -/
def sift {ε α : Type} (test : α → Except ε Bool) : List (Except ε α) → List (Except ε α)
  | [] => []
  | .error e :: _ => [.error e]
  | .ok a :: xs =>
    match test a with
    | .ok true => .ok a :: sift test xs
    | .ok false => sift test xs
    | .error e => [.error e]

def Found.followedBy (xs ys : Found) : Found :=
  if xs.all fun x => x.toBool then xs ++ ys else xs

/-- Rows that were found before are passed over. -/
def Found.fresh : List Int64 → Found → Found
  | _, [] => []
  | _, .error e :: _ => [.error e]
  | seen, .ok r :: xs =>
    if seen.contains r.id then Found.fresh seen xs else .ok r :: Found.fresh (r.id :: seen) xs

def Scope.testAll (s : Scope) (cs : List Conjunct) (r : Row) : Except Refusal Bool :=
  match cs with
  | [] => .ok true
  | c :: cs => do if ← (s.under c).test r c.term then s.testAll cs r else return false

/-- Conditions that are the same for all rows are tested once and before any row is read. -/
def Scope.isHoisted (s : Scope) (c : Conjunct) : Bool := (s.under c).isConstant c.term

def Scope.targets (s : Scope) (c : Constraint) : Except Refusal (List Datum) :=
  match c.relation, c.bounds with
  | .amongRows, [.name n] =>
    .ok (((s.database.table? n).map fun t => t.rows.map fun r => r.cell 0).getD [])
  | _, bounds =>
    let s := { s with fixed := c.fixed }
    bounds.mapM fun t => (s.fixedSide? t).getD (s.constant t)

def Constraint.accepts (c : Constraint) (targets : List Datum) (d : Datum) : Bool :=
  targets.any fun e =>
    match c.relation, d, e with
    | .beginning, .text t, .text start => Text.startsWithName t start
    | .same, _, _ => equalData c.affinity c.collation d e
    | _, _, _ => compareBy c.operator c.affinity c.collation d e == some true

/-- Tests what a row has in the places that are looked up. What the conditions fix does not stand
for it. -/
def Scope.matches (s : Scope) (cs : List Constraint) (r : Row) : Except Refusal Bool :=
  match cs with
  | [] => .ok true
  | c :: cs => do if c.accepts (← s.targets c) (r.get c.place) then s.matches cs r else return false

def Path.inOrder (p : Path) (reverse : Bool) : List Constraint :=
  let bounds := p.used.filter fun c => c.relation.isRange
  (p.used.filter fun c => !c.relation.isRange) ++
    if reverse then bounds.reverse else bounds

def isEnd (reverse : Bool) (c : Constraint) : Bool :=
  c.relation == if reverse then .above else .below

def Scope.enters (s : Scope) : List Constraint → Except Refusal Bool
  | [] => .ok true
  | c :: rest => do
    let targets ← s.targets c
    if c.relation == .equal && targets.contains .null then return false else s.enters rest

def Constraint.position (c : Constraint) (d target : Datum) : Ordering :=
  compareData c.collation (c.affinity.compare d) (c.affinity.compare target)

def Scope.lies (s : Scope) (reverse : Bool) (r : Row) : List Constraint → Except Refusal Bool
  | [] => .ok true
  | c :: rest => do
    let d := r.get c.place
    let targets ← s.targets c
    if c.relation.isRange then return c.accepts targets d
    else
      let further := if reverse then .lt else .gt
      let compared := targets.filter fun e => c.relation == .same || e != .null
      return (compared.map (c.position d)).contains further ||
        c.accepts targets d && (← s.lies reverse r rest)

/-- Whether a path gets as far as reading rows. The values to look up and the bound to begin at are
found first; the bound to end at is found when there is a row at or after the beginning. -/
def Path.enters (s : Scope) (p : Path) (reverse : Bool) (rows : List Row) :
    Except Refusal Bool := do
  let (last, first) := (p.inOrder reverse).partition (isEnd reverse)
  if ← s.enters first then
    match last with
    | [] => return true
    | c :: _ =>
      let reached ← rows.anyM fun r => do
        return (reverse || r.get c.place != .null || !(← s.matches first r)) &&
          (← s.lies reverse r first)
      if reached then discard (s.targets c)
      return reached
  else return false

def Path.tests (t : Table) (p : Path) (cs : List Conjunct) : List Conjunct :=
  let rest := (cs.zipIdx.filter fun (_, i) => !p.uses i).map Prod.fst
  match p.directory with
  | none => rest
  | some d =>
    let (early, late) := rest.partition fun c => (t.reads c.term).all d.covers
    early ++ late

mutual

def Plan.find (s : Scope) (cs : List Conjunct) : Plan → List Row → Found
  | .walk p reverse, rows =>
    let entered := do
      if ← s.testAll (cs.filter s.isHoisted) ⟨0, []⟩ then p.enters s reverse rows
      else return false
    match entered with
    | .error e => [.error e]
    | .ok false => []
    | .ok true =>
      sift (s.testAll ((p.tests s.table cs).filter fun c => !s.isHoisted c))
        (sift (s.matches (p.inOrder reverse)) ((p.arrange s.table reverse rows).map .ok))
  | .union source sides, rows =>
    match s.testAll (cs.filter s.isHoisted) ⟨0, []⟩ with
    | .error e => [.error e]
    | .ok false => []
    | .ok true =>
      let others := (cs.zipIdx.filter fun (c, i) => i != source && !s.isHoisted c).map Prod.fst
      sift (s.testAll others) (Found.fresh [] (Plan.findSides s sides rows))

def Plan.findSides (s : Scope) : List (List Conjunct × Plan) → List Row → Found
  | [], _ => []
  | (cs, plan) :: rest, rows => (plan.find s cs rows).followedBy (Plan.findSides s rest rows)

end

def Found.split : Found → List Row × Option Refusal
  | [] => ([], none)
  | .ok r :: xs => let (rs, e) := Found.split xs; (r :: rs, e)
  | .error e :: _ => ([], some e)

/-- Sorts rows of which the order follows the first places already. Rows that agree in those are
sorted together, so a failure hides the ones that it falls among. -/
def Found.sort (t : Table) (keys : List (Option Place × Bool)) (followed : Nat) (xs : Found) :
    Found :=
  let (rows, failure) := xs.split
  match failure with
  | none => (t.sort keys rows).map .ok
  | some e =>
    let complete :=
      match rows.getLast? with
      | some r =>
        if followed < keys.length then
          (rows.reverse.dropWhile fun s => t.compareRows (keys.take followed) r s == .eq).reverse
        else rows
      | none => []
    (t.sort keys complete).map .ok ++ [.error e]

end Tabular.Database
