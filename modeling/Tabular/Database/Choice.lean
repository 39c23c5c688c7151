import Tabular.Database.Path

namespace Tabular.Database

namespace Survey

def isCheaperPart (v : Survey) (p q : Path) : Bool :=
  !(q.cost < p.cost && q.rows < p.rows) &&
    (p.directory == q.directory && p.equal < q.equal ||
      p.used.length < q.used.length &&
        (p.used.all fun c => q.used.any fun d => d.source == c.source) &&
        (!p.directory.any v.isCovered || q.directory.any v.isCovered))

def adjustedBy (v : Survey) (p q : Path) : Path :=
  if q.directory.isNone then p
  else if v.isCheaperPart q p then
    { p with cost := min q.cost p.cost, rows := min (q.rows - 1) p.rows }
  else if v.isCheaperPart p q then
    { p with cost := max q.cost p.cost, rows := max (q.rows + 1) p.rows }
  else p

def adjusted (v : Survey) (known : List Path) (p : Path) : Path :=
  if p.directory.isNone then p else known.foldl v.adjustedBy p

end Survey

namespace Path

def isNoWorse (p q : Path) : Bool := p.cost ≤ q.cost && p.rows ≤ q.rows

def withoutWorse (p : Path) : List Path → List Path
  | [] => []
  | q :: qs =>
    if q.mark != p.mark then q :: withoutWorse p qs
    else if q.isNoWorse p then q :: qs
    else if p.isNoWorse q then withoutWorse p qs
    else q :: withoutWorse p qs

def among (p : Path) : List Path → List Path
  | [] => [p]
  | q :: qs =>
    if q.mark != p.mark then q :: among p qs
    else if q.isNoWorse p then q :: qs
    else if p.isNoWorse q then p :: withoutWorse p qs
    else q :: among p qs

end Path

namespace Survey

def candidates (v : Survey) : List Path :=
  (v.paths ++ v.unions).foldl (fun known p => (v.adjusted known p).among known) []

def equality? (v : Survey) (p : Place) : Option Constraint :=
  v.constraints.find? fun c => c.place == p && c.relation.isEquality

def membership? (v : Survey) (p : Place) : Option Constraint :=
  v.constraints.find? fun c => c.place == p && c.relation.isMembership

/-- Whether there is only one value for a place to sort by: on all rows, or on the rows that the
path reads for each value of a membership. -/
def isPinned (v : Survey) (p : Path) (each : Bool) (k : Option Place × Bool) : Bool :=
  match k.1 with
  | none => false
  | some place =>
    match v.equality? place with
    | some c => place == .id || c.collation == v.table.collationOf place
    | none =>
      each && (v.membership? place).any fun c => p.used.any fun d => d.source == c.source

structure Progress where
  followed : List Bool
  distinct : Bool
  reverse : Option Bool := none
  byId : Bool := false
  done : Bool := false

def Progress.wanted (g : Progress) (order : List (Option Place × Bool)) :
    Option (Nat × Option Place × Bool) :=
  ((order.zip g.followed).zipIdx.find? fun (k, _) => !k.2).map fun (k, i) => (i, k.1)

def Progress.step (v : Survey) (p : Path) (each : Bool) (g : Progress) (k : Option Place × Nat) :
    Progress :=
  let (place, j) := k
  let keys := (p.directory.map fun d => d.places.length).getD 0
  let pinned := if j < p.equal then p.used[j]? else none
  if g.done then g
  else
    match pinned.filter fun c => c.relation.isEquality || each && c.relation.isMembership with
    | some c => { g with distinct := g.distinct && c.relation != .same }
    | none =>
      let g :=
        { g with distinct := g.distinct &&
            (place == some Place.id || place.isSome && (j < p.equal || v.table.isNotNull place)) }
      let failed := { g with distinct := g.distinct && !(j == 0 || j < keys), done := true }
      match g.wanted v.order with
      | none => failed
      | some (i, wanted, descending) =>
        if place.isNone || wanted != place || g.reverse.any (· != descending) then failed
        else
          { g with
            followed := g.followed.set i true
            reverse := some (g.reverse.getD descending)
            byId := g.byId || place == some Place.id }

def followed (v : Survey) (p : Path) (each : Bool) : Nat × Bool :=
  let pinned := v.order.map (v.isPinned p each)
  if p.union.isSome then (0, false)
  else
    let g : Progress :=
      if p.oneRow then { followed := pinned, distinct := true }
      else
        let places := (p.directory.map Directory.sortPlaces).getD [some .id]
        let start : Progress :=
          { followed := pinned, distinct := (p.directory.map Directory.unique).getD true }
        let g := places.zipIdx.foldl (Progress.step v p each) start
        { g with distinct := g.distinct || g.byId }
    let count :=
      if g.distinct || g.followed.all id then v.order.length
      else (g.followed.takeWhile id).length
    (count, g.reverse.getD false)

/-- How many of the wanted places the path's order follows, and whether it is read backwards. If it
follows none, but does so for each value of a membership, it is read in the direction for that. -/
def direction (v : Survey) (p : Path) : Nat × Bool :=
  let all := v.followed p false
  let each := v.followed p true
  let byId := p.directory.isNone && p.used.any fun c => c.relation.isMembership
  if all.1 = 0 && each.1 = v.order.length && !p.oneRow && !byId then (0, each.2) else all

/-- The cost of sorting rows of which the order follows some wanted places already. Where only so
many rows are wanted, no more are kept. -/
def sortCost (v : Survey) (width : Nat) (rows : Estimate) (followed : Nat) : Estimate :=
  let wanted := v.order.length
  let part :=
    if followed = 0 then 0 else Estimate.ofNat ((wanted - followed) * 100 / wanted) - 66
  let whole := rows + Estimate.ofNat ((width + 59) / 30) + part
  match v.limit with
  | none => whole + rows.search
  | some n =>
    whole + (if followed = 0 then 10 else 16) + Estimate.search (min (Estimate.ofNat n) rows)

def isBetter (a b : Estimate × Estimate × Estimate) : Bool :=
  a.1 < b.1 || a.1 == b.1 && (a.2.1 < b.2.1 || a.2.1 == b.2.1 && a.2.2 < b.2.2)

def best (weight : Path → Estimate × Estimate × Estimate) : List Path → Option Path
  | [] => none
  | p :: ps => some (ps.foldl (fun p q => if isBetter (weight q) (weight p) then q else p) p)

def plainWeight (p : Path) : Estimate × Estimate × Estimate :=
  let cost := Estimate.sum 0 (Estimate.sum 0 p.cost)
  (cost, p.rows, cost - 2)

def sortedWeight (v : Survey) (width : Nat) (rows : Estimate) (p : Path) :
    Estimate × Estimate × Estimate :=
  let cost := Estimate.sum 0 (Estimate.sum 0 p.cost)
  let n := (v.followed p false).1
  if n < v.order.length then
    (Estimate.sum cost (v.sortCost width rows n) + 3, p.rows, cost)
  else (cost, p.rows, cost - 2)

/-- Looking up a row by its id or by a key is taken without a comparison. -/
def shortcut? (v : Survey) : Option Path :=
  match v.equality? .id with
  | some c => some { used := [c], equal := 1, oneRow := true }
  | none =>
    v.directories.findSome? fun d =>
      if d.unique && d.places.length ≤ 3 then do
        let used ← d.places.mapM fun p =>
          p.bind fun p => v.constraints.find? fun c =>
            c.place == p && c.fits v.table &&
              (c.relation == .equal || c.relation == .same && d.isKey v.table)
        return { directory := some d, used := used, equal := used.length, oneRow := true }
      else none

/-- The path that is taken. Once a look-up is best without regard to order, reading from end to end
is out of the question. -/
def choose (v : Survey) (width : Nat) : Path :=
  let all := v.candidates
  match best plainWeight all with
  | none => {}
  | some p =>
    if v.order.isEmpty then p
    else
      let ps := if p.isLookup then all.filter fun q => !q.used.isEmpty else all
      (best (v.sortedWeight width (max 1 (p.rows + 1))) ps).getD p

end Survey

end Tabular.Database
