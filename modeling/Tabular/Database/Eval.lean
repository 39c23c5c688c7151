import Tabular.Database.Comparison
import Tabular.Database.Function

namespace Tabular.Database

open Sql (Term Operator)

/-- Values that places have wherever the condition can hold; a value that cannot be found fails
where it is asked for. A value in a column without affinity only stands for a side of a
comparison. -/
abbrev Fixed := List (Place × Except Refusal Datum)

structure Scope where
  database : Database
  table : Table
  args : List Datum
  fixed : Fixed := []

/-- An argument that is no number is null. -/
def argument : Datum → Datum
  | .real x => if x.isNaN then .null else .real x
  | d => d

def Scope.placeOf? (s : Scope) : Term → Option Place
  | .name n => s.table.locate? n
  | .brackets [t] => s.placeOf? t
  | _ => none

def Scope.affinity? (s : Scope) (t : Term) : Option Affinity :=
  (s.placeOf? t).map s.table.affinityOf

def Scope.collation? (s : Scope) (t : Term) : Option Collation :=
  (s.placeOf? t).map s.table.collationOf

/-- The left side decides, or else the right one. -/
def Scope.collation (s : Scope) (left right : Term) : Collation :=
  ((s.collation? left).or (s.collation? right)).getD .binary

def Scope.affinity (s : Scope) (left right : Term) : Affinity :=
  Affinity.ofSides (s.affinity? left) (s.affinity? right)

def Scope.operate (s : Scope) (op : Operator) (left right : Term) (d e : Datum) :
    Except Refusal Datum :=
  let a := s.affinity left right
  let c := s.collation left right
  match op with
  | .or => .ok (.ofTruth (orTruth d.truth e.truth))
  | .and => .ok (.ofTruth (andTruth d.truth e.truth))
  | .is => .ok (.ofTruth (some (equalData a c d e)))
  | .isNot => .ok (.ofTruth (some (!equalData a c d e)))
  | .like => do return .ofTruth (← likeData d e)
  | .notLike => do return .ofTruth ((← likeData d e).map (!·))
  | .bitAnd => .ok (bitwise (· &&& ·) d e)
  | .bitOr => .ok (bitwise (· ||| ·) d e)
  | .concat => .ok (concatData d e)
  | op => .ok (.ofTruth (compareBy op a c d e))

def Scope.orders (s : Scope) (lefts rights : List Term) (ds es : List Datum) :
    List (Option Ordering) :=
  ((lefts.zip rights).zip (ds.zip es)).map fun ((l, r), (d, e)) =>
    orderOf (s.affinity l r) (s.collation l r) d e

def Scope.identical (s : Scope) (lefts rights : List Term) (ds es : List Datum) : Bool :=
  ((lefts.zip rights).zip (ds.zip es)).all fun ((l, r), (d, e)) =>
    equalData (s.affinity l r) (s.collation l r) d e

def Scope.operateLists (s : Scope) (op : Operator) (lefts rights : List Term)
    (ds es : List Datum) : Datum :=
  .ofTruth <| match op with
    | .is => some (s.identical lefts rights ds es)
    | .isNot => some (!s.identical lefts rights ds es)
    | op => compareOrders op (s.orders lefts rights ds es)

def negatedIf (op : Operator) (found : Option Bool) : Datum :=
  .ofTruth (if op = .notIn then found.map (!·) else found)

def Scope.among (s : Scope) (op : Operator) (left : Term) (d : Datum) (es : List Datum) : Datum :=
  negatedIf op
    (memberOf ((s.affinity? left).getD .untyped) ((s.collation? left).getD .binary) d es)

def Scope.amongRows (s : Scope) (op : Operator) (left : Term) (d : Datum) (t : Table) : Datum :=
  let a := Affinity.ofSides (s.affinity? left) (some (t.affinityOf (.cell 0)))
  let c := (s.collation? left).getD (t.collationAt 0)
  negatedIf op (memberOf a c d (t.rows.map fun r => r.cell 0))

def Scope.listAmongRows (s : Scope) (op : Operator) (lefts : List Term) (ds : List Datum)
    (t : Table) : Datum :=
  let orders (r : Row) := (lefts.zip ds).zipIdx.map fun ((l, d), i) =>
    orderOf (Affinity.ofSides (s.affinity? l) (some (t.affinityOf (.cell i))))
      ((s.collation? l).getD (t.collationAt i)) d (r.cell i)
  negatedIf op (t.rows.foldr (fun r b => orTruth (equalOrders (orders r)) b) (some false))

/-- Comparisons whose sides may be taken for what they are known to equal. -/
def takesFixed (op : Operator) (right : Term) : Bool :=
  match op, right with
  | .isIn, .brackets [.placeholder _] => true
  | .eq, _ | .is, _ | .lt, _ | .le, _ | .gt, _ | .ge, _ => true
  | _, _ => false

def Scope.fixedSide? (s : Scope) (t : Term) : Option (Except Refusal Datum) :=
  (s.placeOf? t).bind fun p => s.fixed.lookup p

def Scope.fixedLeft? (s : Scope) (op : Operator) (left right : Term) :
    Option (Except Refusal Datum) :=
  if takesFixed op right then s.fixedSide? left else none

def Scope.fixedRight? (s : Scope) (op : Operator) (left right : Term) :
    Option (Except Refusal Datum) :=
  if op != .isIn && takesFixed op right && s.affinity? left != some .text then s.fixedSide? right
  else none

def Scope.fixedAt? (s : Scope) (p : Place) : Option (Except Refusal Datum) :=
  if s.table.affinityOf p == .untyped then none else s.fixed.lookup p

mutual

/-- A name that no column has stands for itself as text. -/
def Scope.eval (s : Scope) (r : Row) : Term → Except Refusal Datum
  | .placeholder i => .ok ((s.args[i]?.map argument).getD .null)
  | .name n =>
    match s.table.locate? n with
    | some p => (s.fixedAt? p).getD (.ok (r.get p))
    | none => .ok (.text n)
  | .literal t => .ok (.text t)
  | .number n =>
    match Decimal.toInt64? n with
    | some m => .ok (.integer m)
    | none => .ok (.real (Binary64.ofInt n))
  | .brackets items => do
    match ← s.evalAll r items with
    | [d] => return d
    | _ => throw .invalid
  | .apply f args => do
    match SqlFunction.ofName? f args.length with
    | some .coalesce => s.evalFirst r args
    | some .lastInsertRowid => return .integer s.database.lastId
    | some f => f.apply (← s.evalAll r args)
    | none => throw .invalid
  | .binary op (.brackets (l :: m :: ls)) right => do
    let ds ← s.evalAll r (l :: m :: ls)
    match right with
    | .brackets es => return s.operateLists op (l :: m :: ls) es ds (← s.evalAll r es)
    | .name n =>
      match s.database.table? n with
      | some t => return s.listAmongRows op (l :: m :: ls) ds t
      | none => throw (.noSuchTable n)
    | _ => throw .invalid
  | .binary op left right => do
    let d ← (s.fixedLeft? op left right).getD (s.eval r left)
    if op = .isIn ∨ op = .notIn then
      match right with
      | .brackets items => return s.among op left d (← s.evalAll r items)
      | .name n =>
        match s.database.table? n with
        | some t => return s.amongRows op left d t
        | none => throw (.noSuchTable n)
      | _ => throw .invalid
    else s.operate op left right d (← (s.fixedRight? op left right).getD (s.eval r right))

def Scope.evalAll (s : Scope) (r : Row) : List Term → Except Refusal (List Datum)
  | [] => .ok []
  | t :: ts => do
    let d ← s.eval r t
    let ds ← s.evalAll r ts
    return d :: ds

def Scope.evalFirst (s : Scope) (r : Row) : List Term → Except Refusal Datum
  | [] => .ok .null
  | t :: ts => do
    let d ← s.eval r t
    if d = .null then s.evalFirst r ts else return d

end

def knownTruth? : Term → Option Bool
  | .number n => some (n != 0)
  | .binary .and left right => andTruth (knownTruth? left) (knownTruth? right)
  | .binary .or left right => orTruth (knownTruth? left) (knownTruth? right)
  | _ => none

/-- Whether a condition holds. Of the connectives the right side is only looked at where the left
one does not decide. -/
def Scope.test (s : Scope) (r : Row) (t : Term) : Except Refusal Bool :=
  match knownTruth? t with
  | some b => .ok b
  | none =>
    match t with
    | .binary .and left right => do
      if ← s.test r left then s.test r right else return false
    | .binary .or left right => do
      if ← s.test r left then return true else s.test r right
    | t => do return (← s.eval r t).truth == some true

end Tabular.Database
