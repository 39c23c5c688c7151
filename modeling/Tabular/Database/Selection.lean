import Tabular.Database.Found

namespace Tabular.Database

open Sql (Term)

structure Selection where
  scope : Scope
  condition : Option Term
  order : List (Option Place × Bool)
  answered : List (Option Place)
  idle : List Place
  limit : Option Nat

namespace Selection

def conjuncts (q : Selection) : List Conjunct :=
  match q.condition with
  | some t => q.scope.conjuncts t
  | none => []

def survey (q : Selection) (indices : List TableIndex) : Survey :=
  let t := q.scope.table
  { scope := q.scope
    conjuncts := q.conjuncts
    constraints := q.scope.constraints [q.conjuncts]
    directories := t.directories indices
    order := q.order
    reads :=
      q.answered.filterMap id ++ q.idle ++ (q.condition.map t.reads).getD [] ++
        q.order.filterMap Prod.fst
    limit := q.limit }

def plan (q : Selection) : Plan × Nat :=
  (q.survey (q.scope.database.indicesOf q.scope.table)).plan q.answered.length

def holds (q : Selection) (r : Row) : Bool :=
  match q.condition with
  | some t => q.scope.meets t r
  | none => true

def hasValue (q : Selection) (r : Row) : Bool :=
  match q.condition with
  | some t => (q.scope.eval r t).toBool
  | none => true

/-- Whether nothing can fail, in whatever order conditions are tested. What is the same in all rows
is asked for even if there are none. -/
def isSafe (q : Selection) : Bool :=
  q.scope.table.rows.all q.hasValue &&
    q.conjuncts.all fun c => ((q.scope.under c).constant c.term).toBool

/-- The selected rows. Only where a condition may fail does it matter how they are found. -/
def found (q : Selection) : Found :=
  let t := q.scope.table
  let (plan, followed) := q.plan
  if q.isSafe then
    ((t.sort q.order (plan.arrange q.scope t.rows)).filter q.holds).map .ok
  else (plan.find q.scope q.conjuncts t.rows).sort t q.order followed

end Selection

end Tabular.Database
