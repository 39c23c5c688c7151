import Tabular.Database.Affinity
import Tabular.Database.Order
import Tabular.Sql.Term

namespace Tabular.Database

open Sql (Operator)

def andTruth : Option Bool → Option Bool → Option Bool
  | some false, _ => some false
  | _, some false => some false
  | some true, some true => some true
  | _, _ => none

def orTruth : Option Bool → Option Bool → Option Bool
  | some true, _ => some true
  | _, some true => some true
  | some false, some false => some false
  | _, _ => none

def equalData (a : Affinity) (c : Collation) (d e : Datum) : Bool :=
  compareData c (a.compare d) (a.compare e) == .eq

def accepts : Operator → Ordering → Bool
  | .eq, o => o == .eq
  | .ne, o => o != .eq
  | .lt, o => o == .lt
  | .le, o => o != .gt
  | .gt, o => o == .gt
  | .ge, o => o != .lt
  | _, _ => false

def orderOf (a : Affinity) (c : Collation) (d e : Datum) : Option Ordering :=
  if d == .null || e == .null then none else some (compareData c (a.compare d) (a.compare e))

def compareBy (op : Operator) (a : Affinity) (c : Collation) (d e : Datum) : Option Bool :=
  (orderOf a c d e).map (accepts op)

def equalOrders (os : List (Option Ordering)) : Option Bool :=
  os.foldr (fun o b => andTruth (o.map (· == .eq)) b) (some true)

/-- Whether an operator accepts two lists whose items compare like this: the first items that
differ decide. -/
def acceptsOrders (op : Operator) : List (Option Ordering) → Option Bool
  | [] => some (accepts op .eq)
  | none :: _ => none
  | some .eq :: os => acceptsOrders op os
  | some o :: _ => some (accepts op o)

def comparesLists : Operator → Bool
  | .eq | .ne | .lt | .le | .gt | .ge | .is | .isNot => true
  | _ => false

def compareOrders (op : Operator) (os : List (Option Ordering)) : Option Bool :=
  match op with
  | .eq => equalOrders os
  | .ne => (equalOrders os).map (!·)
  | op => acceptsOrders op os

/-- Whether a datum is among others. Nothing is among none, not even null. -/
def memberOf (a : Affinity) (c : Collation) (d : Datum) (es : List Datum) : Option Bool :=
  if es.isEmpty then some false
  else if d == .null then none
  else if es.any fun e => e != .null && equalData a c d e then some true
  else if es.contains .null then none
  else some false

end Tabular.Database
