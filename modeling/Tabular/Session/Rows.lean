import Tabular.Session.Basic

namespace Tabular

def untilFailure {ε α : Type} : List (Except ε α) → List (Except ε α)
  | [] => []
  | .ok a :: xs => .ok a :: untilFailure xs
  | .error e :: _ => [.error e]

/-- What is read from an answer one element at a time. A deferred reading gives each element as it
comes to it; the other one gives the first only when it has come to the last. -/
def stream {ε α : Type} (deferred : Bool) (xs : List (Except ε α)) : List (Except ε α) :=
  if deferred then untilFailure xs
  else
    match xs.mapM id with
    | .ok as => as.map .ok
    | .error e => [.error e]

namespace Session

def collect (m : TableMapping) (stmt : Statement) : Action (List NamedRow) := do
  let a ← fetch stmt
  ofDecoded (a.rows.mapM (decoded (m.decodeRow a.columns)))

def toList (q : Query) : Action (List NamedRow) := do collect q.mapping (← ofQuery q.statement)

def first? (q : Query) : Action (Option NamedRow) := do return (← toList q.first).head?

def first (q : Query) : Action NamedRow := do orNotFound (← first? q)

def elementAt (q : Query) (i : Nat) : Action NamedRow := do
  orNotFound (← toList (q.elementAt i)).head?

def countOf (stmt : Statement) : Action Int64 := do
  match (← fetch stmt).rows with
  | .ok [.integer n] :: _ => return n
  | .error refusal :: _ => throw (.refused refusal)
  | _ => throw .noRow

def count (q : Query) : Action Int64 := do countOf (← ofQuery q.count)

def countWhere (q : Query) (p : Expr) : Action Int64 := do countOf (← ofQuery (q.countWhere p))

def elements {α : Type} (answer : Except Failure Database.Answer)
    (decode : List String → List Datum → Except Failure α) : List (Except Failure α) :=
  match answer with
  | .ok a => a.rows.map (decoded (decode a.columns))
  | .error failure => [.error failure]

/-- The rows one by one. Reading them changes nothing, however many are read. -/
def rows (q : Query) : Action (List (Except Failure NamedRow)) := do
  let stmt ← ofQuery q.statement
  return stream q.deferred (elements ((← get).answer stmt) q.mapping.decodeRow)

def select (q : Query) (key : Expr) (as : Reading) : Action (List Cell × Statement) := do
  let stmt ← ofQuery (q.select key)
  let a ← fetch stmt
  return (← ofDecoded (a.rows.mapM (decoded as.decodeRow)), stmt)

def selectRows (q : Query) (key : Expr) (as : Reading) :
    Action (List (Except Failure Cell)) := do
  let stmt ← ofQuery (q.select key)
  return stream q.deferred (elements ((← get).answer stmt) fun _ => as.decodeRow)

end Session

end Tabular
