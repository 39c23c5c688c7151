import Tabular.Query
import Tabular.Schema.Cache
import Tabular.Session.Decode
import Tabular.Session.Description

namespace Tabular

structure Session where
  options : Options := {}
  cache : MappingCache := {}
  database : Database := {}
  closed : Bool := false

namespace Session

/-- An operation on a session. What it has done up to a failure is not undone. -/
abbrev Action := ExceptT Failure (StateM Session)

def ofQuery {α : Type} (x : Except Fault α) : Action α :=
  match x with
  | .ok a => pure a
  | .error fault => throw (.query fault)

/-- The mapping of a type, resolved when the type is used for the first time. -/
def mapping (t : RowType) : Action TableMapping := do
  let s ← get
  let o := s.options
  let (m, cache) ← ofQuery (s.cache.getOrResolve t o.conventions o.rules o.provider)
  set { s with cache := cache }
  return m

def execute (stmt : Statement) : Action Nat := do
  let s ← get
  if s.closed then throw .closed
  match s.database.execute stmt with
  | .ok (n, db) =>
    set { s with database := db }
    return n
  | .error refusal => throw (.refused refusal)

def answer (s : Session) (stmt : Statement) : Except Failure Database.Answer :=
  if s.closed then .error .closed else (s.database.fetch stmt).mapError .refused

def fetch (stmt : Statement) : Action Database.Answer := do
  match (← get).answer stmt with
  | .ok a => return a
  | .error failure => throw failure

def decoded {α : Type} (decode : List Datum → Except Failure α)
    (row : Except Database.Refusal (List Datum)) : Except Failure α :=
  match row with
  | .ok row => decode row
  | .error refusal => .error (.refused refusal)

def createTable (t : RowType) : Action Unit := do
  let m ← mapping t
  (m.createTable :: m.createIndices).forM fun sql => discard (execute ⟨sql, []⟩)

/-- Answers the id of the row that was inserted last: the new one, unless it was ignored. -/
def insert (t : RowType) (values : List Value) : Action Int64 := do
  let m ← mapping t
  let stmt ← ofQuery (m.insert values)
  let _ ← execute stmt
  return (← get).database.lastId

/-- Runs statements one after the other, up to the first that is refused, and counts the rows that
they change. -/
def executeAll (db : Database) : List Statement → Except Database.Refusal Nat × Database
  | [] => (.ok 0, db)
  | stmt :: rest =>
    match db.execute stmt with
    | .ok (n, db) =>
      let (r, db) := executeAll db rest
      (r.map (n + ·), db)
    | .error refusal => (.error refusal, db)

/-- All of the statements take effect, or none of them does. -/
def transaction (stmts : List Statement) : Action Nat := do
  let s ← get
  if s.closed then throw .closed
  match executeAll s.database stmts with
  | (.ok n, db) =>
    set { s with database := db }
    return n
  | (.error refusal, db) =>
    set { s with database := { s.database with lastId := db.lastId } }
    throw (.refused refusal)

def insertAll (t : RowType) (rows : List (List Value)) : Action Nat := do
  let m ← mapping t
  let stmts ← ofQuery (rows.mapM m.insert)
  transaction stmts

def ofDecoded {α : Type} (x : Except Failure α) : Action α :=
  match x with
  | .ok a => pure a
  | .error failure => throw failure

def findRowByKeys (t : RowType) (keys : List Value) : Action (Option NamedRow) := do
  let m ← mapping t
  let stmt ← ofQuery (m.getByKeys keys)
  let a ← fetch stmt
  match a.rows with
  | [] => return none
  | row :: _ => return some (← ofDecoded (decoded (m.decodeRow a.columns) row))

def orNotFound {α : Type} (x : Option α) : Action α :=
  match x with
  | some a => pure a
  | none => throw .notFound

def getRowByKeys (t : RowType) (keys : List Value) : Action NamedRow := do
  orNotFound (← findRowByKeys t keys)

def findRow (t : RowType) (key : Value) : Action (Option NamedRow) := findRowByKeys t [key]

def getRow (t : RowType) (key : Value) : Action NamedRow := do orNotFound (← findRow t key)

def deleteByKeys (t : RowType) (keys : List Value) : Action Nat := do
  let m ← mapping t
  let stmt ← ofQuery (m.deleteByKeys keys)
  execute stmt

def delete (t : RowType) (key : Value) : Action Nat := deleteByKeys t [key]

/-- Without keys there is nothing to do. -/
def deleteIn (t : RowType) (keys : List Value) : Action Nat :=
  if keys.isEmpty then return 0
  else do
    let m ← mapping t
    let stmt ← ofQuery (m.deleteIn keys)
    execute stmt

def deleteAll (t : RowType) : Action Nat := do
  let m ← mapping t
  execute m.deleteAll

def close : Action Unit := modify fun s => { s with closed := true }

def table (t : RowType) : Action Query := do return { mapping := ← mapping t }

end Session

end Tabular
