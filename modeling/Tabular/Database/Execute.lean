import Tabular.Database.Create
import Tabular.Database.Reference
import Tabular.Database.Select

namespace Tabular.Database

open Sql (Term Command)

def Table.given? (t : Table) (columns : List String) (args : List Datum) :
    Option (List (Place × Datum)) := do
  let places ← columns.mapM t.locate?
  return places.zip (args.map argument)

def withAdded (db : Database) : Option Row × Table → Except Refusal (Nat × Database)
  | (none, t) => .ok (0, db.replace t)
  | (some r, t) =>
    if db.refersToNone t r then .error .foreignKey
    else .ok (1, { db.replace t with lastId := r.id })

def insert (db : Database) (table : String) (columns : List String) (args : List Datum) :
    Except Refusal (Nat × Database) :=
  match db.table? table with
  | none => .error (.noSuchTable table)
  | some t =>
    match t.given? columns args with
    | none => .error .invalid
    | some given => do
      db.checkTargets t
      db.withAdded (← t.add (db.indicesOf t) given)

def Scope.holds (s : Scope) (condition : Option Term) (r : Row) : Except Refusal Bool :=
  match condition with
  | none => .ok true
  | some t => s.test r t

def Scope.partition (s : Scope) (condition : Option Term) :
    List Row → Except Refusal (List Row × List Row)
  | [] => .ok ([], [])
  | r :: rs => do
    let b ← s.holds condition r
    let (inside, outside) ← s.partition condition rs
    return if b then (r :: inside, outside) else (inside, r :: outside)

/-- Rows that refer to each other may go together. -/
def delete (db : Database) (table : String) (condition : Option Term) (args : List Datum) :
    Except Refusal (Nat × Database) := do
  let (s, condition) ← db.prepare table condition args
  db.checkTargets s.table
  db.checkSources s.table
  let (gone, kept) ← s.partition condition s.table.rows
  let db := db.replace { s.table with rows := kept }
  if db.refersToAny s.table gone then throw .foreignKey
  return (gone.length, db)

def execute (db : Database) (stmt : Statement) : Except Refusal (Nat × Database) :=
  match Command.ofText? stmt.sql with
  | some (.createTable table cs key) => do return (0, ← db.createTable table cs key)
  | some (.createIndex unique index table columns) => do
    return (0, ← db.createIndex ⟨index, table, columns, unique⟩)
  | some (.insert table columns) => db.insert table columns stmt.args
  | some (.delete table condition) => db.delete table condition stmt.args
  | _ => .error .invalid

end Tabular.Database
