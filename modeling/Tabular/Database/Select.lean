import Tabular.Database.Check
import Tabular.Database.Selection
import Tabular.Schema.Statement
import Tabular.Sql.Command

namespace Tabular.Database

open Sql (Term Command Projection SortTerm Page)

def greatestCount : Nat := 9223372036854775807

def pass {ε α : Type} : Nat → List (Except ε α) → List (Except ε α)
  | 0, xs => xs
  | _ + 1, [] => []
  | _ + 1, .error e :: _ => [.error e]
  | n + 1, .ok _ :: xs => pass n xs

/-- The elements of one page. A negative limit is none. What comes after the page is not looked
at. -/
def page {ε α : Type} (p : Page) (xs : List (Except ε α)) : List (Except ε α) :=
  match p.limit with
  | none => xs
  | some n =>
    let xs := pass (p.offset.getD 0) xs
    if n < 0 then xs else xs.take n.toNat

/-- A limit of zero ends the matter before the offset is looked at. -/
def checkPage (p : Page) : Except Refusal Unit :=
  match p.limit with
  | none => .ok ()
  | some n =>
    if n ≠ 0 ∧ (greatestCount < n.natAbs ∨ greatestCount < p.offset.getD 0) then .error .invalid
    else .ok ()

def wanted? (p : Page) : Option Nat :=
  match p.limit with
  | none => none
  | some n => if 0 < n ∧ n < 2147483648 then some n.toNat else none

/-- Rows of an answer under the names of their columns. Only the last may be a failure, that of the
statement at the next row. -/
structure Answer where
  columns : List String
  rows : List (Except Refusal (List Datum))

def Answer.all (a : Answer) : Except Refusal (List (List Datum)) := a.rows.mapM id

def Table.project (t : Table) (name : String) (r : Row) : List Datum :=
  match t.locate? name with
  | some p => [r.get p]
  | none => [.text name]

def Table.answered (t : Table) : Projection → List (Option Place)
  | .all => t.columns.map fun c => t.locate? c.name
  | .column n => [t.locate? n]
  | .count => []

def count (xs : Found) : List (Except Refusal (List Datum)) :=
  match xs.mapM id with
  | .ok rows => [.ok [.integer (Int64.ofNat rows.length)]]
  | .error e => [.error e]

/-- With a limit of zero no row is looked at. -/
def select (db : Database) (projection : Projection) (table : String) (condition : Option Term)
    (order : List SortTerm) (p : Page) (args : List Datum) : Except Refusal Answer := do
  let (s, condition) ← db.prepare table condition args
  checkPage p
  let keys := order.map fun k => (s.table.locate? k.column, k.descending)
  let q : Selection := {
    scope := s
    condition := condition
    order := if projection = .count then [] else keys
    answered := s.table.answered projection
    idle := if projection = .count then keys.filterMap Prod.fst else []
    limit := wanted? p }
  let rows := if p.limit = some 0 then [] else q.found
  match projection with
  | .all =>
    return ⟨s.table.columns.map TableColumn.name, (page p rows).map fun r => r.map Row.cells⟩
  | .column n => return ⟨[n], (page p rows).map fun r => r.map (s.table.project n)⟩
  | .count => return ⟨["count(*)"], page p (count rows)⟩

def fetch (db : Database) (stmt : Statement) : Except Refusal Answer :=
  match Command.ofText? stmt.sql with
  | some (.select projection table condition order p) =>
    db.select projection table condition order p stmt.args
  | _ => .error .invalid

end Tabular.Database
