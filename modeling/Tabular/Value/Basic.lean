import Tabular.Binary64.Basic
import Tabular.Calendar.Moment

namespace Tabular

/-- What the database knows: an argument of a statement or a stored cell. -/
inductive Datum
  | null
  | integer (n : Int64)
  | real (x : Binary64)
  | text (s : String)
  | blob (b : List UInt8)
  deriving DecidableEq

/-- The members of a record are kept in the order of their names, each name once. -/
inductive Value
  | null
  | bool (b : Bool)
  | int (n : Int64)
  | float (x : Binary64)
  | text (s : String)
  | blob (b : List UInt8)
  | moment (m : Calendar.Moment)
  | span (d : Calendar.Span)
  | list (items : List Value)
  | record (members : List (String × Value))

namespace Value

def isNull : Value → Bool
  | .null => true
  | _ => false

def isText : Value → Bool
  | .text _ => true
  | _ => false

def insertMember (name : String) (v : Value) : List (String × Value) → List (String × Value)
  | [] => [(name, v)]
  | (n, w) :: ms =>
    if name < n then (name, v) :: (n, w) :: ms
    else if name = n then (name, v) :: ms
    else (n, w) :: insertMember name v ms

/-- Of members with one name the last one counts. -/
def ofMembers (ms : List (String × Value)) : Value :=
  .record (ms.foldl (fun acc m => insertMember m.1 m.2 acc) [])

def member? : Value → String → Option Value
  | .record ms, name => ms.lookup name
  | .list items, name => if name = "len" then some (.int (Int64.ofInt items.length)) else none
  | .text s, name => if name = "len" then some (.int (Int64.ofInt s.length)) else none
  | _, _ => none

end Value

end Tabular
