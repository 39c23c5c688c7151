import Tabular.Database.Execute

namespace Tabular

inductive Failure
  | query (fault : Fault)
  | notFound
  | closed
  /-- A cell that is not of the wanted type, or whose ticks lie outside the calendar. The column is
  named in a row and not in a projection. -/
  | decode (column : Option String) (cause : Option Fault)
  | refused (refusal : Database.Refusal)
  | noRow

namespace Database

def qualified (table : String) (columns : List String) : String :=
  ", ".intercalate (columns.map fun c => table ++ "." ++ c)

def Refusal.message? : Refusal → Option String
  | .noSuchTable table => some ("(code: 1) no such table: " ++ table)
  | .notNull table column =>
    some ("(code: 1299) NOT NULL constraint failed: " ++ qualified table [column])
  | .duplicateKey table columns =>
    some ("(code: 1555) UNIQUE constraint failed: " ++ qualified table columns)
  | .duplicateEntry table columns =>
    some ("(code: 2067) UNIQUE constraint failed: " ++ qualified table columns)
  | .duplicateIn index =>
    some ("(code: 2067) UNIQUE constraint failed: index '" ++ index ++ "'")
  | .foreignKey => some "(code: 787) FOREIGN KEY constraint failed"
  | .invalid => none

end Database

namespace Failure

def message? : Failure → Option String
  | .query fault => some ("query error: " ++ fault.message)
  | .notFound => some "object not found"
  | .closed => some "database error: attempted to acquire a connection on a closed pool"
  | .decode column (some cause) =>
    some ("database error: error occurred while decoding column " ++
      (column.map Text.quoted).getD "0" ++ ": " ++ cause.message)
  | .decode _ none => none
  | .refused refusal =>
    refusal.message?.map fun s => "database error: error returned from database: " ++ s
  | .noRow => none

end Failure

end Tabular
