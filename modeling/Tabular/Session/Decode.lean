import Tabular.Session.Failure

namespace Tabular

inductive Cell
  | stored (d : Datum)
  | moment (m : Calendar.Moment)
  | span (d : Calendar.Span)

abbrev NamedRow := List (String × Cell)

inductive Reading
  | integer
  | real
  | text
  | blob
  | momentTicks
  | spanTicks
  deriving DecidableEq

def Reading.decode (r : Reading) (column : Option String) (d : Datum) : Except Failure Cell :=
  match r, d with
  | _, .null => .ok (.stored .null)
  | .integer, .integer n => .ok (.stored (.integer n))
  | .real, .real x => .ok (.stored (.real x))
  | .text, .text s => .ok (.stored (.text s))
  | .blob, .blob b => .ok (.stored (.blob b))
  | .spanTicks, .integer t => .ok (.span (Calendar.Span.ofTicks t))
  | .momentTicks, .integer t =>
    match Calendar.Moment.ofTicks t with
    | .ok m => .ok (.moment m)
    | .error fault => .error (.decode column (some fault))
  | _, _ => .error (.decode column none)

namespace TableMapping

def reading? (t : TableMapping) (column : String) : Option Reading :=
  (t.column? column).bind fun c =>
    if c.kind = .duration then some .spanTicks
    else if c.kind = .datetime ∧ t.ticks then some .momentTicks
    else none

def decodeCell (t : TableMapping) (column : String) (d : Datum) :
    Except Failure (String × Cell) := do
  match t.reading? column with
  | some r => return (column, ← r.decode (some column) d)
  | none => return (column, .stored d)

/-- The first cell from the left that cannot be read makes the row fail. -/
def decodeRow (t : TableMapping) (columns : List String) (row : List Datum) :
    Except Failure NamedRow :=
  (columns.zip row).mapM fun c => t.decodeCell c.1 c.2

end TableMapping

def Reading.decodeRow (r : Reading) (row : List Datum) : Except Failure Cell :=
  r.decode none (row.head?.getD .null)

end Tabular
