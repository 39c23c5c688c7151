import Tabular.Fault
import Tabular.Schema.RecordType

namespace Tabular

structure Index where
  name : String
  columns : List String
  unique : Bool
  deriving DecidableEq

structure ColumnIndex where
  column : String
  declaration : IndexDeclaration

namespace ColumnIndex

/-- Without a name of its own the index is named after the table and the column. -/
def name (table : String) (d : ColumnIndex) : String :=
  d.declaration.name.getD (table ++ "_" ++ d.column)

def unique (d : ColumnIndex) : Bool := d.declaration.unique

def order (d : ColumnIndex) : Int := d.declaration.order

end ColumnIndex

/-- An index as far as its declarations have been met: the columns come with their order. -/
structure IndexDraft where
  name : String
  unique : Bool
  members : List (Int × String)

namespace IndexDraft

def start (table : String) (d : ColumnIndex) : IndexDraft :=
  ⟨d.name table, d.unique, [(d.order, d.column)]⟩

def extend (table : String) : List IndexDraft → ColumnIndex → Except Fault (List IndexDraft)
  | [], d => .ok [start table d]
  | g :: gs, d =>
    if g.name = d.name table then
      if g.unique = d.unique then
        .ok ({ g with members := g.members ++ [(d.order, d.column)] } :: gs)
      else .error (.schema table (.indexUniqueness (d.name table)))
    else do return g :: (← extend table gs d)

def index (g : IndexDraft) : Index where
  name := g.name
  columns := (g.members.mergeSort fun x y => x.1 ≤ y.1).map Prod.snd
  unique := g.unique

end IndexDraft

/-- The indices in the order in which they are first mentioned. -/
def Index.group (table : String) (ds : List ColumnIndex) : Except Fault (List Index) := do
  return (← ds.foldlM (IndexDraft.extend table) []).map IndexDraft.index

end Tabular
