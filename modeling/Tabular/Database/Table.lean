import Tabular.Database.Affinity
import Tabular.Database.Order
import Tabular.Sql.Command

namespace Tabular.Database

inductive Refusal
  | noSuchTable (table : String)
  | notNull (table column : String)
  | duplicateKey (table : String) (columns : List String)
  | duplicateEntry (table : String) (columns : List String)
  | duplicateIn (index : String)
  | foreignKey
  | invalid
  deriving DecidableEq

structure TableColumn where
  name : String
  affinity : Affinity
  collation : Collation
  notNull : Bool
  onNull : Sql.OnNull := .refuse
  default : Datum
  references : List Sql.Reference := []
  width : Nat
  deriving DecidableEq

def TableColumn.keep (c : TableColumn) (d : Datum) : Datum :=
  c.affinity.store (if d == .null && c.notNull && c.onNull == .replace then c.default else d)

structure Row where
  id : Int64
  cells : List Datum
  deriving DecidableEq

/-- The rows are kept in the order of their ids. -/
structure Table where
  name : String
  columns : List TableColumn
  rowId : Option Nat
  /-- The places of the key columns, if the key is not the row id. -/
  key : List Nat
  numbered : Bool
  highest : Int64 := 0
  rows : List Row := []
  deriving DecidableEq

structure TableIndex where
  name : String
  table : String
  columns : List String
  unique : Bool
  deriving DecidableEq

namespace Table

def place? (t : Table) (name : String) : Option Nat :=
  t.columns.findIdx? fun c => Text.sameName c.name name

def column? (t : Table) (name : String) : Option TableColumn :=
  t.columns.find? fun c => Text.sameName c.name name

def collationAt (t : Table) (place : Nat) : Collation :=
  (t.columns[place]?.map TableColumn.collation).getD .binary

def nameAt (t : Table) (place : Nat) : String :=
  (t.columns[place]?.map TableColumn.name).getD ""

end Table

def Row.cell (r : Row) (place : Nat) : Datum := r.cells[place]?.getD .null

inductive Place
  | id
  | cell (place : Nat)
  deriving DecidableEq

def Row.get (r : Row) : Place → Datum
  | .id => .integer r.id
  | .cell i => r.cell i

/-- The row id goes by three names, unless a column has them. -/
def isIdName (name : String) : Bool :=
  ["rowid", "oid", "_rowid_"].any fun n => Text.sameName n name

namespace Table

/-- The column that holds the row id and the id are one. -/
def locate? (t : Table) (name : String) : Option Place :=
  match t.place? name with
  | some i => some (if t.rowId = some i then .id else .cell i)
  | none => if isIdName name then some .id else none

def affinityOf (t : Table) : Place → Affinity
  | .id => .integer
  | .cell i => (t.columns[i]?.map TableColumn.affinity).getD .untyped

def collationOf (t : Table) : Place → Collation
  | .id => .binary
  | .cell i => t.collationAt i

/-- Two rows collide in a column if they have equal data there, and null equals nothing. -/
def collideAt (t : Table) (r s : Row) (place : Nat) : Bool :=
  r.cell place != .null && s.cell place != .null &&
    compareData (t.collationAt place) (r.cell place) (s.cell place) == .eq

def collide (t : Table) (places : List Nat) (r s : Row) : Bool :=
  places.all (t.collideAt r s)

def collidesWithAny (t : Table) (places : List Nat) (r : Row) : Bool :=
  t.rows.any fun s => t.collide places r s

def distinctIn (t : Table) (places : List Nat) : Bool :=
  go t.rows
where
  go : List Row → Bool
    | [] => true
    | r :: rs => !rs.any (t.collide places r) && go rs

def insertRow (r : Row) : List Row → List Row
  | [] => [r]
  | s :: rs => if r.id < s.id then r :: s :: rs else s :: insertRow r rs

def greatestId (t : Table) : Option Int64 := t.rows.getLast?.map Row.id

/-- The first id from 2 ^ 61 on that no row has; the small ones are left for rows that bring their
own. -/
def firstUnused? (t : Table) : Option Int64 :=
  ((List.range (t.rows.length + 1)).map fun k => Int64.ofNat (Nat.pow 2 61 + k)).find? fun id =>
    t.rows.all fun r => r.id != id

/-- The id that a row gets if it brings none. After the greatest of all comes none in a numbered
table, and an unused one elsewhere. -/
def freshId? (t : Table) : Option Int64 :=
  let last := t.greatestId
  let used := if t.numbered then some (max (last.getD 0) t.highest) else last
  match used with
  | none => some 1
  | some n =>
    if n ≠ Int64.maxValue then some (n + 1)
    else if t.numbered then none
    else t.firstUnused?

def idOf? (t : Table) (given : Datum) : Option Int64 :=
  match Affinity.integer.store given with
  | .integer n => some n
  | .null => t.freshId?
  | _ => none

def missing? (t : Table) (cells : List Datum) : Option TableColumn :=
  ((t.columns.zip cells).find? fun c => c.1.notNull && c.2 == .null).map Prod.fst

/-- The places of the columns of an index. A name that no column has is a constant there, which
tells no rows apart. -/
def places (t : Table) (i : TableIndex) : List Nat := i.columns.filterMap t.place?

def duplicate (t : Table) (i : TableIndex) : Refusal :=
  if i.columns.all fun c => (t.place? c).isSome then
    .duplicateEntry t.name ((t.places i).map t.nameAt)
  else .duplicateIn i.name

/-- Which row is in the way of another: one with its id, one that an index, the newest first, does
not allow beside it, or at last one with its key, for the index of the key is the oldest. -/
def obstacle? (t : Table) (indices : List TableIndex) (r : Row) : Option Refusal :=
  if t.rowId.isSome && t.rows.any fun s => s.id == r.id then
    some (.duplicateKey t.name (t.rowId.toList.map t.nameAt))
  else
    match indices.find? fun i => i.unique && t.collidesWithAny (t.places i) r with
    | some i => some (t.duplicate i)
    | none =>
      if !t.key.isEmpty && t.collidesWithAny t.key r then
        some (.duplicateKey t.name (t.key.map t.nameAt))
      else none

def cellsOf (t : Table) (given : List (Place × Datum)) : List Datum :=
  t.columns.zipIdx.map fun (c, i) => c.keep ((given.lookup (.cell i)).getD c.default)

def withId (t : Table) (id : Int64) (cells : List Datum) : Row :=
  match t.rowId with
  | some i => ⟨id, cells.set i (.integer id)⟩
  | none => ⟨id, cells⟩

def newRow (t : Table) (id : Int64) (given : List (Place × Datum)) : Row :=
  t.withId id (t.cellsOf given)

/-- The new row, if it is not ignored, and the table with it. An id that is not given is a fresh
one; it is never taken from a default, and it is used up also by a row that is ignored. -/
def add (t : Table) (indices : List TableIndex) (given : List (Place × Datum)) :
    Except Refusal (Option Row × Table) :=
  match t.idOf? ((given.lookup .id).getD .null) with
  | none => .error .invalid
  | some id =>
    let r := t.newRow id given
    let highest := max t.highest id
    match t.missing? r.cells with
    | some c =>
      if c.onNull = .ignore then .ok (none, { t with highest := highest })
      else .error (.notNull t.name c.name)
    | none =>
      match t.obstacle? indices r with
      | some refusal => .error refusal
      | none => .ok (some r, { t with rows := insertRow r t.rows, highest := highest })

end Table

end Tabular.Database

namespace Tabular

structure Database where
  tables : List Database.Table := []
  indices : List Database.TableIndex := []
  /-- The id of the row that was inserted last. It belongs to the connection and is not taken back
  with the row. -/
  lastId : Int64 := 0
  deriving DecidableEq

namespace Database

/-- What is stored, without what the connection remembers. -/
def content (db : Database) : Database := { db with lastId := 0 }

@[simp] theorem content_content (db : Database) : db.content.content = db.content := rfl

def table? (db : Database) (name : String) : Option Table :=
  db.tables.find? fun t => Text.sameName t.name name

def index? (db : Database) (name : String) : Option TableIndex :=
  db.indices.find? fun i => Text.sameName i.name name

def indicesOf (db : Database) (t : Table) : List TableIndex :=
  db.indices.filter fun i => Text.sameName i.table t.name

def replace (db : Database) (t : Table) : Database :=
  { db with tables := db.tables.map fun u => if Text.sameName u.name t.name then t else u }

end Database

end Tabular
