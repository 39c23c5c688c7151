import Tabular.Database.Table
import Tabular.Sql.Command

namespace Tabular.Database

open Sql (ColumnDefinition)

def isReserved (name : String) : Bool :=
  "sqlite_".toList.isPrefixOf (Text.fold name).toList

def TableColumn.ofDefinition? (c : ColumnDefinition) : Option TableColumn := do
  let collation ← match c.collation with
    | some s => Collation.ofName? s
    | none => some .binary
  return {
    name := c.name
    affinity := Affinity.ofClass c.words
    collation := collation
    notNull := c.notNull
    onNull := c.onNull
    references := c.references
    default := (c.default.map Datum.text).getD .null
    width := Affinity.widthOfClass c.words c.sizes }

/-- Only a column of just this class can hold the row id. -/
def isRowIdClass (c : ColumnDefinition) : Bool :=
  c.sizes.isEmpty && match c.words with
    | [w] => Text.fold w == "integer"
    | _ => false

def hasDuplicate (names : List String) : Bool :=
  match names with
  | [] => false
  | n :: ns => ns.any (Text.sameName n) || hasDuplicate ns

def greatestColumns : Nat := 2000

def Table.ofDefinitions? (name : String) (cs : List ColumnDefinition) (key : List String) :
    Option Table := do
  let columns ← cs.mapM TableColumn.ofDefinition?
  let places ← key.mapM fun k => cs.findIdx? fun c => Text.sameName c.name k
  let numbered := cs.findIdx? ColumnDefinition.numbered
  let single := match places with
    | [i] => if cs[i]?.any isRowIdClass then some i else none
    | _ => none
  if greatestColumns < cs.length || hasDuplicate (cs.map ColumnDefinition.name) || isReserved name
      || cs.any (fun c => c.numbered && !isRowIdClass c)
      || 1 < cs.countP ColumnDefinition.numbered || numbered.isSome && !key.isEmpty then
    none
  else
    return {
      name := name
      columns := columns
      rowId := numbered.or single
      key := if single.isSome then [] else places
      numbered := numbered.isSome }

/-- A table that is there already stays as it is. -/
def createTable (db : Database) (name : String) (cs : List ColumnDefinition)
    (key : List String) : Except Refusal Database :=
  if (db.table? name).isSome then .ok db
  else if (db.index? name).isSome then .error .invalid
  else
    match Table.ofDefinitions? name cs key with
    | some t => .ok { db with tables := db.tables ++ [t] }
    | none => .error .invalid

/-- An index that is there already stays as it is, whatever table it is on. -/
def createIndex (db : Database) (i : TableIndex) : Except Refusal Database :=
  match db.table? i.table with
  | none => .error (.noSuchTable i.table)
  | some t =>
    if isReserved i.name || (db.table? i.name).isSome then .error .invalid
    else if (db.index? i.name).isSome then .ok db
    else if i.unique && !t.distinctIn (t.places i) then .error (t.duplicate i)
    else .ok { db with indices := { i with table := t.name } :: db.indices }

end Tabular.Database
