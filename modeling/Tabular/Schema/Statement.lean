import Tabular.Schema.Mapping

namespace Tabular

structure Statement where
  sql : String
  args : List Datum
  deriving DecidableEq

def placeholders (sep : String) (n : Nat) : String := sep.intercalate (List.replicate n "?")

namespace Column

/-- A clause that does not apply leaves its place empty. -/
def declaration (c : Column) : String :=
  " ".intercalate
    [c.quotedName, c.storage,
     if c.autoIncrement then "primary key autoincrement" else "",
     if c.nullable then "" else "not null",
     match c.collation with
     | some s => "collate " ++ s
     | none => "",
     match c.default with
     | some s => "default(" ++ quoteLiteral s ++ ")"
     | none => ""]

end Column

namespace TableMapping

/-- The key is declared in the line of a numbered column, or else after all columns. -/
def keyClause (t : TableMapping) : List String :=
  if t.autoIncrement?.isSome || t.keys.isEmpty then []
  else ["primary key (" ++ ", ".intercalate (t.keys.map Column.quotedName) ++ ")"]

def createTable (t : TableMapping) : String :=
  "create table if not exists " ++ t.quotedName ++ " (" ++
    ", ".intercalate (t.columns.map Column.declaration ++ t.keyClause) ++ ")"

def createIndex (t : TableMapping) (i : Index) : String :=
  "create " ++ (if i.unique then "unique " else "") ++ "index if not exists " ++
    quoteIdentifier i.name ++ " on " ++ t.quotedName ++ " (" ++
    ", ".intercalate (i.columns.map quoteIdentifier) ++ ")"

def createIndices (t : TableMapping) : List String := t.indices.map t.createIndex

def inserted (t : TableMapping) : List Column := t.columns.filter fun c => !c.autoIncrement

def insertArgument (t : TableMapping) (values : List Value) (c : Column) : Except Fault Datum :=
  match values[c.memberIndex]? with
  | some v => t.bind v
  | none => .error (.noValue c.property)

def insert (t : TableMapping) (values : List Value) : Except Fault Statement := do
  let args ← t.inserted.mapM (t.insertArgument values)
  let columns :=
    if t.inserted.isEmpty then " default values"
    else
      " (" ++ ", ".intercalate (t.inserted.map Column.quotedName) ++ ") values (" ++
        placeholders ", " t.inserted.length ++ ")"
  return ⟨"insert into " ++ t.quotedName ++ columns, args⟩

def keyFilter (t : TableMapping) (values : List Value) : Except Fault Statement := do
  if t.keys.isEmpty then throw (.noSingleKey t.tableName)
  if values.isEmpty || t.keys.length < values.length then
    throw (.keyCount t.tableName t.keys.length values.length)
  let args ← values.mapM t.bind
  return ⟨" and ".intercalate ((t.keys.take values.length).map fun c => c.quotedName ++ " = ?"),
    args⟩

def getByKeys (t : TableMapping) (values : List Value) : Except Fault Statement := do
  if !t.keys.isEmpty && values.length != t.keys.length then
    throw (.keyCount t.tableName t.keys.length values.length)
  let filter ← t.keyFilter values
  return ⟨"select * from " ++ t.quotedName ++ " where " ++ filter.sql, filter.args⟩

def get (t : TableMapping) (v : Value) : Except Fault Statement := t.getByKeys [v]

def deleteByKeys (t : TableMapping) (values : List Value) : Except Fault Statement := do
  let filter ← t.keyFilter values
  return ⟨"delete from " ++ t.quotedName ++ " where " ++ filter.sql, filter.args⟩

def delete (t : TableMapping) (v : Value) : Except Fault Statement := t.deleteByKeys [v]

def deleteIn (t : TableMapping) (values : List Value) : Except Fault Statement := do
  let key ← t.key
  let args ← values.mapM t.bind
  return ⟨"delete from " ++ t.quotedName ++ " where " ++ key.quotedName ++ " in (" ++
    placeholders "," values.length ++ ")", args⟩

def deleteAll (t : TableMapping) : Statement := ⟨"delete from " ++ t.quotedName, []⟩

end TableMapping

end Tabular
