import Tabular.Schema.Index
import Tabular.Schema.Provider
import Tabular.Schema.Storage
import Tabular.Text.Delimited
import Tabular.Value.Datum

namespace Tabular

structure Column where
  name : String
  property : String
  memberIndex : Nat
  kind : Kind
  storage : String
  nullable : Bool
  primaryKey : Bool
  autoIncrement : Bool
  collation : Option String
  maxLength : Option Nat
  default : Option String
  deriving DecidableEq

structure TableMapping where
  typeName : String
  tableName : String
  columns : List Column
  indices : List Index
  ticks : Bool
  deriving DecidableEq

def RecordType.stored (type : RecordType) (p : Provider) : List (Member × Nat) :=
  type.members.zipIdx.filter fun m => m.1.writable && !(p.facts m.1).ignored

namespace Member

def isKey (m : Member) (conventions : Conventions) (facts : MemberFacts) : Bool :=
  facts.primaryKey || conventions.keyById && Text.sameName m.name "Id"

def indices (m : Member) (conventions : Conventions) (facts : MemberFacts) :
    List IndexDeclaration :=
  if facts.indices.isEmpty && !m.isKey conventions facts && conventions.indexById
      && Text.endsWithName m.name "Id" then
    [{}]
  else facts.indices

def column (m : Member) (place : Nat) (table : String) (conventions : Conventions)
    (rules : StorageRules) (facts : MemberFacts) : Except Fault Column := do
  let primaryKey := m.isKey conventions facts
  if facts.autoIncrement && !primaryKey then
    throw (.schema table (.autoIncrementNotKey facts.column))
  if facts.autoIncrement && !m.kind.isInteger then
    throw (.schema table (.autoIncrementNotInteger facts.column))
  let storage ← rules.storageClass m.kind facts.maxLength
  return {
    name := facts.column
    property := m.name
    memberIndex := place
    kind := m.kind
    storage := storage
    nullable := !(primaryKey || facts.notNull)
    primaryKey := primaryKey
    autoIncrement := facts.autoIncrement
    collation := facts.collation
    maxLength := facts.maxLength
    default := facts.default }

end Member

def checkKeys (table : String) (columns : List Column) : Except Fault Unit :=
  let keys := columns.countP Column.primaryKey
  let numbered := columns.countP Column.autoIncrement
  if 1 < numbered then .error (.schema table .severalAutoIncrement)
  else if numbered = 1 ∧ 1 < keys then .error (.schema table .autoIncrementInCompositeKey)
  else .ok ()

def numberKey (conventions : Conventions) (columns : List Column) : List Column :=
  if conventions.numberedKey && columns.countP Column.primaryKey == 1 then
    columns.map fun c =>
      if c.primaryKey && c.kind.isInteger then { c with autoIncrement := true } else c
  else columns

namespace TableMapping

def resolve (type : RecordType) (conventions : Conventions) (rules : StorageRules)
    (p : Provider) : Except Fault TableMapping := do
  let table := p.table type
  let stored := type.stored p
  let columns ← stored.mapM fun m => m.1.column m.2 table conventions rules (p.facts m.1)
  checkKeys table columns
  let indices ← Index.group table <| stored.flatMap fun m =>
    (m.1.indices conventions (p.facts m.1)).map fun d => ⟨(p.facts m.1).column, d⟩
  return {
    typeName := type.name
    tableName := table
    columns := numberKey conventions columns
    indices := indices
    ticks := rules.ticks }

def keys (t : TableMapping) : List Column := t.columns.filter Column.primaryKey

def autoIncrement? (t : TableMapping) : Option Column := t.columns.find? Column.autoIncrement

def key (t : TableMapping) : Except Fault Column :=
  match t.keys with
  | [c] => .ok c
  | _ => .error (.noSingleKey t.tableName)

def column? (t : TableMapping) (name : String) : Option Column :=
  t.columns.find? fun c => c.name == name

def columnOf (t : TableMapping) (property : String) : Except Fault Column :=
  match t.columns.find? fun c => c.property == property with
  | some c => .ok c
  | none => .error (.noColumn t.typeName property)

def bind (t : TableMapping) (v : Value) : Except Fault Datum := v.toDatum t.ticks

def quotedName (t : TableMapping) : String := quoteIdentifier t.tableName

end TableMapping

def Column.quotedName (c : Column) : String := quoteIdentifier c.name

end Tabular
