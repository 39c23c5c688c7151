import Tabular.Kind
import Tabular.Text.Basic
import Tabular.Value.Basic

namespace Tabular

structure IndexDeclaration where
  name : Option String := none
  order : Int := 0
  unique : Bool := false
  deriving DecidableEq

inductive Attribute
  | name (s : String)
  | ignore
  | primaryKey
  | autoIncrement
  | collation (s : String)
  | maxLength (n : Nat)
  | default (s : String)
  | notNull
  | indexed (i : IndexDeclaration)
  deriving DecidableEq

structure Member where
  name : String
  kind : Kind
  writable : Bool := true
  attributes : List Attribute := []
  deriving DecidableEq

structure RecordType where
  name : String
  tableName : Option String := none
  members : List Member := []
  deriving DecidableEq

def RecordType.record (type : RecordType) (values : List Value) : Value :=
  .ofMembers ((type.members.map Member.name).zip values)

structure Conventions where
  /-- A member named Id is a primary key. -/
  keyById : Bool := false
  /-- A member with a name ending in Id is indexed. -/
  indexById : Bool := false
  /-- An integer that is the only key is numbered by the database. -/
  numberedKey : Bool := false
  deriving DecidableEq

namespace Conventions

def contains (a b : Conventions) : Bool :=
  (a.keyById || !b.keyById) && (a.indexById || !b.indexById) && (a.numberedKey || !b.numberedKey)

def union (a b : Conventions) : Conventions :=
  ⟨a.keyById || b.keyById, a.indexById || b.indexById, a.numberedKey || b.numberedKey⟩

def mask (a : Conventions) : Nat :=
  a.keyById.toNat + 2 * a.indexById.toNat + 4 * a.numberedKey.toNat

end Conventions

end Tabular
