import Tabular.Schema.RecordType

namespace Tabular

structure MemberFacts where
  column : String
  ignored : Bool
  primaryKey : Bool
  autoIncrement : Bool
  collation : Option String
  indices : List IndexDeclaration
  maxLength : Option Nat
  default : Option String
  notNull : Bool

structure Provider where
  table : RecordType → String
  facts : Member → MemberFacts

namespace Attribute

def name? : Attribute → Option String
  | .name s => some s
  | _ => none

def collation? : Attribute → Option String
  | .collation s => if s.isEmpty then none else some s
  | _ => none

def index? : Attribute → Option IndexDeclaration
  | .indexed i => some i
  | _ => none

def maxLength? : Attribute → Option Nat
  | .maxLength n => some n
  | _ => none

def default? : Attribute → Option String
  | .default s => some s
  | _ => none

end Attribute

/-- The facts that the attributes of the member tell; of several that answer the same question the
first one counts. -/
def Member.facts (m : Member) : MemberFacts where
  column := (m.attributes.findSome? Attribute.name?).getD m.name
  ignored := m.attributes.contains .ignore
  primaryKey := m.attributes.contains .primaryKey
  autoIncrement := m.attributes.contains .autoIncrement
  collation := m.attributes.findSome? Attribute.collation?
  indices := m.attributes.filterMap Attribute.index?
  maxLength := m.attributes.findSome? Attribute.maxLength?
  default := m.attributes.findSome? Attribute.default?
  notNull := m.attributes.contains .notNull

def RecordType.table (type : RecordType) : String := type.tableName.getD type.name

def Provider.attributes : Provider := ⟨RecordType.table, Member.facts⟩

end Tabular
