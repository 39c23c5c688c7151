import Tabular.Fault

namespace Tabular

structure StorageRules where
  ticks : Bool := false
  /-- Classes of custom kinds; of two for one kind the later one counts. -/
  classes : List (Kind × String) := []
  serializer : Option (Kind → Bool) := none

def defaultTextLength : Nat := 140

def textClass (maxLength : Option Nat) : String :=
  "text(" ++ String.ofList (Decimal.digits (maxLength.getD defaultTextLength)) ++ ")"

namespace StorageRules

def customClass? (rules : StorageRules) (kind : Kind) : Option String :=
  match rules.classes.reverse.lookup kind with
  | some c => some c
  | none => if rules.serializer.any (· kind) then some "blob" else none

def class? (rules : StorageRules) (kind : Kind) (maxLength : Option Nat) : Option String :=
  match kind with
  | .bool | .int8 | .int16 | .int32 | .int64 | .uint8 | .uint16 | .uint32 | .uint64
  | .duration | .enum => some "integer"
  | .float32 | .float64 | .decimal => some "float"
  | .document => some "text"
  | .text => some (textClass maxLength)
  | .datetime => some (if rules.ticks then "integer" else "datetime")
  | .blob => some "blob"
  | .uuid => some "varchar(36)"
  | .custom name => rules.customClass? (.custom name)

def storageClass (rules : StorageRules) (kind : Kind) (maxLength : Option Nat) :
    Except Fault String :=
  match rules.class? kind maxLength with
  | some c => .ok c
  | none => .error (.unsupportedKind kind)

end StorageRules

end Tabular
