import Tabular.Binary64.Numeral
import Tabular.Text.Basic
import Tabular.Fault

namespace Tabular.Value

def readBool? (s : List Char) : Option Bool :=
  if s = ['t', 'r', 'u', 'e'] then some true
  else if s = ['f', 'a', 'l', 's', 'e'] then some false
  else none

def readInt? (s : List Char) : Option Int64 := (Decimal.int? s).bind Decimal.toInt64?

def ofBool (b : Bool) : Int64 := if b then 1 else 0

def toBool? : Value → Option Bool
  | .bool b => some b
  | .int n => some (n != 0)
  | .text s => readBool? (Text.trim s.toList)
  | _ => none

def toInteger? : Value → Option Int64
  | .bool b => some (ofBool b)
  | .int n => some n
  | .float x => x.roundEven?.bind Decimal.toInt64?
  | .text s => readInt? (Text.trim s.toList)
  | _ => none

def toFloat? : Value → Option Binary64
  | .bool b => some (Binary64.ofInt (ofBool b).toInt)
  | .int n => some (Binary64.ofInt n.toInt)
  | .float x => some x
  | .text s => Binary64.read? (Text.trim s.toList)
  | _ => none

def toText? : Value → Option String
  | .text s => some s
  | .bool b => some (Value.bool b).render
  | .int n => some (Value.int n).render
  | .float x => some x.text
  | .moment m => some m.text
  | _ => none

def convert? (v : Value) (kind : Kind) : Option Value :=
  match kind with
  | .bool => v.toBool?.map .bool
  | .int8 | .int16 | .int32 | .int64 | .uint8 | .uint16 | .uint32 | .uint64 | .enum =>
    (v.toInteger?.filter fun n => kind.holds n.toInt).map .int
  | .float32 | .float64 | .decimal => v.toFloat?.map .float
  | .text | .document => v.toText?.map .text
  | .uuid => match v with | .text s => some (.text s) | _ => none
  | .datetime => match v with | .moment m => some (.moment m) | _ => none
  | .duration => match v with | .span d => some (.span d) | _ => none
  | .blob => match v with | .blob b => some (.blob b) | _ => none
  | .custom _ => none

def convert (v : Value) (kind : Kind) : Except Fault Value :=
  if v.isNull then .ok .null
  else
    match v.convert? kind with
    | some w => .ok w
    | none => .error (.conversion v kind)

variable {v w : Value} {kind : Kind}

theorem isNull_of_convert? (h : v.convert? kind = some w) : w.isNull = false := by
  cases kind
  all_goals simp only [convert?, Option.map_eq_some_iff] at h
  case uuid | datetime | duration | blob =>
    cases v <;> cases h
    rfl
  case custom => cases h
  all_goals
    obtain ⟨_, _, rfl⟩ := h
    rfl

theorem convert_eq_ok :
    v.convert kind = .ok w ↔
      (v.isNull ∧ w = .null) ∨ (v.isNull = false ∧ v.convert? kind = some w) := by
  cases hv : v.isNull <;> cases hw : v.convert? kind <;> simp [convert, hv, hw, eq_comm]

theorem isNull_convert (h : v.convert kind = .ok w) : w.isNull = v.isNull := by
  rcases convert_eq_ok.1 h with ⟨hv, rfl⟩ | ⟨hv, hw⟩
  · rw [hv]; rfl
  · rw [hv, isNull_of_convert? hw]

end Tabular.Value
