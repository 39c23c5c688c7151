import Tabular.Calendar.Moment
import Tabular.Fault
import Tabular.Value.Conversion

namespace Tabular

def Calendar.Moment.ticks (m : Calendar.Moment) : Except Fault Int64 :=
  match m.ticks? with
  | some t => .ok t
  | none => .error (.momentTicks m)

def Calendar.Span.ticks (d : Calendar.Span) : Except Fault Int64 :=
  match d.ticks? with
  | some t => .ok t
  | none => .error (.spanTicks d)

def Calendar.Moment.ofTicks (t : Int64) : Except Fault Calendar.Moment :=
  match Calendar.Moment.ofTicks? t with
  | some m => .ok m
  | none => .error (.ticksMoment t)

/-- Spans are always ticks; moments are ticks or text. Lists and records have no such form. -/
def Value.toDatum (ticks : Bool) : Value → Except Fault Datum
  | .null => .ok .null
  | .bool b => .ok (.integer (Value.ofBool b))
  | .int n => .ok (.integer n)
  | .float x => .ok (.real x)
  | .text s => .ok (.text s)
  | .blob b => .ok (.blob b)
  | .moment m => if ticks then .integer <$> m.ticks else .ok (.text m.text)
  | .span d => .integer <$> d.ticks
  | .list items => .error (.unbindable (.list items))
  | .record members => .error (.unbindable (.record members))

class Capture (α : Type) where
  toValue : α → Value

namespace Capture

instance : Capture Bool := ⟨.bool⟩

instance : Capture Int8 := ⟨fun n => .int n.toInt64⟩

instance : Capture Int16 := ⟨fun n => .int n.toInt64⟩

instance : Capture Int32 := ⟨fun n => .int n.toInt64⟩

instance : Capture Int64 := ⟨.int⟩

instance : Capture UInt8 := ⟨fun n => .int (Int64.ofNat n.toNat)⟩

instance : Capture UInt16 := ⟨fun n => .int (Int64.ofNat n.toNat)⟩

instance : Capture UInt32 := ⟨fun n => .int (Int64.ofNat n.toNat)⟩

/-- Numbers beyond the signed range fit only a float. -/
instance : Capture UInt64 :=
  ⟨fun n =>
    match Decimal.toInt64? n.toNat with
    | some m => .int m
    | none => .float (Binary64.ofInt n.toNat)⟩

instance : Capture Binary64 := ⟨.float⟩

instance : Capture String := ⟨.text⟩

instance : Capture (List UInt8) := ⟨.blob⟩

instance : Capture Calendar.Moment := ⟨.moment⟩

instance : Capture Calendar.Span := ⟨.span⟩

instance : Capture Value := ⟨id⟩

instance {α : Type} [Capture α] : Capture (Option α) := ⟨fun x => x.elim .null toValue⟩

end Capture

end Tabular
