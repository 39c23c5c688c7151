namespace Tabular

inductive Kind
  | bool
  | int8
  | int16
  | int32
  | int64
  | uint8
  | uint16
  | uint32
  | uint64
  | float32
  | float64
  | decimal
  | text
  | document
  | duration
  | datetime
  | enum
  | blob
  | uuid
  | custom (name : String)
  deriving DecidableEq

namespace Kind

def label : Kind → String
  | .bool => "bool"
  | .int8 => "i8"
  | .int16 => "i16"
  | .int32 => "i32"
  | .int64 => "i64"
  | .uint8 => "u8"
  | .uint16 => "u16"
  | .uint32 => "u32"
  | .uint64 => "u64"
  | .float32 => "f32"
  | .float64 => "f64"
  | .decimal => "decimal"
  | .text => "text"
  | .document => "document"
  | .duration => "duration"
  | .datetime => "datetime"
  | .enum => "enum"
  | .blob => "blob"
  | .uuid => "uuid"
  | .custom name => name

def isInteger : Kind → Bool
  | .int8 | .int16 | .int32 | .int64 | .uint8 | .uint16 | .uint32 | .uint64 => true
  | _ => false

def isTextual : Kind → Bool
  | .text | .document => true
  | _ => false

/-- Whether a signed 64-bit number lies in the range of an integer kind. The numbers of an
enumeration have no range of their own. -/
def holds (n : Int) : Kind → Bool
  | .int8 => decide (-128 ≤ n ∧ n < 128)
  | .int16 => decide (-32768 ≤ n ∧ n < 32768)
  | .int32 => decide (-2147483648 ≤ n ∧ n < 2147483648)
  | .uint8 => decide (0 ≤ n ∧ n < 256)
  | .uint16 => decide (0 ≤ n ∧ n < 65536)
  | .uint32 => decide (0 ≤ n ∧ n < 4294967296)
  | .uint64 => decide (0 ≤ n)
  | _ => true

end Kind

end Tabular
