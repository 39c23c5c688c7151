import Tabular.Database.Numeric
import Tabular.Database.Table

namespace Tabular.Database

def anyTail (accepts : List Char → Bool) : List Char → Bool
  | [] => accepts []
  | c :: s => accepts (c :: s) || anyTail accepts s

/-- ASCII letters match in either case. -/
def matchesPattern : List Char → List Char → Bool
  | [], s => s.isEmpty
  | p :: ps, s =>
    if p = '%' then anyTail (matchesPattern ps) s
    else
      match s with
      | [] => false
      | c :: s => (p == '_' || Text.foldChar p == Text.foldChar c) && matchesPattern ps s

inductive SqlFunction
  | lower
  | upper
  | trim
  | ltrim
  | rtrim
  | instr
  | length
  | abs
  | like
  | coalesce
  | lastInsertRowid
  deriving DecidableEq

def lastIdName : String := "last_insert_rowid"

def SqlFunction.ofName? (name : String) (count : Nat) : Option SqlFunction :=
  if name = "lower" ∧ count = 1 then some .lower
  else if name = "upper" ∧ count = 1 then some .upper
  else if name = "trim" ∧ count = 1 then some .trim
  else if name = "ltrim" ∧ count = 1 then some .ltrim
  else if name = "rtrim" ∧ count = 1 then some .rtrim
  else if name = "instr" ∧ count = 2 then some .instr
  else if name = "coalesce" ∧ 2 ≤ count then some .coalesce
  else if name = lastIdName ∧ count = 0 then some .lastInsertRowid
  else if name = "length" ∧ count = 1 then some .length
  else if name = "abs" ∧ count = 1 then some .abs
  else if name = "like" ∧ count = 2 then some .like
  else none

def lengthOf : Datum → Datum
  | .null => .null
  | .blob b => .integer (Int64.ofNat b.length)
  | d => .integer (Int64.ofNat (beforeNul (d.text?.getD "")).length)

def lowerText (s : String) : Datum := .text (Text.fold (String.ofList (beforeNul s)))

def upperText (s : String) : Datum := .text (String.ofList ((beforeNul s).map Char.toUpper))

def trimText (left right : Bool) (s : String) : Datum :=
  let s := if left then s.toList.dropWhile (· == ' ') else s.toList
  .text (String.ofList (if right then (s.reverse.dropWhile (· == ' ')).reverse else s))

def positionIn {α : Type} [BEq α] (part : List α) : List α → Nat
  | [] => if part.isEmpty then 1 else 0
  | c :: s =>
    if part.isPrefixOf (c :: s) then 1
    else
      let n := positionIn part s
      if n = 0 then 0 else n + 1

def positionOf (d part : Datum) : Datum :=
  match d, part with
  | .blob s, .blob p => .integer (Int64.ofNat (positionIn p s))
  | d, part =>
    match d.text?, part.text? with
    | some s, some p => .integer (Int64.ofNat (positionIn p.toList s.toList))
    | _, _ => .null

/-- Only the absolute value of the least integer has no place. -/
def absOf : Datum → Except Refusal Datum
  | .null => .ok .null
  | .integer n =>
    if n = Int64.minValue then .error .invalid else .ok (.integer (if n < 0 then -n else n))
  | d => .ok (.real ((d.float?.getD Binary64.zero).abs))

def greatestPattern : Nat := 50000

def byteCount : Datum → Nat
  | .blob b => b.length
  | d => (d.text?.getD "").utf8ByteSize

def likeData (d pattern : Datum) : Except Refusal (Option Bool) :=
  if greatestPattern < byteCount pattern then .error .invalid
  else
    match d.text?, pattern.text? with
    | some s, some p => .ok (some (matchesPattern (beforeNul p) (beforeNul s)))
    | _, _ => .ok none

def concatData (d e : Datum) : Datum :=
  match d.text?, e.text? with
  | some s, some t => .text (s ++ t)
  | _, _ => .null

def bitwise (f : Int64 → Int64 → Int64) (d e : Datum) : Datum :=
  match d.int?, e.int? with
  | some m, some n => .integer (f m n)
  | _, _ => .null

def SqlFunction.apply (f : SqlFunction) (args : List Datum) : Except Refusal Datum :=
  match f, args with
  | .lower, [d] => .ok ((d.text?.map lowerText).getD .null)
  | .upper, [d] => .ok ((d.text?.map upperText).getD .null)
  | .trim, [d] => .ok ((d.text?.map (trimText true true)).getD .null)
  | .ltrim, [d] => .ok ((d.text?.map (trimText true false)).getD .null)
  | .rtrim, [d] => .ok ((d.text?.map (trimText false true)).getD .null)
  | .instr, [d, part] => .ok (positionOf d part)
  | .length, [d] => .ok (lengthOf d)
  | .abs, [d] => absOf d
  | .like, [pattern, d] => Datum.ofTruth <$> likeData d pattern
  | _, _ => .error .invalid

end Tabular.Database
