import Tabular.Database.Numeric
import Tabular.Text.Basic

namespace Tabular.Database

inductive Affinity
  | text
  | numeric
  | integer
  | real
  | untyped
  deriving DecidableEq

namespace Affinity

/-- The first of these pieces that occurs in the class decides. -/
def pieces : List (String × Affinity) :=
  [("int", .integer), ("char", .text), ("clob", .text), ("text", .text), ("blob", .untyped),
   ("real", .real), ("floa", .real), ("doub", .real)]

def ofClass (words : List String) : Affinity :=
  if words.isEmpty then .untyped
  else
    let s := (Text.fold (" ".intercalate words)).toList
    ((pieces.find? fun p => Text.occurs p.1.toList s).map Prod.snd).getD .numeric

def after (piece : List Char) : List Char → List (List Char)
  | [] => []
  | c :: s =>
    let rest := after piece s
    if piece.isPrefixOf (c :: s) then (c :: s).drop piece.length :: rest else rest

/-- The room that a datum of a class is expected to take: more for text and blobs, and most if the
class says how long they may be. -/
def widthOfClass (words : List String) (sizes : List Nat) : Nat :=
  let s := (Text.fold (" ".intercalate words)).toList
  let sizes := sizes.flatMap fun n => '(' :: Decimal.digits n
  let length (s : List Char) : Nat :=
    Nat.ofDigitChars 10 ((s.dropWhile fun c => !c.isDigit).takeWhile Char.isDigit) 0
  let a := ofClass words
  if words.isEmpty || (a != .text && a != .untyped) then 1
  else
    match (after "char".toList (s ++ sizes)).getLast? with
    | some rest => min 255 (length rest / 4 + 1)
    | none =>
      if !sizes.isEmpty && "blob".toList.isSuffixOf s then min 255 (length sizes / 4 + 1) else 5

def isNumeric : Affinity → Bool
  | .numeric | .integer | .real => true
  | _ => false

def toNumber : Datum → Datum
  | .text s => (number? s).getD (.text s)
  | d => d

def toInteger : Datum → Datum
  | .real x =>
    match integral? x with
    | some n => .integer n
    | none => .real x
  | d => d

def toReal : Datum → Datum
  | .integer n => .real (Binary64.ofInt n.toInt)
  | d => d

def toText : Datum → Datum
  | .integer n => .text ((Datum.integer n).text?.getD "")
  | .real x => .text x.storedText
  | d => d

def store (a : Affinity) (d : Datum) : Datum :=
  match a with
  | .text => toText d
  | .numeric | .integer => toInteger (toNumber d)
  | .real => toReal (toInteger (toNumber d))
  | .untyped => d

def compare (a : Affinity) (d : Datum) : Datum :=
  match a with
  | .text => toText d
  | .numeric | .integer | .real => toNumber d
  | .untyped => d

/-- Which affinity a comparison of two sides has, each of them a column or something without an
affinity. -/
def ofSides : Option Affinity → Option Affinity → Affinity
  | some a, some b => if a.isNumeric || b.isNumeric then .numeric else .untyped
  | some a, none => a
  | none, some b => b
  | none, none => .untyped

end Affinity

end Tabular.Database
