import Tabular.Sql.Term
import Tabular.Text.Basic

namespace Tabular.Sql

/-- What becomes of a row with a null where none may be. -/
inductive OnNull
  | refuse
  | ignore
  | replace
  deriving DecidableEq

/-- The table, and the column of it, that holds the data of a column. Without a column it is the key
of the table. -/
structure Reference where
  table : String
  column : Option String := none
  deriving DecidableEq

structure ColumnDefinition where
  name : String
  words : List String
  sizes : List Nat := []
  numbered : Bool := false
  notNull : Bool := false
  onNull : OnNull := .refuse
  collation : Option String := none
  default : Option String := none
  references : List Reference := []
  deriving DecidableEq

inductive Projection
  | all
  | count
  | column (name : String)
  deriving DecidableEq

structure SortTerm where
  column : String
  descending : Bool
  deriving DecidableEq

structure Page where
  limit : Option Int := none
  offset : Option Nat := none
  deriving DecidableEq

inductive Command
  | createTable (table : String) (columns : List ColumnDefinition) (key : List String)
  | createIndex (unique : Bool) (index table : String) (columns : List String)
  | insert (table : String) (columns : List String)
  | delete (table : String) (condition : Option Term)
  | select (projection : Projection) (table : String) (condition : Option Term)
      (order : List SortTerm) (page : Page)

def names? : List Token → Option (List String × List Token)
  | .name n :: .comma :: ts => (names? ts).map fun r => (n :: r.1, r.2)
  | .name n :: .closing :: ts => some ([n], ts)
  | _ => none

def places? : List Token → Option (Nat × List Token)
  | .placeholder :: .comma :: ts => (places? ts).map fun r => (r.1 + 1, r.2)
  | .placeholder :: .closing :: ts => some (1, ts)
  | _ => none

/-- The parts between the commas that stand in no inner bracket, up to the closing bracket. What
was read of the current part is held last token first. -/
def parts? : Nat → List Token → List Token → Option (List (List Token) × List Token)
  | _, _, [] => none
  | 0, read, .closing :: ts => some ([read.reverse], ts)
  | depth + 1, read, .closing :: ts => parts? depth (.closing :: read) ts
  | depth, read, .opening :: ts => parts? (depth + 1) (.opening :: read) ts
  | 0, read, .comma :: ts => (parts? 0 [] ts).map fun r => (read.reverse :: r.1, r.2)
  | depth, read, t :: ts => parts? depth (t :: read) ts

def OnNull.ofWord? (s : String) : Option OnNull :=
  if s = "abort" ∨ s = "fail" then some .refuse
  else if s = "ignore" then some .ignore
  else if s = "replace" then some .replace
  else none

def keywords : List String :=
  ["add", "all", "alter", "and", "as", "autoincrement", "between", "case", "check", "collate",
   "commit", "constraint", "create", "cross", "default", "deferrable", "delete", "distinct",
   "drop", "else", "escape", "except", "exists", "foreign", "from", "full", "group", "having",
   "in", "index", "indexed", "inner", "insert", "intersect", "into", "is", "isnull", "join",
   "left", "limit", "natural", "not", "nothing", "notnull", "null", "on", "or", "order", "outer",
   "primary", "references", "returning", "right", "select", "set", "table", "then", "to",
   "transaction", "union", "unique", "update", "using", "values", "when", "where"]

def isKeyword (s : String) : Bool := keywords.contains (Text.fold s)

namespace ColumnDefinition

def classWords : List Token → List String × List Token
  | .word s :: ts =>
    if isKeyword s then ([], .word s :: ts)
    else
      let r := classWords ts
      (s :: r.1, r.2)
  | ts => ([], ts)

def classSizes? : List Token → Option (List Nat × List Token)
  | .opening :: .number n :: .closing :: ts => some ([n], ts)
  | .opening :: .number n :: .comma :: .number m :: .closing :: ts => some ([n, m], ts)
  | .opening :: _ => none
  | ts => some ([], ts)

def clauses? (c : ColumnDefinition) : List Token → Option ColumnDefinition
  | [] => some c
  | .word "primary" :: .word "key" :: .word "autoincrement" :: ts =>
    clauses? { c with numbered := true } ts
  | .word "not" :: .word "null" :: .word "on" :: .word "conflict" :: .word s :: ts =>
    match OnNull.ofWord? s with
    | some n => clauses? { c with notNull := true, onNull := n } ts
    | none => none
  | .word "not" :: .word "null" :: ts => clauses? { c with notNull := true, onNull := .refuse } ts
  | .word "collate" :: .word s :: ts =>
    if isKeyword s then none else clauses? { c with collation := some s } ts
  | .word "default" :: .opening :: .literal s :: .closing :: ts =>
    clauses? { c with default := some s } ts
  | .word "references" :: .name t :: .opening :: .name n :: .closing :: ts =>
    clauses? { c with references := c.references ++ [⟨t, some n⟩] } ts
  | .word "references" :: .name t :: ts =>
    clauses? { c with references := c.references ++ [⟨t, none⟩] } ts
  | _ => none

def ofTokens? : List Token → Option ColumnDefinition
  | .name n :: ts => do
    let (words, ts) := classWords ts
    let (sizes, ts) ← if words.isEmpty then some ([], ts) else classSizes? ts
    clauses? { name := n, words := words, sizes := sizes } ts
  | _ => none

end ColumnDefinition

def definitions? : List (List Token) → Option (List ColumnDefinition × List String)
  | [] => some ([], [])
  | [.word "primary" :: .word "key" :: .opening :: ts] =>
    (names? ts).bind fun r => if r.2.isEmpty then some ([], r.1) else none
  | ts :: rest => do
    let c ← ColumnDefinition.ofTokens? ts
    let (cs, key) ← definitions? rest
    return (c :: cs, key)

def endsCondition (t : Token) : Bool := t == .word "order" || t == .word "limit"

def condition? : List Token → Option (Option Term × List Token)
  | .word "where" :: ts =>
    (Term.ofTokens? (ts.takeWhile fun t => !endsCondition t)).map fun t =>
      (some t, ts.dropWhile fun t => !endsCondition t)
  | ts => some (none, ts)

def sortTerms? : List Token → Option (List SortTerm × List Token)
  | .name n :: .word "desc" :: .comma :: ts =>
    (sortTerms? ts).map fun r => (⟨n, true⟩ :: r.1, r.2)
  | .name n :: .comma :: ts => (sortTerms? ts).map fun r => (⟨n, false⟩ :: r.1, r.2)
  | .name n :: .word "desc" :: ts => some ([⟨n, true⟩], ts)
  | .name n :: ts => some ([⟨n, false⟩], ts)
  | _ => none

def order? : List Token → Option (List SortTerm × List Token)
  | .word "order" :: .word "by" :: ts => sortTerms? ts
  | ts => some ([], ts)

def offset? : List Token → Option (Option Nat)
  | [] => some none
  | [.word "offset", .number n] => some (some n)
  | _ => none

def page? : List Token → Option Page
  | .word "limit" :: .minus :: .number n :: ts => (offset? ts).map fun o => ⟨some (-(n : Int)), o⟩
  | .word "limit" :: .number n :: ts => (offset? ts).map fun o => ⟨some n, o⟩
  | [] => some {}
  | _ => none

def projection? : List Token → Option (Projection × List Token)
  | .star :: ts => some (.all, ts)
  | .word "count" :: .opening :: .star :: .closing :: ts => some (.count, ts)
  | .name n :: ts => some (.column n, ts)
  | _ => none

namespace Command

def select? (ts : List Token) : Option Command := do
  let (projection, ts) ← projection? ts
  match ts with
  | .word "from" :: .name table :: ts =>
    let (condition, ts) ← condition? ts
    let (order, ts) ← order? ts
    return .select projection table condition order (← page? ts)
  | _ => none

def insert? (table : String) : List Token → Option Command
  | [.word "default", .word "values"] => some (.insert table [])
  | .opening :: ts => do
    let (columns, ts) ← names? ts
    match ts with
    | .word "values" :: .opening :: ts =>
      let (n, ts) ← places? ts
      if n = columns.length ∧ ts = [] then some (.insert table columns) else none
    | _ => none
  | _ => none

def createTable? (table : String) (ts : List Token) : Option Command := do
  let (parts, ts) ← parts? 0 [] ts
  let (columns, key) ← definitions? parts
  if columns.isEmpty || !ts.isEmpty then none else some (.createTable table columns key)

def createIndex? (unique : Bool) : List Token → Option Command
  | .word "index" :: .word "if" :: .word "not" :: .word "exists" :: .name index :: .word "on" ::
      .name table :: .opening :: ts =>
    (names? ts).bind fun r =>
      if r.2.isEmpty then some (.createIndex unique index table r.1) else none
  | _ => none

def ofTokens? : List Token → Option Command
  | .word "select" :: ts => select? ts
  | .word "insert" :: .word "into" :: .name table :: ts => insert? table ts
  | .word "delete" :: .word "from" :: .name table :: ts =>
    (condition? ts).bind fun r => if r.2.isEmpty then some (.delete table r.1) else none
  | .word "create" :: .word "table" :: .word "if" :: .word "not" :: .word "exists" ::
      .name table :: .opening :: ts => createTable? table ts
  | .word "create" :: .word "unique" :: ts => createIndex? true ts
  | .word "create" :: ts => createIndex? false ts
  | _ => none

def ofText? (text : String) : Option Command := (tokens? text).bind ofTokens?

end Command

end Tabular.Sql
