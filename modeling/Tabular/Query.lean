import Tabular.Compile.Basic

namespace Tabular

structure SortKey where
  column : String
  ascending : Bool
  deriving DecidableEq

def SortKey.sql (k : SortKey) : String := if k.ascending then k.column else k.column ++ " desc"

structure Query where
  mapping : TableMapping
  predicate : Option Expr := none
  orderings : List SortKey := []
  limit : Option Nat := none
  offset : Option Nat := none
  deferred : Bool := false

namespace Query

def filter (q : Query) : Expr → Except Fault Query
  | .lambda 1 body =>
    .ok { q with
      predicate := some (match q.predicate with
        | some p => .binary .and p body
        | none => body) }
  | e => .error (.notPredicate e)

/-- The column that a lambda selects; one cast around it makes no difference. -/
def keyColumn (q : Query) (unsupported : Fault) : Expr → Except Fault String
  | .lambda 1 body =>
    let e := match body with
      | .convert operand _ => operand
      | e => e
    (q.mapping.columnName? e).getD (.error unsupported)
  | _ => .error unsupported

def order (q : Query) (key : Expr) (ascending : Bool) : Except Fault Query := do
  let column ← q.keyColumn (.orderingKey key) key
  return { q with orderings := q.orderings ++ [⟨column, ascending⟩] }

def orderBy (q : Query) (key : Expr) : Except Fault Query := q.order key true

def orderByDescending (q : Query) (key : Expr) : Except Fault Query := q.order key false

def take (q : Query) (n : Nat) : Query := { q with limit := some n }

def skip (q : Query) (n : Nat) : Query := { q with offset := some n }

def defer (q : Query) : Query := { q with deferred := true }

/-- The row at a place counted from zero; it replaces an earlier limit and offset. -/
def elementAt (q : Query) (i : Nat) : Query := (q.skip i).take 1

def first (q : Query) : Query := q.take 1

/-- There are no joins. -/
def join (_q _inner : Query) (_outerKey _innerKey _result : Expr) : Except Fault Query :=
  .error .joins

def orderClause (q : Query) : String :=
  if q.orderings.isEmpty then ""
  else " order by " ++ ", ".intercalate (q.orderings.map SortKey.sql)

def number (n : Nat) : String := String.ofList (Decimal.digits n)

/-- An offset alone needs a limit before it, one that lets every row through. -/
def pageClause (q : Query) : String :=
  (match q.limit with
    | some n => " limit " ++ number n
    | none => "") ++
  (match q.offset with
    | some n => (if q.limit.isNone then " limit -1 " else "") ++ " offset " ++ number n
    | none => "")

def whereClause (q : Query) : Except Fault Fragment :=
  match q.predicate with
  | some p => do
    let f ← q.mapping.fragment p
    return { sql := " where " ++ f.sql, args := f.args }
  | none => .ok { sql := "", args := [] }

def build (q : Query) (columns : String) : Except Fault Statement := do
  let condition ← q.whereClause
  return ⟨"select " ++ columns ++ " from " ++ q.mapping.quotedName ++ condition.sql ++
    q.orderClause ++ q.pageClause, condition.args⟩

def statement (q : Query) : Except Fault Statement := q.build "*"

def count (q : Query) : Except Fault Statement := q.build "count(*)"

def countWhere (q : Query) (p : Expr) : Except Fault Statement := do (← q.filter p).count

def select (q : Query) (key : Expr) : Except Fault Statement := do
  q.build (← q.keyColumn (.projectionKey key) key)

end Query

end Tabular
