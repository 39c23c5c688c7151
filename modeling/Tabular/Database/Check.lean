import Tabular.Database.Eval

namespace Tabular.Database

open Sql (Term Operator)

def collectionName? : Term → Option String
  | .name n => some n
  | .apply f _ => some f
  | _ => none

mutual

def missingTable? (db : Database) : Term → Option String
  | .brackets items => missingTableIn? db items
  | .apply _ args => missingTableIn? db args
  | .binary op left right =>
    (missingTable? db left).or
      (if op = .isIn ∨ op = .notIn then
        match collectionName? right with
        | some n => if (db.table? n).isSome then none else some n
        | none => missingTable? db right
      else missingTable? db right)
  | _ => none

def missingTableIn? (db : Database) : List Term → Option String
  | [] => none
  | t :: ts => (missingTable? db t).or (missingTableIn? db ts)

end

mutual

def asksLastId : Term → Bool
  | .brackets items => anyAsksLastId items
  | .apply f args => f == lastIdName || anyAsksLastId args
  | .binary _ left right => asksLastId left || asksLastId right
  | _ => false

def anyAsksLastId : List Term → Bool
  | [] => false
  | t :: ts => asksLastId t || anyAsksLastId ts

end

/-- What a condition can see of the database. -/
def shownTo (db : Database) (condition : Option Term) : Database :=
  if condition.any asksLastId then db else db.content

def hasWidth (db : Database) (name : String) (width : Nat) : Bool :=
  (db.table? name).any fun t => t.columns.length == width

mutual

/-- Whether every function is known and every list stands where lists may stand: on both sides of
a comparison, or as one item for each column of a table. -/
def isSupported (db : Database) : Term → Bool
  | .brackets items => items.length == 1 && allSupported db items
  | .apply f args => (SqlFunction.ofName? f args.length).isSome && allSupported db args
  | .binary op (.brackets (l :: m :: ls)) right =>
    allSupported db (l :: m :: ls) &&
      match right with
      | .brackets es =>
        comparesLists op && es.length == ls.length + 2 && allSupported db es
      | .name n => (op == .isIn || op == .notIn) && hasWidth db n (ls.length + 2)
      | _ => false
  | .binary op left right =>
    isSupported db left &&
      if op = .isIn ∨ op = .notIn then
        match right with
        | .brackets items => allSupported db items
        | .name n => hasWidth db n 1
        | _ => false
      else isSupported db right
  | _ => true

def allSupported (db : Database) : List Term → Bool
  | [] => true
  | t :: ts => isSupported db t && allSupported db ts

end

def greatestHeight : Nat := 1000

def greatestArguments : Nat := 32766

def checkCondition (db : Database) (t : Term) : Except Refusal Unit :=
  match missingTable? db t with
  | some n => .error (.noSuchTable n)
  | none => if isSupported db t then .ok () else .error .invalid

def checkSize (condition : Option Term) (args : List Datum) : Except Refusal Unit :=
  if args.length ≤ greatestArguments && condition.all fun t => t.height ≤ greatestHeight then
    .ok ()
  else .error .invalid

def prepare (db : Database) (table : String) (condition : Option Term) (args : List Datum) :
    Except Refusal (Scope × Option Term) := do
  checkSize condition args
  let condition := condition.map Term.pruned
  match db.table? table with
  | none => throw (.noSuchTable table)
  | some t =>
    match condition with
    | some c => checkCondition db c
    | none => pure ()
    return ({ database := db.shownTo condition, table := t, args := args }, condition)

end Tabular.Database
