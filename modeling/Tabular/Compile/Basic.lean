import Tabular.Compile.Fragment
import Tabular.Text.Lowercase

namespace Tabular

namespace Expr

def readMember (target : Expr) (name : String) (base : Value) : Except Fault Value :=
  if base.isNull then .error (.memberOfNull target name)
  else
    match base.member? name with
    | some v => .ok v
    | none => .error (.noMember target name)

def evaluate : Expr → Except Fault Value
  | .constant v => .ok v
  | .captured _ v => .ok v
  | .member .parameter name => .error (.uncompilable (.memberOf (.member .parameter name)))
  | .member target name => do readMember target name (← target.evaluate)
  | .convert operand kind => do (← operand.evaluate).convert kind
  | e => .error (.uncompilable (.memberOf e))

end Expr

namespace TableMapping

def placeholder (t : TableMapping) (v : Value) : Except Fault Fragment := do
  return { sql := "?", args := [← t.bind v], value := some v, textual := v.isText }

/-- A list has one placeholder for each of its items. -/
def expand (t : TableMapping) (v : Value) : Except Fault Fragment :=
  match v with
  | .list items => do
    let args ← items.mapM t.bind
    return { sql := "(" ++ placeholders "," args.length ++ ")", args := args, value := some v }
  | v => t.placeholder v

end TableMapping

namespace Fragment

def nullTest (e : Expr) (op : BinaryOp) (other null : Fragment) : Except Fault Fragment :=
  match op with
  | .eq => .ok { sql := "(" ++ other.sql ++ " is ?)", args := other.args ++ null.args }
  | .ne => .ok { sql := "(" ++ other.sql ++ " is not ?)", args := other.args ++ null.args }
  | _ => .error (.uncompilable (.againstNull op e))

def binary (e : Expr) (op : BinaryOp) (left right : Fragment) : Except Fault Fragment :=
  if left.isNull then nullTest e op right left
  else if right.isNull then nullTest e op left right
  else
    match op.token? with
    | some token => .ok (left.infixed token right)
    | none => .error (.withoutToken op e)

def convert (f : Fragment) (kind : Kind) : Except Fault Fragment := do
  let value ← match f.value with
    | some v => some <$> v.convert kind
    | none => pure none
  return { f with value := value, textual := f.textual || kind.isTextual }

def negate (operand : Expr) (f : Fragment) : Except Fault Fragment :=
  match operand with
  | .member .. | .captured .. => .ok f.isFalse
  | .call .. | .invoke .. => .ok f.negatedCall
  | _ => .error (.uncompilable (.negation operand))

def needsReceiver (method : String) (count : Nat) : Bool :=
  count == 1 && (method == "contains" || method == "starts_with" || method == "ends_with" ||
    method == "equals") || count == 0 && method == "to_lower"

def call (e : Expr) (method : String) (args : List Fragment) : Except Fault Fragment :=
  match args with
  | [a, b] =>
    if method = "like" then .ok (a.like b)
    else if method = "contains" then .ok (b.isIn a)
    else .ok (apply (Text.lower method) args)
  | _ =>
    if needsReceiver method args.length then
      .error (.uncompilable (.withoutReceiver method e))
    else .ok (apply (Text.lower method) args)

def invoke (receiver : Fragment) (method : String) (args : List Fragment) : Fragment :=
  match args with
  | [] =>
    if method = "to_lower" then receiver.lowerCase
    else apply (Text.lower method) [receiver]
  | [a] =>
    if method = "contains" then
      if receiver.textual then receiver.containsText a else a.isIn receiver
    else if method = "starts_with" then receiver.startsWith a
    else if method = "ends_with" then receiver.endsWith a
    else if method = "equals" then receiver.equals a
    else apply (Text.lower method) [receiver, a]
  | _ => apply (Text.lower method) (receiver :: args)

end Fragment

namespace TableMapping

mutual

def fragment (t : TableMapping) : Expr → Except Fault Fragment
  | .constant v => t.placeholder v
  | .parameter => .error (.uncompilable (.node .parameter))
  | .captured _ v => t.expand v
  | .member .parameter name => do
    let c ← t.columnOf name
    return { sql := c.quotedName, args := [], textual := c.kind.isTextual }
  | .member target name => do t.expand (← Expr.readMember target name (← target.evaluate))
  | .binary op left right => do
    let l ← t.fragment left
    let r ← t.fragment right
    Fragment.binary (.binary op left right) op l r
  | .not operand => do
    let f ← t.fragment operand
    f.negate operand
  | .convert operand kind => do (← t.fragment operand).convert kind
  | .call method args => do
    let fs ← t.fragments args
    Fragment.call (.call method args) method fs
  | .invoke receiver method args => do
    let r ← t.fragment receiver
    let fs ← t.fragments args
    return r.invoke method fs
  | .lambda arity body => .error (.uncompilable (.node (.lambda arity body)))

def fragments (t : TableMapping) : List Expr → Except Fault (List Fragment)
  | [] => .ok []
  | e :: es => do
    let f ← t.fragment e
    let fs ← t.fragments es
    return f :: fs

end

/-- The SQL of an expression, and the parameters bound so far with its arguments added to them. An
expression that has no SQL adds none. -/
def compile (t : TableMapping) (e : Expr) (params : List Datum) :
    Except Fault Fragment × List Datum :=
  match t.fragment e with
  | .ok f => (.ok f, params ++ f.args)
  | .error fault => (.error fault, params)

def columnName? (t : TableMapping) : Expr → Option (Except Fault String)
  | .member .parameter name => some (Column.quotedName <$> t.columnOf name)
  | _ => none

end TableMapping

end Tabular
