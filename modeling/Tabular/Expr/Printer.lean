import Tabular.Binary64.Shortest
import Tabular.Calendar.Text
import Tabular.Expr.Basic
import Tabular.Text.Unprintable

namespace Tabular.Value

mutual

def render : Value → String
  | .null => "null"
  | .bool b => if b then "true" else "false"
  | .int n => String.ofList (Decimal.ofInt n.toInt)
  | .float x => x.text
  | .text s => Text.quoted s
  | .blob b => "<" ++ String.ofList (Decimal.digits b.length) ++ " bytes>"
  | .moment m => m.text
  | .span d => d.text
  | .list items => "[" ++ ", ".intercalate (renderItems items) ++ "]"
  | .record members => "\x7b" ++ ", ".intercalate (renderMembers members) ++ "\x7d"

def renderItems : List Value → List String
  | [] => []
  | v :: vs => v.render :: renderItems vs

def renderMembers : List (String × Value) → List String
  | [] => []
  | (name, v) :: ms => (name ++ ": " ++ v.render) :: renderMembers ms

end

end Tabular.Value

namespace Tabular.Expr

mutual

def render : Expr → String
  | .constant v => v.render
  | .parameter => "x"
  | .captured name _ => name
  | .member target name => target.render ++ "." ++ name
  | .binary op left right => "(" ++ left.render ++ " " ++ op.symbol ++ " " ++ right.render ++ ")"
  | .not operand => "!" ++ operand.render
  | .convert operand kind => "(" ++ operand.render ++ " as " ++ kind.label ++ ")"
  | .call method args => "(" ++ method ++ "(" ++ ", ".intercalate (renderAll args) ++ "))"
  | .invoke receiver method args =>
    "(" ++ receiver.render ++ "." ++ method ++ "(" ++ ", ".intercalate (renderAll args) ++ "))"
  | .lambda arity body =>
    if arity = 1 then "x => " ++ body.render
    else "|" ++ String.ofList (Decimal.digits arity) ++ " params| " ++ body.render

def renderAll : List Expr → List String
  | [] => []
  | e :: es => e.render :: renderAll es

end

end Tabular.Expr
