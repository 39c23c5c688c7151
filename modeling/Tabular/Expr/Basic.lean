import Tabular.Kind
import Tabular.Value.Basic

namespace Tabular

inductive BinaryOp
  | eq
  | ne
  | lt
  | le
  | gt
  | ge
  | and
  | or
  | bitAnd
  | bitOr
  | bitXor
  | add
  | sub
  | mul
  | div
  | mod
  | coalesce
  deriving DecidableEq

namespace BinaryOp

def token? : BinaryOp → Option String
  | .eq => some "="
  | .ne => some "!="
  | .lt => some "<"
  | .le => some "<="
  | .gt => some ">"
  | .ge => some ">="
  | .and => some "and"
  | .or => some "or"
  | .bitAnd => some "&"
  | .bitOr => some "|"
  | .bitXor | .add | .sub | .mul | .div | .mod | .coalesce => none

def symbol : BinaryOp → String
  | .eq => "=="
  | .ne => "!="
  | .lt => "<"
  | .le => "<="
  | .gt => ">"
  | .ge => ">="
  | .and => "&&"
  | .or => "||"
  | .bitAnd => "&"
  | .bitOr => "|"
  | .bitXor => "^"
  | .add => "+"
  | .sub => "-"
  | .mul => "*"
  | .div => "/"
  | .mod => "%"
  | .coalesce => "??"

end BinaryOp

/-- The row is the one parameter; everything else is known when the expression is compiled. -/
inductive Expr
  | constant (v : Value)
  | parameter
  | captured (name : String) (v : Value)
  | member (target : Expr) (name : String)
  | binary (op : BinaryOp) (left right : Expr)
  | not (operand : Expr)
  | convert (operand : Expr) (kind : Kind)
  | call (method : String) (args : List Expr)
  | invoke (receiver : Expr) (method : String) (args : List Expr)
  | lambda (arity : Nat) (body : Expr)

namespace Expr

def field (name : String) : Expr := .member .parameter name

def isRowMember : Expr → Bool
  | .member .parameter _ => true
  | _ => false

def label : Expr → String
  | .constant _ => "constant"
  | .parameter => "parameter"
  | .captured .. => "captured"
  | .member .. => "member access"
  | .binary .. => "binary"
  | .not _ => "not"
  | .convert .. => "convert"
  | .call .. | .invoke .. => "call"
  | .lambda .. => "lambda"

end Expr

end Tabular
