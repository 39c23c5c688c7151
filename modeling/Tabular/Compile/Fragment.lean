import Tabular.Schema.Statement
import Tabular.Text.Basic

namespace Tabular

structure Fragment where
  sql : String
  args : List Datum
  /-- What a placeholder or a list of them stands for. -/
  value : Option Value := none
  textual : Bool := false

namespace Fragment

def isNull (f : Fragment) : Bool := f.sql == "?" && f.value.any Value.isNull

def infixed (left : Fragment) (op : String) (right : Fragment) : Fragment where
  sql := "(" ++ left.sql ++ " " ++ op ++ " " ++ right.sql ++ ")"
  args := left.args ++ right.args

def like (value pattern : Fragment) : Fragment := value.infixed "like" pattern

def isIn (item collection : Fragment) : Fragment := item.infixed "in" collection

def equals (left right : Fragment) : Fragment where
  sql := "(" ++ left.sql ++ " = (" ++ right.sql ++ "))"
  args := left.args ++ right.args

def startsWith (value start : Fragment) : Fragment where
  sql := "(" ++ value.sql ++ " like (" ++ start.sql ++ " || '%'))"
  args := value.args ++ start.args

def endsWith (value tail : Fragment) : Fragment where
  sql := "(" ++ value.sql ++ " like ('%' || " ++ tail.sql ++ "))"
  args := value.args ++ tail.args

def containsText (value part : Fragment) : Fragment where
  sql := "(" ++ value.sql ++ " like ('%' || " ++ part.sql ++ " || '%'))"
  args := value.args ++ part.args

def lowerCase (value : Fragment) : Fragment where
  sql := "(lower(" ++ value.sql ++ "))"
  args := value.args
  textual := true

def apply (function : String) (operands : List Fragment) : Fragment where
  sql := function ++ "(" ++ ",".intercalate (operands.map sql) ++ ")"
  args := operands.flatMap args

def isFalse (f : Fragment) : Fragment where
  sql := f.sql ++ " = 0"
  args := f.args

/-- The operators of calls, each with its negation. -/
def negations : List (String × String) :=
  [(" like ", " not like "), (" in ", " not in "), (" = ", " <> ")]

/-- The first operator of the list that occurs is negated, wherever it occurs. -/
def negatedText (sql : String) : String :=
  match negations.find? fun n => Text.occurs n.1.toList sql.toList with
  | some (op, negated) => String.ofList (Text.replaceAll op.toList negated.toList sql.toList)
  | none => sql

def negatedCall (f : Fragment) : Fragment where
  sql := negatedText f.sql
  args := f.args

end Fragment

end Tabular
