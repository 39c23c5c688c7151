import Tabular.Expr.Printer

namespace Tabular

/-- Expressions that have no SQL. The last field is the expression at fault. -/
inductive Uncompilable
  | againstNull (op : BinaryOp) (e : Expr)
  | negation (operand : Expr)
  | withoutReceiver (method : String) (e : Expr)
  | memberOf (e : Expr)
  | node (e : Expr)

inductive SchemaFault
  | autoIncrementNotKey (column : String)
  | autoIncrementNotInteger (column : String)
  | severalAutoIncrement
  | autoIncrementInCompositeKey
  | indexUniqueness (index : String)

inductive Fault
  | unsupportedKind (kind : Kind)
  | uncompilable (cause : Uncompilable)
  | withoutToken (op : BinaryOp) (e : Expr)
  | orderingKey (key : Expr)
  | projectionKey (key : Expr)
  | notPredicate (e : Expr)
  | joins
  | memberOfNull (target : Expr) (name : String)
  | noMember (target : Expr) (name : String)
  | noColumn (type : String) (property : String)
  | noValue (property : String)
  | conversion (v : Value) (kind : Kind)
  | momentTicks (m : Calendar.Moment)
  | spanTicks (d : Calendar.Span)
  | ticksMoment (t : Int64)
  | unbindable (v : Value)
  | schema (table : String) (cause : SchemaFault)
  | noSingleKey (table : String)
  | keyCount (table : String) (columns given : Nat)

def Uncompilable.message : Uncompilable → String
  | .againstNull op e => op.symbol ++ " against null in " ++ e.render
  | .negation operand => "negation of " ++ operand.label ++ " node " ++ operand.render
  | .withoutReceiver method e => method ++ " without a receiver in " ++ e.render
  | .memberOf e => "member access on " ++ e.label ++ " node " ++ e.render
  | .node e => e.label ++ " node " ++ e.render

def SchemaFault.message : SchemaFault → String
  | .autoIncrementNotKey column => "autoincrement column " ++ column ++ " is not a primary key"
  | .autoIncrementNotInteger column => "autoincrement column " ++ column ++ " is not an integer"
  | .severalAutoIncrement => "more than one autoincrement column"
  | .autoIncrementInCompositeKey => "autoincrement cannot be used with a composite primary key"
  | .indexUniqueness index =>
    "all the columns in index " ++ index ++ " must have the same uniqueness"

def conversionMessage (value target : String) : String :=
  "cannot convert " ++ value ++ " to " ++ target

def Fault.message : Fault → String
  | .unsupportedKind kind => "don't know about " ++ kind.label
  | .uncompilable cause => "cannot compile: " ++ cause.message
  | .withoutToken op e => "cannot get SQL operator name for: " ++ op.symbol ++ " in " ++ e.render
  | .orderingKey key => "order by does not support: " ++ key.render
  | .projectionKey key => "select only supports a single member projection, got: " ++ key.render
  | .notPredicate e => "must be a predicate: " ++ e.render
  | .joins => "joins are not supported"
  | .memberOfNull target name => "member access on a null value: " ++ target.render ++ "." ++ name
  | .noMember target name => "unknown member: " ++ target.render ++ "." ++ name
  | .noColumn type property => "unknown member: " ++ type ++ "." ++ property
  | .noValue property => "unknown member: " ++ property
  | .conversion v kind => conversionMessage v.render kind.label
  | .momentTicks m => conversionMessage m.fullText "ticks"
  | .spanTicks d => conversionMessage d.text "ticks"
  | .ticksMoment t => conversionMessage (String.ofList (Decimal.ofInt t.toInt)) "date-time"
  | .unbindable v => "value cannot be bound as a parameter: " ++ v.render
  | .schema table cause => "invalid schema for table " ++ table ++ ": " ++ cause.message
  | .noSingleKey table => "table " ++ table ++ " has no single primary key"
  | .keyCount table columns given =>
    "table " ++ table ++ " has " ++ String.ofList (Decimal.digits columns) ++
      " primary key column(s), got " ++ String.ofList (Decimal.digits given) ++ " key value(s)"

end Tabular
