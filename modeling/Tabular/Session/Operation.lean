import Tabular.Session.Rows

namespace Tabular

inductive Operation
  | createTable (t : RowType)
  | mapping (t : RowType)
  | table (t : RowType)
  | insert (t : RowType) (values : List Value)
  | insertAll (t : RowType) (values : List (List Value))
  | findRow (t : RowType) (key : Value)
  | getRow (t : RowType) (key : Value)
  | findRowByKeys (t : RowType) (keys : List Value)
  | getRowByKeys (t : RowType) (keys : List Value)
  | delete (t : RowType) (key : Value)
  | deleteByKeys (t : RowType) (keys : List Value)
  | deleteIn (t : RowType) (keys : List Value)
  | deleteAll (t : RowType)
  | toList (q : Query)
  | rows (q : Query)
  | select (q : Query) (key : Expr) (as : Reading)
  | selectRows (q : Query) (key : Expr) (as : Reading)
  | count (q : Query)
  | countWhere (q : Query) (p : Expr)
  | first (q : Query)
  | first? (q : Query)
  | elementAt (q : Query) (i : Nat)
  | close

namespace Operation

def Result : Operation → Type
  | createTable _ | close => Unit
  | mapping _ => TableMapping
  | table _ => Query
  | insert .. | count _ | countWhere .. => Int64
  | insertAll .. | delete .. | deleteByKeys .. | deleteIn .. | deleteAll _ => Nat
  | findRow .. | findRowByKeys .. | first? _ => Option NamedRow
  | getRow .. | getRowByKeys .. | first _ | elementAt .. => NamedRow
  | toList _ => List NamedRow
  | rows _ => List (Except Failure NamedRow)
  | select .. => List Cell × Statement
  | selectRows .. => List (Except Failure Cell)

def perform : (o : Operation) → Session.Action o.Result
  | createTable t => Session.createTable t
  | mapping t => Session.mapping t
  | table t => Session.table t
  | insert t values => Session.insert t values
  | insertAll t values => Session.insertAll t values
  | findRow t key => Session.findRow t key
  | getRow t key => Session.getRow t key
  | findRowByKeys t keys => Session.findRowByKeys t keys
  | getRowByKeys t keys => Session.getRowByKeys t keys
  | delete t key => Session.delete t key
  | deleteByKeys t keys => Session.deleteByKeys t keys
  | deleteIn t keys => Session.deleteIn t keys
  | deleteAll t => Session.deleteAll t
  | toList q => Session.toList q
  | rows q => Session.rows q
  | select q key as => Session.select q key as
  | selectRows q key as => Session.selectRows q key as
  | count q => Session.count q
  | countWhere q p => Session.countWhere q p
  | first q => Session.first q
  | first? q => Session.first? q
  | elementAt q i => Session.elementAt q i
  | close => Session.close

end Operation

def Session.after (s : Session) (run : List Operation) : Session :=
  run.foldl (fun s o => (o.perform.run s).2) s

@[simp] theorem Session.after_cons (s : Session) (o : Operation) (run : List Operation) :
    s.after (o :: run) = Session.after (o.perform.run s).2 run := rfl

end Tabular
