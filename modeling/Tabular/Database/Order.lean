import Tabular.Database.Numeric
import Tabular.Text.Basic

namespace Tabular.Database

inductive Collation
  | binary
  | nocase
  | rtrim
  deriving DecidableEq

namespace Collation

def ofName? (s : String) : Option Collation :=
  let s := Text.fold s
  if s = "binary" then some .binary
  else if s = "nocase" then some .nocase
  else if s = "rtrim" then some .rtrim
  else none

def key (c : Collation) (s : String) : List Char :=
  match c with
  | .binary => s.toList
  | .nocase => s.toList.map Text.foldChar
  | .rtrim => (s.toList.reverse.dropWhile (· == ' ')).reverse

end Collation

def compareList {α : Type} (f : α → α → Ordering) : List α → List α → Ordering
  | [], [] => .eq
  | [], _ :: _ => .lt
  | _ :: _, [] => .gt
  | a :: as, b :: bs => (f a b).then (compareList f as bs)

def rank : Datum → Nat
  | .null => 0
  | .integer _ | .real _ => 1
  | .text _ => 2
  | .blob _ => 3

def compareData (c : Collation) (d e : Datum) : Ordering :=
  match d, e with
  | .integer m, .integer n => compare m.toInt n.toInt
  | .integer m, .real y => (y.compareInt m.toInt).swap
  | .real x, .integer n => x.compareInt n.toInt
  | .real x, .real y => x.compare y
  | .text s, .text t => compareList (fun a b => compare a.toNat b.toNat) (c.key s) (c.key t)
  | .blob s, .blob t => compareList (fun a b => compare a.toNat b.toNat) s t
  | d, e => compare (rank d) (rank e)

end Tabular.Database
