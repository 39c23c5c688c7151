import Tabular.Database.Eval

/-! The conditions that a row has to meet one and all. Where one of them sets a column equal to a
constant, the others may take the constant for the column. -/

namespace Tabular.Database

open Sql (Term Operator)

structure Conjunct where
  term : Term
  fixed : Fixed := []

def Scope.under (s : Scope) (c : Conjunct) : Scope := { s with fixed := c.fixed }

def conjoined : Term → List Term
  | .binary .and left right => conjoined left ++ conjoined right
  | t => [t]

def disjoined : Term → List Term
  | .binary .or left right => disjoined left ++ disjoined right
  | t => [t]

mutual

def Table.reads (t : Table) : Term → List Place
  | .name n => (t.locate? n).toList
  | .brackets items => t.readsAll items
  | .apply _ args => t.readsAll args
  | .binary op left right =>
    t.reads left ++
      if op = .isIn ∨ op = .notIn then
        match right with
        | .brackets items => t.readsAll items
        | _ => []
      else t.reads right
  | _ => []

def Table.readsAll (t : Table) : List Term → List Place
  | [] => []
  | u :: us => t.reads u ++ t.readsAll us

end

mutual

/-- Whether a term has the same value in all rows. Whether it looks into a table, or asks for the id
of the row that was inserted last, is told apart. -/
def Scope.isFree (s : Scope) (tables : Bool) : Term → Bool
  | .name n =>
    match s.table.locate? n with
    | some p => (s.fixedAt? p).isSome
    | none => true
  | .brackets items => s.allFree tables items
  | .apply f args => (tables || f != lastIdName) && s.allFree tables args
  | .binary op left right =>
    ((s.fixedLeft? op left right).isSome || s.isFree tables left) &&
      if op = .isIn ∨ op = .notIn then
        match right with
        | .brackets items => s.allFree tables items
        | _ => tables
      else (s.fixedRight? op left right).isSome || s.isFree tables right
  | _ => true

def Scope.allFree (s : Scope) (tables : Bool) : List Term → Bool
  | [] => true
  | t :: ts => s.isFree tables t && s.allFree tables ts

end

mutual

def looksIntoTable : Term → Bool
  | .brackets items => anyLooksIntoTable items
  | .apply _ args => anyLooksIntoTable args
  | .binary op left right =>
    looksIntoTable left ||
      if op = .isIn ∨ op = .notIn then
        match right with
        | .brackets items => anyLooksIntoTable items
        | _ => true
      else looksIntoTable right
  | _ => false

def anyLooksIntoTable : List Term → Bool
  | [] => false
  | t :: ts => looksIntoTable t || anyLooksIntoTable ts

end

def Scope.isConstant (s : Scope) (t : Term) : Bool := s.isFree false t

def Scope.isIndependent (s : Scope) (t : Term) : Bool := s.isFree true t

def Scope.isLeftIndependent (s : Scope) (op : Operator) (left right : Term) : Bool :=
  (s.fixedLeft? op left right).isSome || s.isIndependent left

def Scope.isRightIndependent (s : Scope) (op : Operator) (left right : Term) : Bool :=
  (s.fixedRight? op left right).isSome || s.isIndependent right

def Scope.openLeft? (s : Scope) (op : Operator) (left right : Term) : Option Place :=
  if (s.fixedLeft? op left right).isSome then none else s.placeOf? left

def Scope.openRight? (s : Scope) (op : Operator) (left right : Term) : Option Place :=
  if (s.fixedRight? op left right).isSome then none else s.placeOf? right

def Scope.constant (s : Scope) (t : Term) : Except Refusal Datum := s.eval ⟨0, []⟩ t

/-- A place and the constant that a term says it equals. Only where equal data are the same data
may one stand for the other. -/
def Scope.definition? (s : Scope) (c : Conjunct) : Option (Place × Term) :=
  let s := s.under c
  let defines (p : Place) (t : Term) : Option (Place × Term) :=
    if s.isConstant t && (s.placeOf? t).isNone && s.table.collationOf p == .binary then some (p, t)
    else none
  match c.term with
  | .binary .eq left right =>
    ((s.openRight? .eq left right).bind fun p => defines p left).or
      ((s.openLeft? .eq left right).bind fun p => defines p right)
  | .binary .isIn left (.brackets [t]) =>
    (s.openLeft? .isIn left (.brackets [t])).bind fun p => defines p t
  | _ => none

def Scope.definitions (s : Scope) (cs : List Conjunct) : List (Nat × Place × Term) :=
  cs.zipIdx.foldr (fun (c, i) found =>
    match s.definition? c with
    | some (p, t) => if found.any fun d => d.2.1 == p then found else found ++ [(i, p, t)]
    | none => found) []

def Scope.share (s : Scope) (cs : List Conjunct) (found : List (Nat × Place × Term)) :
    List Conjunct :=
  cs.zipIdx.map fun (c, i) =>
    let news := found.filterMap fun (j, p, t) =>
      if j == i || (c.fixed.lookup p).isSome then none
      else
        let value := match cs[j]? with
          | some d => (s.under d).constant t
          | none => s.constant t
        some (p, value.map (s.table.affinityOf p).store)
    { c with fixed := c.fixed ++ news }

/-- The conditions with all values fixed that can be. A value that is found may make another term
constant, so the search is repeated until it finds no more definitions than were known. -/
def Scope.settle (s : Scope) : Nat → Nat → List Conjunct → List Conjunct
  | 0, _, cs => cs
  | n + 1, known, cs =>
    let found := s.definitions cs
    if found.length ≤ known then cs else s.settle n found.length (s.share cs found)

def Scope.conjuncts (s : Scope) (t : Term) : List Conjunct :=
  let cs := (conjoined t).map fun t => { term := t }
  s.settle cs.length 0 cs

end Tabular.Database
