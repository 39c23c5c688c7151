import Tabular.Database.Conjunct
import Tabular.Database.Directory

namespace Tabular.Database

open Sql (Term Operator)

inductive Relation
  | equal
  | same
  | among (count : Nat)
  | amongRows
  | above
  | below
  | beginning
  deriving DecidableEq

namespace Relation

def ofOperator? : Operator → Option Relation
  | .eq => some .equal
  | .is => some .same
  | .gt | .ge => some .above
  | .lt | .le => some .below
  | _ => none

def isEquality (r : Relation) : Bool := r == .equal || r == .same

def isMembership : Relation → Bool
  | .among _ | .amongRows => true
  | _ => false

def isRange (r : Relation) : Bool := r == .above || r == .below || r == .beginning

def members : Relation → Estimate
  | .among n => Estimate.ofNat n
  | .amongRows => Estimate.ofNat 25
  | _ => 0

end Relation

structure Constraint where
  source : Nat
  place : Place
  relation : Relation
  operator : Operator := .eq
  affinity : Affinity
  collation : Collation
  bounds : List Term
  fixed : Fixed
  /-- The column equals one of the numbers that conditions often ask for: minus one, zero, one. -/
  common : Bool := false
  whole : Bool := true

def Constraint.fits (c : Constraint) (t : Table) : Bool :=
  match c.place with
  | .id => true
  | p =>
    c.collation == t.collationOf p &&
      match c.affinity with
      | .untyped => true
      | .text => t.affinityOf p == .text
      | _ => (t.affinityOf p).isNumeric

def isCommon : Term → Bool
  | .number n => n ≤ 1
  | _ => false

def flipped : Operator → Operator
  | .lt => .gt
  | .le => .ge
  | .gt => .lt
  | .ge => .le
  | op => op

def Scope.comparison? (s : Scope) (source : Nat) (op : Operator) (left right : Term) :
    Option Constraint := do
  let (p, op, other) ←
    if s.isRightIndependent op left right then (s.placeOf? left).map fun p => (p, op, right)
    else if s.isLeftIndependent op left right then
      (s.openRight? op left right).map fun p => (p, flipped op, left)
    else none
  return {
    source := source
    place := p
    relation := ← Relation.ofOperator? op
    operator := op
    affinity := s.affinity left right
    collation := s.collation left right
    bounds := [other]
    fixed := s.fixed
    common := isCommon other }

/-- A membership of a column. Being one of a single constant is being equal to it. -/
def Scope.membership? (s : Scope) (source : Nat) (left right : Term) : Option Constraint := do
  let p ← s.placeOf? left
  let among (r : Relation) (bounds : List Term) : Constraint := {
    source := source
    place := p
    relation := r
    affinity := s.table.affinityOf p
    collation := s.table.collationOf p
    bounds := bounds
    fixed := s.fixed }
  match right with
  | .brackets [t] =>
    if s.isConstant t then some (among .equal [t])
    else if s.isIndependent t then some (among (.among 1) [t])
    else none
  | .brackets items =>
    if s.allFree true items then some (among (.among items.length) items) else none
  | .name n =>
    (s.database.table? n).map fun t =>
      { among .amongRows [right] with
        affinity := Affinity.ofSides (some (s.table.affinityOf p)) (some (t.affinityOf (.cell 0))) }
  | _ => none

def Scope.constraint? (s : Scope) (source : Nat) (c : Conjunct) : Option Constraint :=
  match c.term with
  | .binary .isIn left right => (s.under c).membership? source left right
  | .binary op left right => (s.under c).comparison? source op left right
  | _ => none

def Constraint.union? : List Constraint → Option Constraint
  | [] => none
  | c :: cs =>
    if (c :: cs).all fun d => d.relation == .equal && d.place == c.place then
      some { c with
        relation := .among (cs.length + 1)
        bounds := (c :: cs).flatMap Constraint.bounds
        common := false }
    else none

def Scope.disjunction? (s : Scope) (source : Nat) (c : Conjunct) : Option Constraint :=
  match disjoined c.term with
  | [] | [_] => none
  | ts =>
    (ts.mapM fun t => s.constraint? source { c with term := t }).bind fun cs =>
      (Constraint.union? cs).map fun u => { u with affinity := s.table.affinityOf u.place }

def Scope.givenText? (s : Scope) : Term → Option String
  | .placeholder i =>
    match s.args[i]? with
    | some (.text t) => some t
    | _ => none
  | .literal t => some t
  | .name n => if (s.table.locate? n).isNone then some n else none
  | _ => none

def Scope.pattern? (s : Scope) (source : Nat) (c : Conjunct) : Option Constraint := do
  let (left, right) ← match c.term with
    | .binary .like left right => some (left, right)
    | .apply "like" [right, left] => some (left, right)
    | _ => none
  let p ← s.placeOf? left
  let cs := beforeNul (← s.givenText? right)
  let start := cs.takeWhile fun c => c != '%' && c != '_'
  if start.isEmpty || s.table.affinityOf p != .text then none
  else
    return {
      source := source
      place := p
      relation := .beginning
      affinity := .text
      collation := .nocase
      bounds := [.literal (String.ofList start)]
      fixed := []
      whole := cs.drop start.length == ['%'] && start.getLast? != some '@' }

def sameBounds : List Term → List Term → Bool
  | [.number m], [.number n] => m == n
  | [.literal t], [.literal u] => Text.sameName t u
  | _, _ => false

def Scope.agreed (s : Scope) (source : Nat) (c : Conjunct) : List Constraint :=
  let told (t : Term) := (conjoined t).filterMap fun u =>
    let d := { c with term := u }
    (s.constraint? source d).or (s.pattern? source d)
  match disjoined c.term with
  | [t, u] =>
    (told t).flatMap fun a =>
      (told u).filterMap fun b =>
        if a.place == b.place && a.relation == b.relation && a.relation != .same &&
            sameBounds a.bounds b.bounds then
          some { a with whole := false }
        else none
  | _ => []

def Scope.paraphrases (s : Scope) (source : Nat) (c : Conjunct) : List Constraint :=
  s.agreed source c ++ ((s.disjunction? source c).or (s.pattern? source c)).toList

def Scope.paraphraseCount (s : Scope) (c : Conjunct) : Nat :=
  let flips :=
    match c.term with
    | .binary op left right =>
      (Relation.ofOperator? op).isSome && ((s.under c).placeOf? left).isSome &&
        ((s.under c).openRight? op left right).isSome
    | _ => false
  (s.paraphrases 0 c).foldr (fun k n => (if k.relation == .beginning then 2 else 1) + n) flips.toNat

/-- Two places that a condition says to be equal in a way that carries over. -/
def Scope.equivalence? (s : Scope) (c : Conjunct) : Option (Place × Place) :=
  let s := s.under c
  match c.term with
  | .binary op (.name m) (.name n) =>
    match s.openLeft? op (.name m) (.name n), s.openRight? op (.name m) (.name n) with
    | some p, some q =>
      let a := s.table.affinityOf p
      let b := s.table.affinityOf q
      let c := s.table.collationOf p
      if (op == .eq || op == .is) && (a == b || a.isNumeric && b.isNumeric) &&
          (c == .binary || c == s.table.collationOf q) then
        some (p, q)
      else none
    | _, _ => none
  | _ => none

def Scope.equivalences (s : Scope) (cs : List Conjunct) : List (Place × Place) :=
  let pairs := cs.filterMap s.equivalence?
  pairs ++ pairs.reverse.map Prod.swap

def reached (pairs : List (Place × Place)) : Nat → List Place → List Place → List Place
  | 0, _, found => found
  | _ + 1, [], found => found
  | n + 1, p :: ps, found =>
    let news := pairs.filterMap fun (a, b) =>
      if a == p && !found.contains b then some b else none
    reached pairs n (ps ++ news) (found ++ news)

def Scope.known (s : Scope) (first : Nat) (cs : List Conjunct) : List Constraint :=
  let numbered := cs.zipIdx first
  numbered.filterMap (fun (c, i) => s.constraint? i c) ++
    numbered.reverse.flatMap fun (c, i) => s.paraphrases i c

def Scope.knownOfAll (s : Scope) : Nat → List (List Conjunct) → List Constraint
  | _, [] => []
  | first, cs :: rest => s.known first cs ++ s.knownOfAll (first + cs.length) rest

/-- The constraints of conditions and of those that they stand under. What holds of a place holds of
every place that is equal to it. -/
def Scope.constraints (s : Scope) (layers : List (List Conjunct)) : List Constraint :=
  let known := s.knownOfAll 0 layers
  let pairs := layers.flatMap s.equivalences
  let carried := (pairs.map Prod.fst).eraseDups.flatMap fun p =>
    ((reached pairs pairs.length [p] [p]).drop 1).flatMap fun q =>
      (known.filter fun c => c.place == q).map fun c => { c with place := p }
  known ++ carried

end Tabular.Database
