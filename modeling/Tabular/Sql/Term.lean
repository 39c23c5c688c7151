import Tabular.Sql.Token

/-! Conditions in SQL as trees, and how tokens are put together to them. All operators associate to
the left; the parser keeps what waits for its right side on a stack. -/

namespace Tabular.Sql

inductive Operator
  | or
  | and
  | eq
  | ne
  | is
  | isNot
  | isIn
  | notIn
  | like
  | notLike
  | lt
  | le
  | gt
  | ge
  | bitAnd
  | bitOr
  | concat
  deriving DecidableEq

def Operator.level : Operator → Nat
  | .or => 1
  | .and => 2
  | .eq | .ne | .is | .isNot | .isIn | .notIn | .like | .notLike => 3
  | .lt | .le | .gt | .ge => 4
  | .bitAnd | .bitOr => 5
  | .concat => 6

/-- Brackets stay visible: around one term they change nothing, else they make a list. -/
inductive Term
  | placeholder (place : Nat)
  | name (s : String)
  | literal (s : String)
  | number (n : Nat)
  | brackets (items : List Term)
  | binary (op : Operator) (left right : Term)
  | apply (function : String) (args : List Term)

namespace Parser

structure Waiting where
  left : Term
  op : Operator

/-- An open bracket, perhaps of a function: what waits outside, and the items before the last
comma, the last of them first. -/
structure Bracket where
  function : Option String
  outside : List Waiting
  items : List Term

inductive Phase
  | term
  | arguments (function : String)
  | operator (left : Term)
  | negated (left : Term)

structure State where
  brackets : List Bracket := []
  waiting : List Waiting := []
  phase : Phase := .term
  places : Nat := 0

/-- Puts together what waits and binds at least as tightly as the level. -/
def settle (level : Nat) : List Waiting → Term → List Waiting × Term
  | [], t => ([], t)
  | w :: ws, t =>
    if level ≤ w.op.level then settle level ws (.binary w.op w.left t) else (w :: ws, t)

def settleAll (ws : List Waiting) (t : Term) : Term := (settle 0 ws t).2

def pushOperator (s : State) (left : Term) (op : Operator) : State :=
  let (ws, t) := settle op.level s.waiting left
  { s with waiting := ⟨t, op⟩ :: ws, phase := .term }

def openBracket (s : State) (function : Option String) : State :=
  { s with brackets := ⟨function, s.waiting, []⟩ :: s.brackets, waiting := [], phase := .term }

def closeBracket (s : State) (items : List Term) : Option State :=
  match s.brackets with
  | [] => none
  | b :: bs =>
    let t := match b.function with
      | some f => Term.apply f items
      | none => Term.brackets items
    some { s with brackets := bs, waiting := b.outside, phase := .operator t }

def operator? : Token → Option Operator
  | .eq => some .eq
  | .ne => some .ne
  | .lt => some .lt
  | .le => some .le
  | .gt => some .gt
  | .ge => some .ge
  | .bitAnd => some .bitAnd
  | .bitOr => some .bitOr
  | .concat => some .concat
  | .word s =>
    if s = "or" then some .or
    else if s = "and" then some .and
    else if s = "is" then some .is
    else if s = "in" then some .isIn
    else if s = "like" then some .like
    else none
  | _ => none

def stepTerm (s : State) : Token → Option State
  | .placeholder =>
    some { s with phase := .operator (.placeholder s.places), places := s.places + 1 }
  | .name n => some { s with phase := .operator (.name n) }
  | .literal t => some { s with phase := .operator (.literal t) }
  | .number n => some { s with phase := .operator (.number n) }
  | .opening => some (openBracket s none)
  | .word f =>
    if f = "not" then
      match s.waiting with
      | ⟨t, .is⟩ :: ws => some { s with waiting := ⟨t, .isNot⟩ :: ws }
      | _ => none
    else some { s with phase := .arguments f }
  | .closing =>
    match s.brackets, s.waiting with
    | ⟨_, _, []⟩ :: _, [] => closeBracket s []
    | _, _ => none
  | _ => none

def stepOperator (s : State) (t : Term) (k : Token) : Option State :=
  match k with
  | .comma =>
    match s.brackets with
    | [] => none
    | b :: bs =>
      some { s with
        brackets := { b with items := settleAll s.waiting t :: b.items } :: bs
        waiting := []
        phase := .term }
  | .closing =>
    match s.brackets with
    | [] => none
    | b :: _ => closeBracket s (settleAll s.waiting t :: b.items).reverse
  | k =>
    if k = .word "not" then some { s with phase := .negated t }
    else (operator? k).map (pushOperator s t)

def step (s : State) (k : Token) : Option State :=
  match s.phase with
  | .term => stepTerm s k
  | .arguments f => if k = .opening then some (openBracket s (some f)) else none
  | .operator t => stepOperator s t k
  | .negated t =>
    if k = .word "in" then some (pushOperator s t .notIn)
    else if k = .word "like" then some (pushOperator s t .notLike)
    else none

def run : State → List Token → Option State
  | s, [] => some s
  | s, k :: ks => (step s k).bind fun s => run s ks

def finish (s : State) : Option Term :=
  match s.brackets, s.phase with
  | [], .operator t => some (settleAll s.waiting t)
  | _, _ => none

def read? (ks : List Token) : Option Term := (run {} ks).bind finish

theorem run_append (s : State) (ks ls : List Token) :
    run s (ks ++ ls) = (run s ks).bind fun s => run s ls := by
  induction ks generalizing s with
  | nil => simp [run]
  | cons k ks ih =>
    simp only [List.cons_append, run]
    cases step s k with
    | none => rfl
    | some s => simp [ih]

end Parser

namespace Term

def isCollection : Term → Bool
  | .brackets _ | .name _ | .apply .. => true
  | _ => false

def isEmptyList : Term → Bool
  | .brackets [] => true
  | _ => false

mutual

def wellFormed : Term → Bool
  | .placeholder _ | .name _ | .literal _ | .number _ => true
  | .brackets items => !items.isEmpty && allWellFormed items
  | .apply _ args => allWellFormed args
  | .binary op left right =>
    left.wellFormed &&
      if op = .isIn ∨ op = .notIn then
        right.isCollection && (right.isEmptyList || right.wellFormed)
      else right.wellFormed

def allWellFormed : List Term → Bool
  | [] => true
  | t :: ts => t.wellFormed && allWellFormed ts

end

def isZero : Term → Bool
  | .number n => n == 0
  | _ => false

/-- An operator between two terms. Nothing is in the empty list, and with one side false a
conjunction is; the other side is then left out, whatever names it holds. -/
def joined (op : Operator) (left right : Term) : Term :=
  if op = .isIn ∧ right.isEmptyList then .number 0
  else if op = .notIn ∧ right.isEmptyList then .number 1
  else if op = .and ∧ (left.isZero ∨ right.isZero) then .number 0
  else .binary op left right

mutual

/-- The term without what cannot matter, brackets around one term among it. -/
def pruned : Term → Term
  | .brackets [t] => t.pruned
  | .brackets items => .brackets (prunedAll items)
  | .apply f args => .apply f (prunedAll args)
  | .binary op left right =>
    joined op left.pruned
      (if op = .isIn ∨ op = .notIn then right.prunedCollection else right.pruned)
  | t => t

/-- A list keeps its brackets to the right of a membership test. -/
def prunedCollection : Term → Term
  | .brackets items => .brackets (prunedAll items)
  | t => t.pruned

def prunedAll : List Term → List Term
  | [] => []
  | t :: ts => t.pruned :: prunedAll ts

end

mutual

/-- How many operators and functions lie inside one another, the innermost term counted as one.
Brackets do not count. -/
def height : Term → Nat
  | .brackets items => heightAll items
  | .apply _ args => heightAll args + 1
  | .binary op left right =>
    max left.height right.height + if op = .notIn ∨ op = .notLike then 2 else 1
  | _ => 1

def heightAll : List Term → Nat
  | [] => 0
  | t :: ts => max t.height (heightAll ts)

end

def ofTokens? (ks : List Token) : Option Term := do
  let t ← Parser.read? ks
  if t.wellFormed then some t else none

end Term

end Tabular.Sql
