/-! Tokens of SQL text. The lexer is a machine that reads one character at a time, so that the
tokens of a text put together from pieces can be found piece by piece. -/

namespace Tabular.Sql

inductive Token
  | word (s : String)
  | name (s : String)
  | literal (s : String)
  | number (n : Nat)
  | placeholder
  | opening
  | closing
  | comma
  | star
  | minus
  | eq
  | ne
  | lt
  | le
  | gt
  | ge
  | bitAnd
  | bitOr
  | concat
  deriving DecidableEq

namespace Lexer

/-- What the lexer is in the middle of; characters already read are held last one first. -/
inductive State
  | between
  | word (read : List Char)
  | number (read : List Char)
  | quote (delimiter : Char) (read : List Char)
  | quoteEnd (delimiter : Char) (read : List Char)
  | operator (c : Char)
  deriving DecidableEq

def isBlank (c : Char) : Bool :=
  c == ' ' || c == '\t' || c == '\n' || c == '\r' || c == '\x0c'

def isWordStart (c : Char) : Bool := c.isAlpha || c == '_' || 0x80 ≤ c.toNat

def isWordPart (c : Char) : Bool := isWordStart c || c.isDigit || c == '$'

def quoted (delimiter : Char) (read : List Char) : Token :=
  if delimiter = '"' then .name (String.ofList read.reverse)
  else .literal (String.ofList read.reverse)

def single? (c : Char) : Option Token :=
  if c = '<' then some .lt
  else if c = '>' then some .gt
  else if c = '=' then some .eq
  else if c = '|' then some .bitOr
  else none

def double? (c d : Char) : Option Token :=
  if c = '<' ∧ d = '=' then some .le
  else if c = '<' ∧ d = '>' then some .ne
  else if c = '>' ∧ d = '=' then some .ge
  else if c = '!' ∧ d = '=' then some .ne
  else if c = '=' ∧ d = '=' then some .eq
  else if c = '|' ∧ d = '|' then some .concat
  else none

def simple? (c : Char) : Option Token :=
  if c = '(' then some .opening
  else if c = ')' then some .closing
  else if c = ',' then some .comma
  else if c = '*' then some .star
  else if c = '-' then some .minus
  else if c = '&' then some .bitAnd
  else if c = '?' then some .placeholder
  else none

def start (c : Char) : Option (List Token × State) :=
  if isBlank c then some ([], .between)
  else if c = '"' ∨ c = '\x27' then some ([], .quote c [])
  else if isWordStart c then some ([], .word [c])
  else if c.isDigit then some ([], .number [c])
  else if c = '<' ∨ c = '>' ∨ c = '=' ∨ c = '|' ∨ c = '!' then some ([], .operator c)
  else (simple? c).map fun t => ([t], .between)

def after (t : Token) (c : Char) : Option (List Token × State) :=
  (start c).map fun r => (t :: r.1, r.2)

def wordToken (read : List Char) : Token := .word (String.ofList read.reverse)

def numberToken (read : List Char) : Token := .number (Nat.ofDigitChars 10 read.reverse 0)

def step (s : State) (c : Char) : Option (List Token × State) :=
  match s with
  | .between => start c
  | .word read =>
    if isWordPart c then some ([], .word (c :: read)) else after (wordToken read) c
  | .number read =>
    if c.isDigit then some ([], .number (c :: read))
    else if isWordStart c then none
    else after (numberToken read) c
  | .quote q read =>
    if c = q then some ([], .quoteEnd q read) else some ([], .quote q (c :: read))
  | .quoteEnd q read =>
    if c = q then some ([], .quote q (c :: read)) else after (quoted q read) c
  | .operator d =>
    match double? d c with
    | some t => some ([t], .between)
    | none => (single? d).bind fun t => after t c

def run : State → List Char → Option (List Token × State)
  | s, [] => some ([], s)
  | s, c :: cs => do
    let (ts, s) ← step s c
    let (us, s) ← run s cs
    return (ts ++ us, s)

def finish : State → Option (List Token)
  | .between => some []
  | .word read => some [wordToken read]
  | .number read => some [numberToken read]
  | .quote .. => none
  | .quoteEnd q read => some [quoted q read]
  | .operator c => (single? c).map fun t => [t]

theorem run_append (s : State) (cs ds : List Char) :
    run s (cs ++ ds) = (do
      let (ts, s) ← run s cs
      let (us, s) ← run s ds
      return (ts ++ us, s)) := by
  induction cs generalizing s with
  | nil => cases h : run s ds <;> simp [run, h]
  | cons c cs ih =>
    simp only [List.cons_append, run]
    cases step s c with
    | none => rfl
    | some p =>
      simp only [bind, Option.bind, ih]
      cases run p.2 cs with
      | none => rfl
      | some q =>
        simp only [pure]
        cases run q.2 ds with
        | none => rfl
        | some r => simp [List.append_assoc]

def read? (cs : List Char) : Option (List Token) := do
  let (ts, s) ← run .between cs
  return ts ++ (← finish s)

end Lexer

/-- A text breaks off at a NUL, also within a quotation. -/
def tokens? (text : String) : Option (List Token) :=
  if text.toList.contains '\x00' then none else Lexer.read? text.toList

end Tabular.Sql
