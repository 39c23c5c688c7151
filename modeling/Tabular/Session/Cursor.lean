import Tabular.Session.Operation

/-! Streams whose rows are asked for one at a time. There is one connection; a stream that reads as
it is asked keeps it from its first row on, and gives it back at the end, at a failure of the
statement, or when it is dropped. -/

namespace Tabular

/-- Mappings are resolved without the connection. Everything else may have to wait for it. -/
def Operation.needsConnection : Operation → Bool
  | .mapping _ | .table _ => false
  | _ => true

namespace Session

structure Source (α : Type) where
  deferred : Bool
  stmt : Statement
  decode : List String → List Datum → Except Failure α

inductive Progress (α : Type)
  | unopened
  | reading (count : Nat)
  | buffered (rows : List α)
  | ended

namespace Progress

variable {α : Type}

def keepsConnection : Progress α → Bool
  | reading _ => true
  | _ => false

def give : List α → Option (Except Failure α) × Progress α
  | [] => (none, ended)
  | a :: rows => (some (.ok a), buffered rows)

end Progress

namespace Source

variable {α : Type} (src : Source α)

/-- Reads the row after so many. One that cannot be decoded does not keep those after it from being
read. -/
def next (s : Session) (count : Nat) : Option (Except Failure α) × Progress α :=
  match s.answer src.stmt with
  | .error failure => (some (.error failure), .ended)
  | .ok a =>
    match a.rows[count]? with
    | some (.ok row) => (some (src.decode a.columns row), .reading (count + 1))
    | some (.error refusal) => (some (.error (.refused refusal)), .ended)
    | none => (none, .ended)

def all (s : Session) : Except Failure (List α) := do
  let a ← s.answer src.stmt
  a.rows.mapM (decoded (src.decode a.columns))

def poll (s : Session) : Progress α → Option (Except Failure α) × Progress α
  | .unopened =>
    if src.deferred then src.next s 0
    else
      match src.all s with
      | .ok rows => Progress.give rows
      | .error failure => (some (.error failure), .ended)
  | .reading count => src.next s count
  | .buffered rows => Progress.give rows
  | .ended => (none, .ended)

end Source

structure Reader (α : Type) where
  session : Session
  progress : Progress α := .unopened

namespace Reader

inductive Event
  | poll
  | drop
  | perform (o : Operation)

variable {α : Type}

/-- What comes of an event, with the element that the stream gives. Nothing comes of an operation
that has to wait. -/
def step (src : Source α) (r : Reader α) : Event → Option (Option (Except Failure α) × Reader α)
  | .poll =>
    let (x, progress) := src.poll r.session r.progress
    some (x, { r with progress := progress })
  | .drop => some (none, { r with progress := .ended })
  | .perform o =>
    if r.progress.keepsConnection && o.needsConnection then none
    else some (none, { r with session := (o.perform.run r.session).2 })

def run (src : Source α) (r : Reader α) : List Event → Option (List (Except Failure α) × Reader α)
  | [] => some ([], r)
  | e :: es => do
    let (x, r) ← r.step src e
    let (xs, r) ← r.run src es
    return (x.toList ++ xs, r)

end Reader

end Session

end Tabular
