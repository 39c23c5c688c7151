import Tabular.Schema.Mapping

namespace Tabular

/-- A record type that rows belong to. Types with equal descriptions are still different types. -/
structure RowType where
  id : Nat
  type : RecordType
  deriving DecidableEq

structure MappingCache where
  entries : List (Nat × TableMapping) := []

namespace MappingCache

def size (c : MappingCache) : Nat := c.entries.length

def get? (c : MappingCache) (t : RowType) : Option TableMapping := c.entries.lookup t.id

/-- Where a stored mapping is kept; it tells one shared mapping from an equal one. -/
def place? (c : MappingCache) (t : RowType) : Option Nat :=
  c.entries.findIdx? fun e => e.1 == t.id

def store (c : MappingCache) (t : RowType) (m : TableMapping) : TableMapping × MappingCache :=
  match c.get? t with
  | some stored => (stored, c)
  | none => (m, ⟨c.entries ++ [(t.id, m)]⟩)

/-- The stored mapping, or else the one that the settings of this call resolve to. -/
def getOrResolve (c : MappingCache) (t : RowType) (conventions : Conventions)
    (rules : StorageRules) (p : Provider) : Except Fault (TableMapping × MappingCache) :=
  match c.get? t with
  | some stored => .ok (stored, c)
  | none => do return c.store t (← TableMapping.resolve t.type conventions rules p)

end MappingCache

end Tabular
