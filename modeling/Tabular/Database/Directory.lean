import Tabular.Database.Table

namespace Tabular.Database

/-- Ten times the binary logarithm of a count, coarse enough to compare the costs of plans. -/
abbrev Estimate := Int

namespace Estimate

def eighths : List Int := [0, 2, 3, 5, 6, 7, 8, 9]

def ofNat (n : Nat) : Estimate :=
  if n < 2 then 0
  else
    let k := n.log2
    let m := if k < 3 then n * Nat.pow 2 (3 - k) else n / Nat.pow 2 (k - 3)
    10 * k + eighths[m % 8]?.getD 0

/-- What a count adds to one that is greater by a given difference. -/
def increments : List Int :=
  [10, 10, 9, 9, 8, 8, 7, 7, 7, 6, 6, 6, 5, 5, 5, 4, 4, 4, 4, 3, 3, 3, 3, 3, 3, 2, 2, 2, 2, 2, 2, 2]

def sum (a b : Estimate) : Estimate :=
  let d := (max a b - min a b).toNat
  max a b + if 49 < d then 0 else increments[d]?.getD 1

def search (a : Estimate) : Estimate := if a ≤ 10 then 0 else ofNat a.toNat - 33

end Estimate

/-- A sorted list of all rows. Rows that agree in the places are sorted by their ids. -/
structure Directory where
  places : List (Option Place)
  unique : Bool
  primary : Bool
  deriving DecidableEq

namespace Table

def directories (t : Table) (indices : List TableIndex) : List Directory :=
  indices.map (fun i => ⟨i.columns.map t.locate?, i.unique, false⟩) ++
    if t.key.isEmpty then [] else [⟨t.key.map fun i => some (.cell i), true, true⟩]

/-- Nothing is counted when a statement is planned; every table is taken to have a million rows. -/
def rowEstimate : Estimate := Estimate.ofNat (Nat.pow 2 20)

def widthEstimate (t : Table) : Estimate :=
  let width := (t.columns.map TableColumn.width).foldr (· + ·) 0
  Estimate.ofNat (4 * (width + if t.rowId.isSome then 0 else 1))

def widthOf (t : Table) : Option Place → Nat
  | some (.cell i) => (t.columns[i]?.map TableColumn.width).getD 1
  | _ => 1

def isNotNull (t : Table) : Option Place → Bool
  | some (.cell i) => t.columns[i]?.any TableColumn.notNull
  | some .id => true
  | none => false

end Table

namespace Directory

def sortPlaces (d : Directory) : List (Option Place) := d.places ++ [some .id]

def covers (d : Directory) (p : Place) : Bool := p == .id || d.places.contains (some p)

def widthEstimate (d : Directory) (t : Table) : Estimate :=
  Estimate.ofNat (4 * ((d.places.map t.widthOf).foldr (· + ·) 0 + 1))

def sharers (d : Directory) (count : Nat) : Estimate :=
  if count = 0 then Table.rowEstimate
  else if d.places.length < count || d.unique && count == d.places.length then 0
  else ([10, 9, 8, 7, 6].map Estimate.ofNat)[count - 1]?.getD (Estimate.ofNat 5)

def isKey (d : Directory) (t : Table) : Bool := d.unique && d.places.all t.isNotNull

/-- What stepping through the list costs for each row, in proportion to the whole row. -/
def stepEstimate (d : Directory) (t : Table) : Estimate :=
  1 + 15 * d.widthEstimate t / t.widthEstimate

end Directory

end Tabular.Database
