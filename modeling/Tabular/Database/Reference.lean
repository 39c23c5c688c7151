import Tabular.Database.Comparison
import Tabular.Database.Table

namespace Tabular.Database

open Sql (Reference)

namespace Table

def placeAt (t : Table) (i : Nat) : Place := if t.rowId = some i then .id else .cell i

def references (t : Table) : List (Place × Reference) :=
  t.columns.zipIdx.flatMap fun (c, i) => c.references.map fun r => (t.placeAt i, r)

/-- The place that a reference to the table goes to. It has to tell the rows apart. -/
def target? (t : Table) (indices : List TableIndex) (column : Option String) : Option Place :=
  match column with
  | none =>
    if t.rowId.isSome then some .id
    else
      match t.key with
      | [i] => some (.cell i)
      | _ => none
  | some n =>
    (t.place? n).bind fun i =>
      if t.rowId = some i then some .id
      else if t.key = [i] ∨
          (indices.any fun x => x.unique && x.columns.length == 1 && t.places x == [i]) then
        some (.cell i)
      else none

def hasAt (t : Table) (p : Place) (d : Datum) (r : Row) : Bool :=
  r.get p != .null && compareData (t.collationOf p) ((t.affinityOf p).store d) (r.get p) == .eq

end Table

def Row.isOwn (r : Row) (t : Table) (d : Datum) : Place → Bool
  | .id => t.hasAt .id d r
  | .cell i => compareData .binary d (r.cell i) == .eq

def target (db : Database) (r : Reference) : Except Refusal (Table × Place) :=
  match db.table? r.table with
  | none => .error (.noSuchTable ("main." ++ r.table))
  | some t =>
    match t.target? (db.indicesOf t) r.column with
    | some p => .ok (t, p)
    | none => .error .invalid

def referencesTo (db : Database) (name : String) : List (Table × Place × Reference) :=
  db.tables.flatMap fun u =>
    (u.references.filter fun r => Text.sameName r.2.table name).map fun r => (u, r)

/-- Whether the references of the table go anywhere. The newest is looked at first. -/
def checkTargets (db : Database) (t : Table) : Except Refusal Unit :=
  t.references.reverse.forM fun r => discard (db.target r.2)

def checkSources (db : Database) (t : Table) : Except Refusal Unit :=
  if (db.referencesTo t.name).all fun r =>
      (t.target? (db.indicesOf t) r.2.2.column).isSome then .ok ()
  else .error .invalid

def refersToNone (db : Database) (t : Table) (r : Row) : Bool :=
  t.references.any fun (p, ref) =>
    match db.target ref with
    | .ok (u, q) =>
      r.get p != .null && !u.rows.any (u.hasAt q (r.get p)) &&
        !(Text.sameName u.name t.name && r.isOwn t (r.get p) q)
    | .error _ => false

def refersToAny (db : Database) (t : Table) (gone : List Row) : Bool :=
  (db.referencesTo t.name).any fun (u, p, ref) =>
    match t.target? (db.indicesOf t) ref.column with
    | some q =>
      u.rows.any fun r => gone.any fun g =>
        compareBy .eq (Affinity.ofSides (some (t.affinityOf q)) (some (u.affinityOf p)))
          (t.collationOf q) (g.get q) (r.get p) == some true
    | none => false

end Tabular.Database
