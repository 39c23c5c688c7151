import Tabular.Proofs.Database.Single

namespace Tabular

open Sql (Operator Term)

def Sql.Term.probe (op : Operator) (column : String) : Term :=
  .binary op (.name column)
    (if op = .isIn ∨ op = .notIn then .brackets [.placeholder 0] else .placeholder 0)

def Sql.Operator.isProbe : Operator → Bool
  | .eq | .ne | .is | .isNot | .isIn | .notIn => true
  | _ => false

namespace Database

section Column

variable (t : Table) (column : String) (d : Datum) (r : Row)

def Table.valueOf : Datum :=
  match t.locate? column with
  | some p => r.get p
  | none => .text column

def Table.affinityIn : Affinity := ((t.locate? column).map t.affinityOf).getD .untyped

def Table.collationIn : Collation := ((t.locate? column).map t.collationOf).getD .binary

def Table.equals? : Option Bool :=
  compareBy .eq (t.affinityIn column) (t.collationIn column) (t.valueOf column r) (argument d)

def Table.same : Bool :=
  equalData (t.affinityIn column) (t.collationIn column) (t.valueOf column r) (argument d)

def Table.probe (op : Operator) : Option Bool :=
  match op with
  | .is => some (t.same column d r)
  | .isNot => some (!t.same column d r)
  | .ne | .notIn => (t.equals? column d r).map (!·)
  | _ => t.equals? column d r

end Column

theorem memberOf_singleton (a : Affinity) (c : Collation) (d e : Datum) :
    memberOf a c d [e] = compareBy .eq a c d e := by
  unfold memberOf compareBy orderOf
  by_cases hd : d = .null
  · simp [hd]
  by_cases he : e = .null
  · simp [hd, he]
  · have present : ¬ Datum.null = e := Ne.symm he
    by_cases ho : compareData c (a.compare d) (a.compare e) = .eq <;>
      simp [hd, he, present, equalData, ho, accepts]

theorem compareBy_ne (a : Affinity) (c : Collation) (d e : Datum) :
    compareBy .ne a c d e = (compareBy .eq a c d e).map (!·) := by
  unfold compareBy
  cases orderOf a c d e <;> rfl

theorem signed?_ne_null {s rest : List Char} : signed? s ≠ some (.null, rest) := by
  intro h
  obtain ⟨⟨n, _⟩, _, h⟩ := Option.map_eq_some_iff.1 h
  have number := congrArg Prod.fst h
  dsimp only at number
  split at number <;> cases number

theorem number?_ne_null (s : String) : number? s ≠ some .null := by
  intro h
  obtain ⟨⟨e, rest⟩, hs, he⟩ := Option.bind_eq_some_iff.1 h
  split at he <;> cases he
  exact signed?_ne_null hs

theorem Affinity.toNumber_eq_null {d : Datum} : toNumber d = .null ↔ d = .null := by
  cases d with
  | text s =>
    cases h : number? s with
    | none => simp [toNumber, h]
    | some e =>
      have present : e ≠ .null := fun he => number?_ne_null s (he ▸ h)
      simpa [toNumber, h] using present
  | _ => simp [toNumber]

theorem Affinity.compare_eq_null {a : Affinity} {d : Datum} : a.compare d = .null ↔ d = .null := by
  cases a with
  | text => cases d <;> simp [compare, toText]
  | untyped => rfl
  | _ => exact toNumber_eq_null

theorem equalData_null (a : Affinity) (c : Collation) (d : Datum) :
    equalData a c d .null = (d == .null) := by
  have ordered (e : Datum) : (compareData c e .null == .eq) = (e == .null) := by
    cases e <;> rfl
  have null : a.compare .null = .null := Affinity.compare_eq_null.2 rfl
  rw [equalData, null, ordered, Bool.eq_iff_iff, beq_iff_eq, beq_iff_eq, Affinity.compare_eq_null]

theorem Table.same_null (t : Table) (column : String) (r : Row) :
    t.same column .null r = (t.valueOf column r == .null) :=
  equalData_null _ _ _

theorem Table.equals?_null (t : Table) (column : String) (r : Row) :
    t.equals? column .null r = none := by
  simp [equals?, compareBy, orderOf, argument]

variable {s : Scope} {d : Datum} {op : Operator}

theorem Scope.eval_name (hf : s.fixed = []) (column : String) (r : Row) :
    s.eval r (.name column) = .ok (s.table.valueOf column r) := by
  rw [eval, Table.valueOf]
  cases s.table.locate? column with
  | none => rfl
  | some p => simp [fixedAt?, hf]

theorem Scope.affinity_name (column : String) (place : Nat) :
    s.affinity (.name column) (.placeholder place) = s.table.affinityIn column := by
  have affinity_eq : s.affinity? (.name column) = (s.table.locate? column).map s.table.affinityOf :=
    rfl
  unfold Scope.affinity Table.affinityIn
  rw [affinity_eq]
  cases s.table.locate? column <;> rfl

theorem Scope.collation_name (column : String) (place : Nat) :
    s.collation (.name column) (.placeholder place) = s.table.collationIn column := by
  unfold Scope.collation Table.collationIn
  cases h : s.table.locate? column <;> simp [Scope.collation?, placeOf?, h]

theorem Scope.eval_probe (hf : s.fixed = []) (ha : s.args = [d]) (hop : op.isProbe)
    (column : String) (r : Row) :
    s.eval r (.probe op column) = .ok (.ofTruth (s.table.probe column d r op)) := by
  have place : s.eval r (.placeholder 0) = .ok (argument d) := by simp [eval, ha]
  have named := s.eval_name hf column r
  have free := s.fixedSides_eq_none hf op
  by_cases hl : op = .isIn ∨ op = .notIn
  · rw [Term.probe, if_pos hl, eval]
    · simp only [free, Option.getD_none, named, place, hl, if_true, bind, Except.bind, evalAll]
      show Except.ok (s.among op (.name column) _ [argument d]) = _
      rw [Scope.among, memberOf_singleton]
      rcases hl with rfl | rfl <;> rfl
    · simp
  · rw [Term.probe, if_neg hl, s.eval_binary hf hl (by simp) named place]
    unfold Scope.operate
    simp only [s.affinity_name column 0, s.collation_name column 0]
    cases op with
    | eq | is | isNot => rfl
    | ne =>
      simp only [compareBy_ne]
      rfl
    | isIn | notIn => simp at hl
    | _ => cases hop

theorem tests_probe (hop : op.isProbe) (column : String) (d : Datum) :
    Tests (.probe op column) [d] fun t r => t.probe column d r op where
  eval r hf ha := Scope.eval_probe hf ha hop column r
  alone := by cases op <;> first | rfl | cases hop
  checked db := by
    cases op <;> simp [checkCondition, Term.probe, missingTable?, missingTableIn?, isSupported,
      allSupported, collectionName?]

end Database

end Tabular
