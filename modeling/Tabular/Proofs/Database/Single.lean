import Tabular.Proofs.Database.Selection

namespace Tabular

open Sql (Operator Term)

namespace Database

variable {s : Scope} {args : List Datum} {u v : Term} {test : Table → Row → Option Bool}

theorem truth_ofTruth (b : Option Bool) : (Datum.ofTruth b).truth = b := by
  cases b with
  | none => rfl
  | some b => cases b <;> rfl

theorem Scope.fixedSides_eq_none (hf : s.fixed = []) (op : Operator) (left right : Term) :
    s.fixedLeft? op left right = none ∧ s.fixedRight? op left right = none := by
  have unfixed (t : Term) : s.fixedSide? t = none := by
    unfold fixedSide?
    cases s.placeOf? t <;> simp [hf]
  simp [fixedLeft?, fixedRight?, unfixed]

theorem Scope.eval_binary (hf : s.fixed = []) {op : Operator} (hop : ¬ (op = .isIn ∨ op = .notIn))
    {left right : Term} (single : ∀ l m ls, left ≠ .brackets (l :: m :: ls)) {r : Row} {d e : Datum}
    (hd : s.eval r left = .ok d) (he : s.eval r right = .ok e) :
    s.eval r (.binary op left right) = s.operate op left right d e := by
  have free := s.fixedSides_eq_none hf op left right
  rw [eval]
  · simp only [free, Option.getD_none, hd, he, hop, if_false, bind, Except.bind]
  · exact fun l m ls h => single l m ls h

theorem Scope.conjuncts_alone (s : Scope) {t : Term} (h : conjoined t = [t]) :
    s.conjuncts t = [{ term := t }] := by
  have found : s.definitions [{ term := t }] = [] ∨
      ∃ p u, s.definitions [{ term := t }] = [(0, p, u)] := by
    simp only [Scope.definitions, List.zipIdx_cons, List.zipIdx_nil, List.foldr_cons,
      List.foldr_nil]
    cases s.definition? { term := t } with
    | none => exact .inl rfl
    | some d => exact .inr ⟨d.1, d.2, rfl⟩
  rw [conjuncts, h, List.map_singleton, List.length_singleton, settle]
  rcases found with hd | ⟨p, u, hd⟩
  · rw [hd]
    rfl
  · rw [hd]
    rfl

/-- A condition that is whole by itself, with what it comes to on a row. -/
structure Tests (u : Term) (args : List Datum) (test : Table → Row → Option Bool) : Prop where
  eval {s : Scope} (r : Row) : s.fixed = [] → s.args = args →
    s.eval r u = .ok (.ofTruth (test s.table r))
  alone : conjoined u = [u]
  checked (db : Database) : checkCondition db u = .ok ()

namespace Tests

theorem isSafe (h : Tests u args test) (hf : s.fixed = []) (ha : s.args = args) :
    (s.selection (some u)).isSafe := by
  have alone : (s.selection (some u)).conjuncts = [{ term := u }] := s.conjuncts_alone h.alone
  have row (r : Row) : (s.selection (some u)).hasValue r := by
    simp only [Selection.hasValue, Scope.selection, h.eval r hf ha]
    rfl
  have fixed : ((s.under { term := u }).constant u).toBool := by
    rw [Scope.constant, h.eval (s := s.under _) _ rfl ha]
    rfl
  simp only [Selection.isSafe, Bool.and_eq_true, List.all_eq_true, alone, List.mem_singleton,
    forall_eq]
  exact ⟨fun r _ => row r, fixed⟩

theorem matching (h : Tests u args test) (hf : s.fixed = []) (ha : s.args = args) :
    (s.selection (some u)).matching =
      s.table.rows.filter fun r => test s.table r == some true := by
  refine List.filter_congr fun r _ => ?_
  simp only [Selection.holds, Scope.selection, Scope.meets, h.eval r hf ha, truth_ofTruth]

theorem prepare (h : Tests u args test) (hv : v.pruned = u) (low : v.height ≤ greatestHeight)
    (few : args.length ≤ greatestArguments) (db : Database) (table : String) :
    db.prepare table (some v) args =
      match db.table? table with
      | some t => .ok ({ database := db.shownTo (some u), table := t, args := args }, some u)
      | none => .error (.noSuchTable table) := by
  have size : checkSize (some v) args = .ok () := by
    simp [checkSize, low, few]
  unfold Database.prepare
  rw [size, Option.map_some, hv]
  cases db.table? table with
  | none => rfl
  | some t =>
    simp only [bind, Except.bind, h.checked]
    rfl

end Tests

end Database

end Tabular
