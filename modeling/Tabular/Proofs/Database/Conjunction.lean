import Tabular.Proofs.Database.Referring
import Tabular.Proofs.Sql.Conjunction

namespace Tabular.Database

open Sql (Term)
open Sql.Term (IsConjunction equality equalities)

/-- None of the values that are fixed fails. -/
def IsCertain (f : Fixed) : Prop := ∀ e ∈ f, ∃ d, e.2 = .ok d

theorem isCertain_nil : IsCertain [] := nofun

theorem IsCertain.of_lookup {f : Fixed} (hf : IsCertain f) {p : Place} {e : Except Refusal Datum}
    (h : f.lookup p = some e) : ∃ d, e = .ok d := by
  obtain ⟨before, after, rfl, _⟩ := List.lookup_eq_some_iff.1 h
  exact hf (p, e) (by simp)

section Evaluation

variable {s : Scope} {t u : Term} {place : Nat} {column : String} {r : Row} {d : Datum}

theorem not_brackets (h : t.IsConjunction) (items : List Term) : t ≠ .brackets items := by
  rintro rfl
  cases h

theorem not_name (h : t.IsConjunction) (column : String) : t ≠ .name column := by
  rintro rfl
  cases h

theorem eval_and (ht : t.IsConjunction) : s.eval r (.binary .and t u) = (do
    let d ← s.eval r t
    let e ← s.eval r u
    return .ofTruth (andTruth d.truth e.truth)) := by
  rw [Scope.eval]
  · rfl
  · exact fun _ _ _ => not_brackets ht _

theorem exists_eval_name (hs : IsCertain s.fixed) (column : String) :
    ∃ d, s.eval r (.name column) = .ok d := by
  rw [Scope.eval]
  cases s.table.locate? column with
  | none => exact ⟨_, rfl⟩
  | some p =>
    dsimp only
    cases h : s.fixedAt? p with
    | none => exact ⟨_, rfl⟩
    | some e =>
      unfold Scope.fixedAt? at h
      split at h
      · cases h
      · exact hs.of_lookup h

theorem exists_eval_equality (hs : IsCertain s.fixed) (place : Nat) (column : String) :
    ∃ d, s.eval r (equality place column) = .ok d := by
  have left : ∃ d, (s.fixedLeft? .eq (.name column) (.placeholder place)).getD
      (s.eval r (.name column)) = .ok d := by
    cases h : s.fixedLeft? .eq (.name column) (.placeholder place) with
    | none => exact exists_eval_name hs column
    | some e =>
      obtain ⟨p, _, fixed⟩ := Option.bind_eq_some_iff.1 h
      exact hs.of_lookup fixed
  have right : s.fixedRight? .eq (.name column) (.placeholder place) = none := by
    unfold Scope.fixedRight?
    split <;> rfl
  obtain ⟨d, hd⟩ := left
  rw [equality, Scope.eval]
  · rw [hd, right]
    exact ⟨_, rfl⟩
  · simp

theorem exists_eval (hs : IsCertain s.fixed) (h : t.IsConjunction) :
    ∃ d, s.eval r t = .ok d := by
  induction h with
  | equality place column => exact exists_eval_equality hs place column
  | and ht _ iht ihu =>
    obtain ⟨d, hd⟩ := iht
    obtain ⟨e, he⟩ := ihu
    rw [eval_and ht, hd, he]
    exact ⟨_, rfl⟩

theorem meets_of_eval (h : s.eval r t = .ok d) : s.meets t r = (d.truth == some true) := by
  rw [Scope.meets, h]

theorem meets_and (hs : IsCertain s.fixed) (ht : t.IsConjunction) (hu : u.IsConjunction) :
    s.meets (.binary .and t u) r = (s.meets t r && s.meets u r) := by
  obtain ⟨d, hd⟩ := exists_eval (r := r) hs ht
  obtain ⟨e, he⟩ := exists_eval (r := r) hs hu
  rw [meets_of_eval hd, meets_of_eval he, Scope.meets, eval_and ht, hd, he]
  show ((Datum.ofTruth (andTruth d.truth e.truth)).truth == some true) = _
  rw [truth_ofTruth]
  rcases d.truth with _ | _ | _ <;> rcases e.truth with _ | _ | _ <;> rfl

theorem meets_eq_all (hs : IsCertain s.fixed) (h : t.IsConjunction) :
    s.meets t r = (conjoined t).all fun u => s.meets u r := by
  induction h with
  | equality => simp [conjoined, equality]
  | and ht hu iht ihu => rw [meets_and hs ht hu, conjoined, List.all_append, iht, ihu]

theorem knownTruth?_eq_none (h : t.IsConjunction) : knownTruth? t = none := by
  induction h with
  | equality => rfl
  | and _ _ iht ihu => rw [knownTruth?, iht, ihu]; rfl

theorem test_eq_meets (hs : IsCertain s.fixed) (h : t.IsConjunction) :
    s.test r t = .ok (s.meets t r) := by
  induction h with
  | equality place column =>
    obtain ⟨d, hd⟩ := exists_eval_equality (r := r) hs place column
    rw [meets_of_eval hd, Scope.test, knownTruth?_eq_none (.equality place column)]
    · show (do return (← s.eval r (equality place column)).truth == some true) = _
      rw [hd]
      rfl
    · simp [equality]
    · simp [equality]
  | @and t u ht hu iht ihu =>
    rw [meets_and hs ht hu, Scope.test, knownTruth?_eq_none (.and ht hu)]
    dsimp only
    rw [iht, ihu]
    cases s.meets t r <;> rfl

end Evaluation

section Sharing

variable {s : Scope} {cs : List Conjunct} {c : Conjunct} {p : Place} {u : Term}

def Conjunct.IsSimple (c : Conjunct) : Prop :=
  (∃ place column, c.term = equality place column) ∧ IsCertain c.fixed

theorem definition?_eq_some (hc : c.IsSimple) (h : s.definition? c = some (p, u)) :
    ∃ place, u = .placeholder place := by
  obtain ⟨⟨place, column, term⟩, _⟩ := hc
  have right : (s.under c).openRight? .eq (.name column) (.placeholder place) = none := by
    unfold Scope.openRight?
    split <;> rfl
  simp only [Scope.definition?, term, equality, right, Option.bind_none, Option.none_or] at h
  obtain ⟨q, _, h⟩ := Option.bind_eq_some_iff.1 h
  split at h <;> cases h
  exact ⟨place, rfl⟩

theorem exists_definition?_of_mem :
    ∀ d ∈ s.definitions cs, ∃ c ∈ cs, s.definition? c = some d.2 := by
  unfold Scope.definitions
  refine List.foldrRecOn (motive := fun found : List (Nat × Place × Term) =>
    ∀ d ∈ found, ∃ c ∈ cs, s.definition? c = some d.2) _ _ (by simp) ?_
  rintro found ih ⟨c, i⟩ hc
  have member : c ∈ cs := (List.mem_zipIdx' hc).2 ▸ List.getElem_mem _
  dsimp only
  split
  · next p u h =>
    split
    · exact ih
    · exact List.forall_mem_append.2 ⟨ih, by simpa using ⟨c, member, h⟩⟩
  · exact ih

theorem isSimple_of_mem_share (h : ∀ c ∈ cs, c.IsSimple) :
    ∀ c ∈ s.share cs (s.definitions cs), c.IsSimple := by
  unfold Scope.share
  rw [List.forall_mem_map]
  rintro ⟨c, i⟩ hc
  have member : c ∈ cs := (List.mem_zipIdx' hc).2 ▸ List.getElem_mem _
  obtain ⟨term, certain⟩ := h c member
  refine ⟨term, List.forall_mem_append.2 ⟨certain, fun e he => ?_⟩⟩
  obtain ⟨⟨j, p, u⟩, hd, he⟩ := List.mem_filterMap.1 he
  obtain ⟨c', hc', defined⟩ := exists_definition?_of_mem _ hd
  -- A condition takes over the value of a placeholder, which is always there.
  obtain ⟨place, rfl⟩ := definition?_eq_some (h c' hc') defined
  dsimp only at he
  split at he
  · cases he
  · cases he
    cases cs[j]? with
    | none => exact ⟨_, rfl⟩
    | some c => exact ⟨_, rfl⟩

theorem isSimple_of_mem_settle (n known : Nat) (h : ∀ c ∈ cs, c.IsSimple) :
    ∀ c ∈ s.settle n known cs, c.IsSimple := by
  induction n generalizing known cs with
  | zero => exact h
  | succ n ih =>
    unfold Scope.settle
    dsimp only
    split
    · exact h
    · exact ih _ (isSimple_of_mem_share h)

theorem isSimple_of_mem_conjuncts {t : Term} (h : t.IsConjunction) :
    ∀ c ∈ s.conjuncts t, c.IsSimple := by
  refine isSimple_of_mem_settle _ _ ?_
  rw [List.forall_mem_map]
  exact fun u hu => ⟨h.conjoined u hu, isCertain_nil⟩

theorem isSafe_conjunction {t : Term} (hs : s.fixed = []) (h : t.IsConjunction) :
    (s.selection (some t)).isSafe := by
  have certain : IsCertain s.fixed := hs ▸ isCertain_nil
  have row (r : Row) : (s.selection (some t)).hasValue r := by
    obtain ⟨d, hd⟩ := exists_eval (r := r) certain h
    simp only [Selection.hasValue, Scope.selection, hd]
    rfl
  simp only [Selection.isSafe, Bool.and_eq_true, List.all_eq_true]
  refine ⟨fun r _ => row r, fun c hc => ?_⟩
  obtain ⟨⟨place, column, term⟩, fixed⟩ := isSimple_of_mem_conjuncts h c hc
  obtain ⟨d, hd⟩ := exists_eval_equality (s := s.under c) (r := ⟨0, []⟩) fixed place column
  rw [term, Scope.constant]
  exact hd ▸ rfl

end Sharing

section Keys

variable {s : Scope} {table : Table} {names : List String} {args : List Datum} {r : Row} {t : Term}

theorem meets_equality (hf : s.fixed = []) {place : Nat} {d : Datum} (hd : s.args[place]? = some d)
    (column : String) :
    s.meets (equality place column) r = (s.table.equals? column d r == some true) := by
  have argument_eq : s.eval r (.placeholder place) = .ok (argument d) := by simp [Scope.eval, hd]
  have free := s.fixedSides_eq_none hf .eq (.name column) (.placeholder place)
  have value : s.eval r (equality place column) = .ok (.ofTruth (s.table.equals? column d r)) := by
    rw [equality, Scope.eval]
    · simp only [free, Option.getD_none, s.eval_name hf, argument_eq, bind, Except.bind,
        Scope.operate, s.affinity_name, s.collation_name]
      rfl
    · simp
  rw [meets_of_eval value, truth_ofTruth]

theorem all_meets_equalities (hf : s.fixed = []) (before : List Datum)
    (ha : s.args = before ++ args) (hl : names.length = args.length) :
    ((equalities before.length names).all fun u => s.meets u r) = s.table.hasAll names args r := by
  induction names generalizing before args with
  | nil => rfl
  | cons n names ih =>
    cases args with
    | nil => cases hl
    | cons d args =>
      have here : s.args[before.length]? = some d := by simp [ha]
      have rest := ih (before ++ [d]) (ha.trans (List.append_cons before d args))
        (by simpa using hl)
      rw [List.length_append, List.length_singleton] at rest
      rw [Sql.Term.equalities_cons, List.all_cons, rest, meets_equality hf here]
      rfl

theorem meets_keyTest (hf : s.fixed = []) (h : Sql.Term.keyTest names = some t)
    (hl : names.length = s.args.length) : s.meets t r = s.table.hasAll names s.args r := by
  rw [meets_eq_all (hf ▸ isCertain_nil) (Sql.Term.isConjunction_keyTest h),
    Sql.Term.conjoined_keyTest h]
  exact all_meets_equalities hf [] rfl hl

end Keys

section Statements

variable {db : Database} {name : String} {table : Table} {s : Scope} {t : Term} {args : List Datum}

theorem missingTable?_eq_none (db : Database) (h : t.IsConjunction) :
    missingTable? db t = none := by
  induction h with
  | equality => rfl
  | and _ _ iht ihu => simp [missingTable?, iht, ihu]

theorem isSupported_conjunction (db : Database) (h : t.IsConjunction) : isSupported db t := by
  induction h with
  | equality => rfl
  | and ht hu iht ihu =>
    rw [isSupported]
    · simp [iht, ihu]
    · exact fun _ _ _ => not_brackets ht _
    · exact fun _ => not_brackets hu _
    · exact fun _ => not_name hu _

theorem prepare_conjunction (h : t.IsConjunction) (low : t.height ≤ greatestHeight)
    (few : args.length ≤ greatestArguments) (ht : db.table? name = some table) :
    db.prepare name (some t) args =
      .ok ({ database := db.shownTo (some t), table := table, args := args }, some t) := by
  have size : checkSize (some t) args = .ok () := by simp [checkSize, low, few]
  have checked : checkCondition db t = .ok () := by
    rw [checkCondition, missingTable?_eq_none db h]
    exact if_pos (isSupported_conjunction db h)
  unfold prepare
  rw [size, Option.map_some, h.pruned, ht]
  simp only [bind, Except.bind, checked]
  rfl

theorem prepare_of_high (high : greatestHeight < t.height) :
    db.prepare name (some t) args = .error .invalid := by
  have size : checkSize (some t) args = .error .invalid := by simp [checkSize, high]
  unfold prepare
  rw [size]
  rfl

theorem partition_of_test {f : Row → Bool} (h : ∀ r, s.test r t = .ok (f r)) (rows : List Row) :
    s.partition (some t) rows = .ok (rows.filter f, rows.filter fun r => !f r) := by
  induction rows with
  | nil => rfl
  | cons r rows ih =>
    rw [Scope.partition, Scope.holds, h, ih]
    cases hf : f r <;> simp [hf, bind, Except.bind, pure, Except.pure]

theorem delete_of_test {u : Term} {f : Row → Bool}
    (prepared : db.prepare name (some t) args = .ok (s, some u))
    (h : ∀ r, s.test r u = .ok (f r)) :
    db.delete name (some t) args = db.deleteWhere s.table f := by
  rw [delete, prepared, deleteWhere]
  simp only [bind, Except.bind, partition_of_test h]

section Whole

variable {names : List String} (h : Sql.Term.keyTest names = some t)
  (hl : names.length = args.length)

include h hl

theorem meets_eq_hasAll (db : Database) (table : Table) :
    Scope.meets { database := db, table := table, args := args } t = table.hasAll names args :=
  funext fun _ => meets_keyTest rfl h hl

variable (low : names.length < greatestHeight) (ht : db.table? name = some table)

include low ht

theorem prepare_keyTest : db.prepare name (some t) args =
    .ok ({ database := db.shownTo (some t), table := table, args := args }, some t) := by
  have height := Sql.Term.height_keyTest h
  refine prepare_conjunction (Sql.Term.isConjunction_keyTest h) (by omega) ?_ ht
  unfold greatestHeight at low
  unfold greatestArguments
  omega

theorem delete_keyTest :
    db.delete name (some t) args = db.deleteWhere table (table.hasAll names args) := by
  refine delete_of_test (prepare_keyTest h hl low ht) fun r => ?_
  rw [test_eq_meets isCertain_nil (Sql.Term.isConjunction_keyTest h), meets_eq_hasAll h hl]

theorem select_keyTest : ∃ rows : List Row,
    rows.Perm (table.rows.filter (table.hasAll names args)) ∧
      db.select .all name (some t) [] {} args =
        .ok ⟨table.columns.map TableColumn.name, rows.map fun r => .ok r.cells⟩ := by
  have safe := isSafe_conjunction
    (s := { database := db.shownTo (some t), table := table, args := args }) rfl
    (Sql.Term.isConjunction_keyTest h)
  obtain ⟨rows, perm, selected⟩ :=
    select_all [] (prepare_keyTest h hl low ht) (p := {}) rfl safe
  refine ⟨rows, perm.trans (.of_eq ?_), selected⟩
  rw [← meets_eq_hasAll h hl (db.shownTo (some t)) table]
  rfl

end Whole

end Statements

end Tabular.Database
