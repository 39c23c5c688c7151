import Tabular.Proofs.Database.Conjunction

namespace Tabular

open Sql (Term)

namespace Sql.Term

def placeholders (place n : Nat) : List Term := (List.range' place n).map .placeholder

def among (column : String) (place n : Nat) : Term :=
  .binary .isIn (.name column) (.brackets (placeholders place n))

variable {column : String} {place n : Nat}

theorem placeholders_succ (place n : Nat) :
    placeholders place (n + 1) = .placeholder place :: placeholders (place + 1) n := rfl

theorem allWellFormed_placeholders (place n : Nat) : allWellFormed (placeholders place n) := by
  induction n generalizing place with
  | zero => simp [placeholders, allWellFormed]
  | succ n ih => simp [placeholders_succ, allWellFormed, wellFormed, ih]

theorem prunedAll_placeholders (place n : Nat) :
    prunedAll (placeholders place n) = placeholders place n := by
  induction n generalizing place with
  | zero => simp [placeholders, prunedAll]
  | succ n ih => simp [placeholders_succ, prunedAll, pruned, ih]

theorem heightAll_placeholders_le (place n : Nat) : heightAll (placeholders place n) ≤ 1 := by
  induction n generalizing place with
  | zero => simp [placeholders, heightAll]
  | succ n ih => simp [placeholders_succ, heightAll, height, ih]

theorem wellFormed_among : (among column place n).wellFormed := by
  have items := allWellFormed_placeholders place n
  cases n with
  | zero => simp [among, wellFormed, isCollection, isEmptyList, placeholders]
  | succ n =>
    rw [placeholders_succ] at items
    simp [among, wellFormed, isCollection, placeholders_succ, items]

theorem pruned_among : (among column place (n + 1)).pruned = among column place (n + 1) := by
  have items := prunedAll_placeholders place (n + 1)
  rw [placeholders_succ] at items
  simp [among, pruned, prunedCollection, joined, isEmptyList, placeholders_succ, items]

theorem height_among_le : (among column place n).height ≤ 2 := by
  have items := heightAll_placeholders_le place n
  simp [among, height]
  omega

end Sql.Term

namespace Database

section Members

variable {a : Affinity} {c : Collation} {d e : Datum} {es : List Datum}

theorem compareBy_eq_some_true : compareBy .eq a c d e = some true ↔
    d ≠ .null ∧ e ≠ .null ∧ equalData a c d e := by
  unfold compareBy orderOf
  by_cases hd : d = .null
  · simp [hd]
  by_cases he : e = .null
  · simp [he]
  · simp [hd, he, accepts, equalData]

theorem memberOf_eq_some_true :
    memberOf a c d es = some true ↔ ∃ e ∈ es, compareBy .eq a c d e = some true := by
  simp only [compareBy_eq_some_true]
  unfold memberOf
  by_cases none : es = []
  · simp [none]
  by_cases hd : d = .null
  · simp [none, hd]
  · simp [none, hd]

end Members

section Evaluation

variable {s : Scope} {r : Row} {args : List Datum}

theorem evalAll_placeholders (before : List Datum) (ha : s.args = before ++ args) :
    s.evalAll r (Term.placeholders before.length args.length) = .ok (args.map argument) := by
  induction args generalizing before with
  | nil => simp [Term.placeholders, Scope.evalAll]
  | cons d args ih =>
    have here : s.eval r (.placeholder before.length) = .ok (argument d) := by
      simp [Scope.eval, ha]
    have rest := ih (before ++ [d]) (ha.trans (List.append_cons before d args))
    rw [List.length_append, List.length_singleton] at rest
    rw [List.length_cons, Term.placeholders_succ, Scope.evalAll, here, rest]
    rfl

def Table.hasAny (t : Table) (column : String) (args : List Datum) (r : Row) : Bool :=
  args.any fun d => t.equals? column d r == some true

theorem eval_among (hf : s.fixed = []) (column : String) (r : Row) :
    s.eval r (.among column 0 s.args.length) =
      .ok (.ofTruth (memberOf (s.table.affinityIn column) (s.table.collationIn column)
        (s.table.valueOf column r) (s.args.map argument))) := by
  have items := evalAll_placeholders (r := r) [] (List.nil_append s.args).symm
  have free := s.fixedSides_eq_none hf .isIn
  rw [Term.among, Scope.eval]
  · simp only [free, Option.getD_none, s.eval_name hf, true_or, if_true, bind, Except.bind]
    rw [← List.length_nil, items]
    rfl
  · simp

theorem memberOf_eq_hasAny (t : Table) (column : String) (args : List Datum) (r : Row) :
    (memberOf (t.affinityIn column) (t.collationIn column) (t.valueOf column r)
      (args.map argument) == some true) = t.hasAny column args r := by
  rw [Bool.eq_iff_iff, beq_iff_eq, memberOf_eq_some_true]
  simp [Table.hasAny, Table.equals?]

theorem test_among (hf : s.fixed = []) (column : String) (r : Row) :
    s.test r (.among column 0 s.args.length) = .ok (s.table.hasAny column s.args r) := by
  have unknown : knownTruth? (.among column 0 s.args.length) = none := rfl
  have value := eval_among hf column r
  rw [← memberOf_eq_hasAny, Scope.test, unknown]
  · show (do return (← s.eval r (.among column 0 s.args.length)).truth == some true) = _
    rw [value]
    simp only [bind, Except.bind, truth_ofTruth]
    rfl
  · simp [Term.among]
  · simp [Term.among]

theorem missingTableIn?_placeholders (db : Database) (place n : Nat) :
    missingTableIn? db (Term.placeholders place n) = none := by
  induction n generalizing place with
  | zero => simp [Term.placeholders, missingTableIn?]
  | succ n ih => simp [Term.placeholders_succ, missingTableIn?, missingTable?, ih]

theorem allSupported_placeholders (db : Database) (place n : Nat) :
    allSupported db (Term.placeholders place n) := by
  induction n generalizing place with
  | zero => simp [Term.placeholders, allSupported]
  | succ n ih => simp [Term.placeholders_succ, allSupported, isSupported, ih]

theorem tests_among (column : String) (args : List Datum) :
    Tests (.among column 0 args.length) args fun t r =>
      memberOf (t.affinityIn column) (t.collationIn column) (t.valueOf column r)
        (args.map argument) where
  eval r hf ha := ha ▸ eval_among hf column r
  alone := rfl
  checked db := by
    have missing := missingTableIn?_placeholders db 0 args.length
    have supported := allSupported_placeholders db 0 args.length
    simp [checkCondition, Term.among, missingTable?, collectionName?, missing, isSupported,
      supported]

end Evaluation

def Table.without (t : Table) (column : String) (args : List Datum) : Table :=
  { t with rows := t.rows.filter fun r => !t.hasAny column args r }

def Table.countAny (t : Table) (column : String) (args : List Datum) : Nat :=
  (t.rows.filter (t.hasAny column args)).length

section Deleting

variable {db : Database} {name column : String} {table : Table} {args : List Datum} {d : Datum}

theorem delete_among (column : String) (some_arg : args ≠ [])
    (few : args.length ≤ greatestArguments) (ht : db.table? name = some table) :
    db.delete name (some (.among column 0 args.length)) args =
      db.deleteWhere table (table.hasAny column args) := by
  obtain ⟨n, hn⟩ := Nat.exists_eq_succ_of_ne_zero (List.length_eq_zero_iff.not.2 some_arg)
  have pruned : (Term.among column 0 args.length).pruned = .among column 0 args.length := by
    rw [hn]
    exact Term.pruned_among
  have low : (Term.among column 0 args.length).height ≤ greatestHeight :=
    Term.height_among_le.trans (by decide)
  have prepared := (tests_among column args).prepare pruned low few db name
  rw [ht] at prepared
  exact delete_of_test prepared fun r => test_among rfl column r

theorem delete_equality (ht : db.table? name = some table) :
    db.delete name (some (.equality 0 column)) [d] =
      db.deleteWhere table (table.hasAny column [d]) := by
  have one : table.hasAll [column] [d] = table.hasAny column [d] := by
    funext r
    simp [Table.hasAll, Table.hasAny]
  have test : Term.keyTest [column] = some (.equality 0 column) := rfl
  have count : [column].length = [d].length := rfl
  rw [← one]
  exact delete_keyTest test count (Nat.one_lt_succ_succ 998) ht

theorem Table.change_without (t : Table) (column : String) (args : List Datum) :
    t.Change (t.without column args) :=
  .narrow List.filter_sublist

theorem Table.hasAny_cons (t : Table) (column : String) (d : Datum) (args : List Datum) (r : Row) :
    t.hasAny column (d :: args) r = (t.hasAny column [d] r || t.hasAny column args r) := by
  simp [hasAny]

theorem Table.without_without (d : Datum) :
    (table.without column [d]).without column args = table.without column (d :: args) := by
  have rows_eq : (table.rows.filter fun r => !table.hasAny column [d] r).filter
      (fun r => !table.hasAny column args r) =
        table.rows.filter fun r => !table.hasAny column (d :: args) r := by
    rw [List.filter_filter]
    refine List.filter_congr fun r _ => ?_
    rw [table.hasAny_cons column d args, Bool.not_or, Bool.and_comm]
  exact congrArg (fun rows => { table with rows := rows }) rows_eq

theorem Table.countAny_cons (d : Datum) : table.countAny column (d :: args) =
    table.countAny column [d] + (table.without column [d]).countAny column args := by
  have split (rows : List Row) : (rows.filter (table.hasAny column (d :: args))).length =
      (rows.filter (table.hasAny column [d])).length +
        ((rows.filter fun r => !table.hasAny column [d] r).filter
          (table.hasAny column args)).length := by
    induction rows with
    | nil => rfl
    | cons r rows ih =>
      have here := table.hasAny_cons column d args r
      cases first : table.hasAny column [d] r <;> cases later : table.hasAny column args r <;>
        simp [here, first, later, ih] <;> omega
  exact split table.rows

theorem Table.countAny_nil (t : Table) (column : String) : t.countAny column [] = 0 := by
  rw [countAny, List.length_eq_zero_iff, List.filter_eq_nil_iff]
  exact fun r _ => Bool.false_ne_true

theorem Table.without_nil (t : Table) (column : String) : t.without column [] = t := by
  simp [without, hasAny]

theorem table?_without (ht : db.table? name = some table) (column : String) (args : List Datum) :
    (db.replace (table.without column args)).table? name = some (table.without column args) := by
  rw [table?_replace, ht]
  simp [Text.sameName, Table.without]

theorem replace_replace (db : Database) {t u : Table} (h : t.name = u.name) :
    (db.replace t).replace u = db.replace u := by
  have once (w : Table) :
      (if Text.sameName (if Text.sameName w.name t.name then t else w).name u.name then u
        else if Text.sameName w.name t.name then t else w) =
      if Text.sameName w.name u.name then u else w := by
    have itself : Text.sameName u.name u.name := by simp [Text.sameName]
    rw [h]
    by_cases same : Text.sameName w.name u.name
    · simp [same, h, itself]
    · simp [same]
  simp only [replace, List.map_map, Function.comp_def, once]

end Deleting

end Database

end Tabular
