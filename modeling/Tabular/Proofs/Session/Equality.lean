import Tabular.Proofs.Query.Equality
import Tabular.Proofs.Session.Counting

namespace Tabular

open Query (meeting)
open Sql (Command holdsOperator)

namespace Session

open Database (Table Row)

/-- The table that tests of a column look into. -/
def reach (s : Session) (table column : String) : Except Failure Table :=
  if s.closed then .error .closed
  else if Readable table column then
    match s.database.table? table with
    | some t => .ok t
    | none => .error (.refused (.noSuchTable table))
  else .error (.refused .invalid)

/-- A predicate on a column lists the rows that pass the test, in some order. It fails only if the
table is out of reach, or if one of these rows cannot be read. -/
def Selects (s : Session) (t : TableMapping) (c : Column) (e : Expr) (test : Table → Row → Bool) :
    Prop :=
  match s.reach t.tableName c.name with
  | .ok table => ∃ rows : List Row, rows.Perm (table.rows.filter (test table)) ∧
      s.listed (meeting t e) =
        rows.mapM fun r => t.decodeRow (table.columns.map Database.TableColumn.name) r.cells
  | .error failure => s.listed (meeting t e) = .error failure

def Agree (s : Session) (q q' : Query) : Prop :=
  ∀ rows, (toList q).run s = (.ok rows, s) →
    ∃ rows', (toList q').run s = (.ok rows', s) ∧ rows'.Perm rows

variable {s : Session} {t : TableMapping} {c : Column} {e e' : Expr} {d : Datum} {f : Fragment}
  {test test' : Table → Row → Bool}

theorem Selects.congr (h : s.Selects t c e test) (same : ∀ table r, test table r = test' table r) :
    s.Selects t c e test' := by
  have tests_eq : test = test' := funext fun table => funext (same table)
  rwa [← tests_eq]

theorem Selects.agree (h : s.Selects t c e test) (h' : s.Selects t c e' test) :
    s.Agree (meeting t e) (meeting t e') := by
  intro rows hr
  have hr := (run_toList_eq_ok.1 hr).1
  unfold Selects at h h'
  cases hp : s.reach t.tableName c.name with
  | error failure =>
    rw [hp] at h
    cases h.symm.trans hr
  | ok table =>
    rw [hp] at h h'
    obtain ⟨found, perm, listed⟩ := h
    obtain ⟨found', perm', listed'⟩ := h'
    obtain ⟨rows', hr', same⟩ :=
      exists_mapM_of_perm (perm'.trans perm.symm) (listed.symm.trans hr)
    exact ⟨rows', run_toList_eq_ok.2 ⟨listed'.trans hr', rfl⟩, same⟩

theorem selects_test {tail : String} {term : String → Sql.Term} {u : Sql.Term}
    {truth : Table → Row → Option Bool} (hf : t.fragment e = .ok f)
    (hs : f.sql = "(" ++ c.quotedName ++ tail) (follows : Follows tail term)
    (hu : (term c.name).pruned = u) (low : (term c.name).height ≤ Database.greatestHeight)
    (few : f.args.length ≤ Database.greatestArguments) (tests : Database.Tests u f.args truth) :
    s.Selects t c e fun table r => truth table r == some true := by
  obtain ⟨text, statement, parsed⟩ : ∃ text, (meeting t e).statement = .ok ⟨text, f.args⟩ ∧
      Command.ofText? text = if Readable t.tableName c.name then
        some (.select .all t.tableName (some (term c.name)) [] {}) else none := by
    have statement := Query.statement_meeting hf
    rw [hs] at statement
    exact ⟨_, statement, Query.ofText?_meeting follows t.tableName c.name⟩
  unfold Selects reach
  cases hc : s.closed with
  | true =>
    simp only [if_true, listed, statement, answer, hc]
    rfl
  | false =>
    simp only [Bool.false_eq_true, if_false]
    rw [listed_of_fetch statement hc]
    by_cases hr : Readable t.tableName c.name
    · rw [if_pos hr] at parsed ⊢
      have prepared := tests.prepare hu low few s.database t.tableName
      have fetched : s.database.fetch ⟨text, f.args⟩ = _ := Database.fetch_of_select parsed
      rw [fetched]
      cases ht : s.database.table? t.tableName with
      | none =>
        rw [ht] at prepared
        simp only [Database.select, prepared]
        rfl
      | some table =>
        rw [ht] at prepared
        obtain ⟨rows, perm, answered⟩ :=
          Database.select_all [] prepared (p := {}) rfl (tests.isSafe rfl rfl)
        rw [tests.matching rfl rfl] at perm
        refine ⟨rows, perm, ?_⟩
        rw [answered]
        exact List.mapM_map
    · rw [if_neg hr] at parsed ⊢
      rw [Database.fetch, parsed]
      rfl

theorem selects_probe {way : Asking} {negated null : Bool} (hf : t.fragment e = .ok f)
    (ha : f.args = [d]) (hs : f.sql = "(" ++ c.quotedName ++ way.tail negated null) :
    s.Selects t c e fun table r =>
      table.probe c.name d r (way.operator negated null) == some true := by
  have probing : (way.operator negated null).isProbe := by
    unfold Asking.operator
    (repeat' split) <;> rfl
  refine selects_test hf hs (way.follows_tail negated null) (way.pruned_term negated null c.name)
    (way.height_term negated null c.name) (by simp [ha, Database.greatestArguments]) ?_
  rw [ha]
  exact Database.tests_probe probing c.name d

theorem selects_equal {property : String} {v : Value} (hc : t.columnOf property = .ok c)
    (hv : t.bind v = .ok d) (way : Asking) : s.Selects t c (way.equal property v) fun table r =>
      table.probe c.name d r (way.operator false v.isNull) == some true := by
  obtain ⟨f, hf, ha, hs⟩ := TableMapping.fragment_equal hc hv way
  exact selects_probe hf ha hs

theorem selects_differ {property : String} {v : Value} (hc : t.columnOf property = .ok c)
    (hv : t.bind v = .ok d) {way : Asking} (hn : way = .compared ∨ holdsOperator c.name = false) :
    s.Selects t c (way.differ property v) fun table r =>
      table.probe c.name d r (way.operator true v.isNull) == some true := by
  obtain ⟨f, hf, ha, hs⟩ := TableMapping.fragment_differ hc hv hn
  exact selects_probe hf ha hs

theorem Selects.toList_eq {table : Table} {rows : List NamedRow} (h : s.Selects t c e test)
    (hp : s.reach t.tableName c.name = .ok table) (found : Option Row)
    (hf : table.rows.filter (test table) = found.toList)
    (hd : (found.toList.mapM fun r =>
      t.decodeRow (table.columns.map Database.TableColumn.name) r.cells) = .ok rows) :
    (toList (meeting t e)).run s = (.ok rows, s) := by
  unfold Selects at h
  rw [hp] at h
  obtain ⟨rows', perm, listed⟩ := h
  rw [hf] at perm
  have rows_eq : rows' = found.toList := by
    cases found with
    | none => exact perm.eq_nil
    | some r => exact List.perm_singleton.1 perm
  rw [run_toList, listed, rows_eq, hd]

theorem selects_of_ne_null {property : String} {v : Value} (hc : t.columnOf property = .ok c)
    (hv : t.bind v = .ok d) (hn : v ≠ .null) :
    (∀ way : Asking, s.Selects t c (way.equal property v) fun table r =>
      table.equals? c.name d r == some true) ∧
    ∀ way : Asking, way = .compared ∨ holdsOperator c.name = false →
      s.Selects t c (way.differ property v) fun table r =>
        table.equals? c.name d r == some false := by
  have present : v.isNull = false := by cases v <;> first | rfl | exact absurd rfl hn
  constructor
  · intro way
    refine (selects_equal hc hv way).congr fun table r => ?_
    rw [present]
    cases way <;> rfl
  · intro way kept
    refine (selects_differ hc hv kept).congr fun table r => ?_
    have negated : table.probe c.name d r (way.operator true v.isNull) =
        (table.equals? c.name d r).map (!·) := by
      rw [present]
      cases way <;> rfl
    rw [negated]
    cases table.equals? c.name d r with
    | none => rfl
    | some b => cases b <;> rfl

theorem probe_call_null {way : Asking} (hw : way ≠ .compared) (negated null : Bool)
    (table : Table) (column : String) (r : Row) :
    table.probe column .null r (way.operator negated null) = none := by
  cases way with
  | compared => exact absurd rfl hw
  | called | listed =>
    cases negated with
    | false => exact table.equals?_null column r
    | true => exact congrArg (Option.map (!·)) (table.equals?_null column r)

theorem selects_of_null {property : String} (hc : t.columnOf property = .ok c) :
    s.Selects t c (Asking.compared.equal property .null) (fun table r =>
      table.valueOf c.name r == .null) ∧
    s.Selects t c (Asking.compared.differ property .null) (fun table r =>
      table.valueOf c.name r != .null) ∧
    ∀ way : Asking, way ≠ .compared →
      s.Selects t c (way.equal property .null) (fun _ _ => false) ∧
      (holdsOperator c.name = false →
        s.Selects t c (way.differ property .null) fun _ _ => false) := by
  have hv : t.bind .null = .ok .null := rfl
  refine ⟨(selects_equal hc hv _).congr fun table r => ?_,
    (selects_differ hc hv (.inl rfl)).congr fun table r => ?_, fun way called =>
    ⟨(selects_equal hc hv way).congr fun table r => ?_, fun kept =>
      (selects_differ hc hv (.inr kept)).congr fun table r => ?_⟩⟩
  · rw [← table.same_null]
    show (some (table.same c.name .null r) == some true) = _
    cases table.same c.name .null r <;> rfl
  · rw [bne, ← table.same_null]
    show (some (!table.same c.name .null r) == some true) = _
    cases table.same c.name .null r <;> rfl
  · rw [probe_call_null called]
    rfl
  · rw [probe_call_null called]
    rfl

end Session

open Session (toList)

theorem equality_tests (s : Session) (t : TableMapping) {property : String} {c : Column}
    {v : Value} {d : Datum} (hc : t.columnOf property = .ok c) (hv : t.bind v = .ok d) :
    (v ≠ .null →
      (∀ way : Asking, s.Selects t c (way.equal property v) fun table r =>
        table.equals? c.name d r == some true) ∧
      (∀ way way' : Asking,
        s.Agree (meeting t (way.equal property v)) (meeting t (way'.equal property v))) ∧
      (∀ way : Asking, way = .compared ∨ holdsOperator c.name = false →
        s.Selects t c (way.differ property v) fun table r =>
          table.equals? c.name d r == some false) ∧
      (holdsOperator c.name = false → ∀ way way' : Asking,
        s.Agree (meeting t (way.differ property v)) (meeting t (way'.differ property v)))) ∧
    (v = .null →
      s.Selects t c (Asking.compared.equal property v) (fun table r =>
        table.valueOf c.name r == .null) ∧
      s.Selects t c (Asking.compared.differ property v) (fun table r =>
        table.valueOf c.name r != .null) ∧
      ∀ way : Asking, way ≠ .compared →
        s.Selects t c (way.equal property v) (fun _ _ => false) ∧
        (holdsOperator c.name = false →
          s.Selects t c (way.differ property v) fun _ _ => false)) := by
  constructor
  · intro hn
    obtain ⟨equal, differ⟩ := Session.selects_of_ne_null (s := s) hc hv hn
    exact ⟨equal, fun way way' => (equal way).agree (equal way'), differ,
      fun kept way way' => (differ way (.inr kept)).agree (differ way' (.inr kept))⟩
  · rintro rfl
    exact Session.selects_of_null hc

def untitled : Session where
  database := { tables := [{ notebook.scope.table with
    rows := [⟨1, [.integer 1, .null]⟩, ⟨2, [.integer 2, .text "b"]⟩] }] }

def noteRow (id : Int64) (title : Datum) : NamedRow :=
  [("id", .stored (.integer id)), ("title", .stored title)]

theorem calls_miss_null :
    (¬ ∀ (s : Session) (t : TableMapping) (property : String) (c : Column) (v : Value) (d : Datum),
      t.columnOf property = .ok c → t.bind v = .ok d → ∀ way way' : Asking,
        s.Agree (meeting t (way.equal property v)) (meeting t (way'.equal property v))) ∧
    (toList (meeting .notes (Asking.compared.differ "Title" .null))).run untitled =
      (.ok [noteRow 2 (.text "b")], untitled) ∧
    (toList (meeting .notes (Asking.called.differ "Title" .null))).run untitled =
      (.ok [], untitled) := by
  have hc : TableMapping.notes.columnOf "Title" = .ok TableMapping.notes.columns[1] := rfl
  obtain ⟨is, isNot, calls⟩ := Session.selects_of_null (s := untitled) hc
  have reach : untitled.reach "notes" "title" = .ok untitled.database.tables[0] := by rfl
  refine ⟨fun agree => ?_, isNot.toList_eq reach (some ⟨2, _⟩) (by rfl) (by rfl),
    ((calls .called nofun).2 (by decide)).toList_eq reach none (by rfl) (by rfl)⟩
  have found := is.toList_eq reach (some ⟨1, _⟩) (by rfl) (by rfl)
  have missed := (calls .called nofun).1.toList_eq reach none (by rfl) (by rfl)
  obtain ⟨rows, hr, perm⟩ := agree _ _ _ _ .null .null rfl rfl .compared .called _ found
  cases missed.symm.trans hr
  cases perm.length_eq

theorem equality_tests_notebook :
    TableMapping.notes.columnOf "Title" = .ok TableMapping.notes.columns[1] ∧
    TableMapping.notes.bind (.text "b") = .ok (.text "b") ∧
    ∀ way : Asking,
      (toList (meeting .notes (way.equal "Title" (.text "b")))).run notebook =
        (.ok [noteRow 2 (.text "b")], notebook) ∧
      (toList (meeting .notes (way.differ "Title" (.text "b")))).run notebook =
        (.ok [noteRow 1 (.text "a")], notebook) := by
  have hc : TableMapping.notes.columnOf "Title" = .ok TableMapping.notes.columns[1] := rfl
  have hv : TableMapping.notes.bind (.text "b") = .ok (.text "b") := rfl
  refine ⟨hc, hv, fun way => ?_⟩
  obtain ⟨equal, _, differ, _⟩ := (equality_tests notebook .notes hc hv).1 nofun
  have reach : notebook.reach "notes" "title" = .ok notebook.database.tables[0] := by rfl
  exact ⟨(equal way).toList_eq reach (some ⟨2, _⟩) (by rfl) (by rfl),
    (differ way (.inr (by decide))).toList_eq reach (some ⟨1, _⟩) (by rfl) (by rfl)⟩

end Tabular
