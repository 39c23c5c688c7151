import Tabular.Proofs.Database.Selection
import Tabular.Proofs.Query.Parsing
import Tabular.Proofs.Session.Reading

namespace Tabular

open Sql.Command (Source)

theorem int64_ofNat_inj {m n : Nat} (hm : m ≤ Database.greatestCount)
    (hn : n ≤ Database.greatestCount) : Int64.ofNat m = Int64.ofNat n ↔ m = n := by
  constructor
  · intro h
    have := congrArg Int64.toInt h
    rwa [Int64.toInt_ofNat_of_lt (Nat.lt_succ_of_le hm), Int64.toInt_ofNat_of_lt
      (Nat.lt_succ_of_le hn), Int.ofNat_inj] at this
  · intro h
    rw [h]

namespace Query

variable (q : Query)

theorem length_onPage {α : Type} (xs : List α) : (Database.onPage q.page xs).length =
    q.limit.elim (xs.length - q.offset.getD 0) fun l => min l (xs.length - q.offset.getD 0) := by
  unfold Database.onPage page
  cases q.limit with
  | none => cases q.offset <;> simp
  | some l =>
    have positive : ¬ (l : Int) < 0 := by omega
    simp [positive]

def OmitsFirst : Prop := q.limit = some 0 ∨ 0 < q.offset.getD 0

instance : Decidable q.OmitsFirst := inferInstanceAs (Decidable (_ ∨ _))

theorem page_of_omitsFirst (h : q.OmitsFirst) :
    q.page.limit = some 0 ∨ q.page.limit.isSome ∧ 0 < q.page.offset.getD 0 := by
  unfold page
  rcases h with h | h
  · exact .inl (by simp [h])
  · refine .inr ⟨?_, h⟩
    cases hl : q.limit with
    | some l => rfl
    | none =>
      cases ho : q.offset with
      | none => simp [ho] at h
      | some o => rfl

theorem onPage_singleton {α : Type} (x : α) :
    Database.onPage q.page [x] = if q.OmitsFirst then [] else [x] := by
  have dropped (n : Nat) : [x].drop n = if 0 < n then [] else [x] := by
    cases n <;> simp
  cases hl : q.limit with
  | none => cases ho : q.offset <;> simp [Database.onPage, page, OmitsFirst, hl, ho, dropped]
  | some l =>
    have positive : ¬ (l : Int) < 0 := by omega
    cases l with
    | zero => simp [Database.onPage, page, OmitsFirst, hl]
    | succ l =>
      simp only [Database.onPage, page, OmitsFirst, hl, positive, dropped, if_false]
      split <;> simp [*]

theorem omitsFirst_of_limit (h : q.page.limit = some 0) : q.OmitsFirst := by
  unfold page at h
  cases hl : q.limit with
  | none => cases ho : q.offset <;> simp [hl, ho] at h
  | some l => exact .inl (by simpa [hl] using h)

end Query

namespace Session

variable (s : Session)

theorem answer_eq_ok {stmt : Statement} {a : Database.Answer} :
    s.answer stmt = .ok a ↔ s.closed = false ∧ s.database.fetch stmt = .ok a := by
  unfold answer
  cases s.closed <;> simp [mapError_eq_ok]

def decides (q : Query) : Prop := ∀ stmt, q.statement = .ok stmt → s.database.decides stmt

variable {s} {q : Query} {rows : List NamedRow}

/-- A query lists its rows if its condition has a value on every row and every row can be read. -/
theorem exists_listed {stmt : Statement} {table : String} {condition c : Option Sql.Term}
    {order : List Sql.SortTerm} {p : Sql.Page} {scope : Database.Scope} (ho : s.closed = false)
    (hs : q.statement = .ok stmt)
    (hc : Sql.Command.ofText? stmt.sql = some (.select .all table condition order p))
    (hp : s.database.prepare table condition stmt.args = .ok (scope, c))
    (checked : Database.checkPage p = .ok ()) (safe : (scope.selection c).isSafe)
    (hd : ∀ r ∈ scope.table.rows, ∃ row,
      q.mapping.decodeRow (scope.table.columns.map Database.TableColumn.name) r.cells = .ok row) :
    ∃ rows, s.listed q = .ok rows := by
  obtain ⟨found, perm, answered⟩ := Database.select_all order hp checked safe
  have answer := s.answer_eq_ok.2 ⟨ho, (Database.fetch_of_select hc).trans answered⟩
  simp only [listed, hs, answer, Except.mapError, bind, Except.bind]
  apply exists_mapM_eq_ok
  intro x hx
  obtain ⟨r, hr, rfl⟩ := List.mem_map.1 hx
  exact hd r (List.mem_filter.1 (perm.subset ((Database.onPage_sublist p found).subset hr))).1

theorem selects_of_listed (hq : q.SortsByNames) (h : s.listed q = .ok rows) :
    ∃ (src : Source) (args : List Datum) (a : Database.Answer),
      s.database.select .all src.table src.condition src.order q.page args = .ok a ∧
      a.rows.length = rows.length ∧
      s.counted q.count = ((s.database.select .count src.table src.condition src.order q.page
        args).mapError .refused >>= fun a => number a.rows) ∧
      (∃ listing, q.unpaged.statement = .ok listing ∧ s.answer listing =
        (s.database.select .all src.table src.condition src.order {} args).mapError .refused) ∧
      (s.decides q → ∀ scope condition, s.database.prepare src.table src.condition args =
        .ok (scope, condition) → (scope.selection condition).isSafe) := by
  obtain ⟨stmt, a, hs, ha, hl⟩ := s.listed_eq_ok h
  obtain ⟨hopen, hf⟩ := s.answer_eq_ok.1 ha
  obtain ⟨cmd, hc⟩ := Database.exists_command_of_fetch hf
  obtain ⟨src, counting, listing, hcounting, args_eq, hlisting, args_eq', page_eq, hc, hcc, hcl⟩ :=
    Query.ofText?_statement hq hs hc
  have answers := answer_of_open hopen
  refine ⟨src, stmt.args, a, ?_, hl, ?_, ⟨listing, hlisting, ?_⟩, ?_⟩
  · rw [← page_eq, ← hf, Database.fetch_of_select hc]
  · rw [counted, hcounting, ← args_eq, ← page_eq, ← Database.fetch_of_select hcc, ← answers]
    rfl
  · rw [answers, Database.fetch_of_select hcl, args_eq']
  · intro hd scope condition hp
    exact Database.isSafe_of_decides (hd stmt hs) hc hp

theorem not_counted_of_omitsFirst (hq : q.SortsByNames) (h : s.listed q = .ok rows)
    (ho : q.OmitsFirst) (n : Int64) : s.counted q.count ≠ .ok n := by
  intro hn
  obtain ⟨src, args, a, _, _, hc, _⟩ := selects_of_listed hq h
  rw [hc, bind_eq_ok] at hn
  obtain ⟨b, hb, hn⟩ := hn
  have failures := Database.error_of_select_count (mapError_eq_ok.1 hb) (q.page_of_omitsFirst ho)
  cases hr : b.rows with
  | nil => simp [hr, number] at hn
  | cons r rest =>
    obtain ⟨refusal, rfl⟩ := failures r (by simp [hr])
    simp [hr, number] at hn

theorem counted_of_listed (hq : q.SortsByNames) (h : s.listed q = .ok rows) (hd : s.decides q) :
    ∃ stmt a, q.unpaged.statement = .ok stmt ∧ s.answer stmt = .ok a ∧
      rows.length = q.limit.elim (a.rows.length - q.offset.getD 0)
        (fun l => min l (a.rows.length - q.offset.getD 0)) ∧
      s.counted q.count =
        if q.OmitsFirst then .error .noRow else .ok (Int64.ofNat a.rows.length) := by
  obtain ⟨src, args, a, ha, hl, hc, ⟨listing, hlisting, hf⟩, safe⟩ := selects_of_listed hq h
  obtain ⟨scope, condition, hp, checked⟩ := Database.prepare_of_select ha
  have safe := safe hd scope condition hp
  obtain ⟨found, perm, answered⟩ := Database.select_all src.order hp checked safe
  obtain ⟨whole, perm', answered'⟩ := Database.select_all src.order hp (p := {}) rfl safe
  cases ha.symm.trans answered
  refine ⟨listing, _, hlisting, by rw [hf, answered']; rfl, ?_, ?_⟩
  · rw [← hl, List.length_map, q.length_onPage, perm.length_eq, ← perm'.length_eq]
    simp [Database.onPage]
  · rw [hc, Database.select_count src.order hp checked safe, q.onPage_singleton]
    split
    · next ho => simp [Except.mapError, bind, Except.bind, number]
    · next ho =>
      simp [Except.mapError, bind, Except.bind, number, mt q.omitsFirst_of_limit ho,
        ← perm'.length_eq, Database.onPage]

end Session

open Session (toList count countWhere)

theorem count_agrees_iff (t : TableMapping) (steps : List Query.Step) (s : Session)
    {rows : List NamedRow}
    (h : (toList ((Query.ofMapping t).after steps)).run s = (.ok rows, s)) :
    let q := (Query.ofMapping t).after steps
    (∀ q' p, q'.filter p = .ok q → (countWhere q' p).run s = (count q).run s) ∧
    (q.OmitsFirst → ∃ failure, (count q).run s = (.error failure, s)) ∧
    (s.decides q → ∃ stmt a, q.unpaged.statement = .ok stmt ∧ s.answer stmt = .ok a ∧
      rows.length = q.limit.elim (a.rows.length - q.offset.getD 0)
        (fun l => min l (a.rows.length - q.offset.getD 0)) ∧
      (count q).run s =
        (if q.OmitsFirst then .error .noRow else .ok (Int64.ofNat a.rows.length), s) ∧
      (a.rows.length ≤ Database.greatestCount →
        ((count q).run s = (.ok (Int64.ofNat rows.length), s) ↔
          ¬ q.OmitsFirst ∧ ∀ l, q.limit = some l → a.rows.length ≤ l))) := by
  intro q
  have hq : q.SortsByNames := Query.sortsByNames_after t steps
  have listed : s.listed q = .ok rows := (Session.run_toList_eq_ok.1 h).1
  have run_count : (count q).run s = (s.counted q.count, s) := s.run_countOf q.count
  refine ⟨?_, ?_, ?_⟩
  · intro q' p hf
    have counted : q'.countWhere p = q.count := by
      rw [Query.countWhere, hf]
      rfl
    rw [countWhere, counted]
    rfl
  · intro ho
    cases hc : s.counted q.count with
    | ok n => exact absurd hc (Session.not_counted_of_omitsFirst hq listed ho n)
    | error failure => exact ⟨failure, by rw [run_count, hc]⟩
  · intro hd
    obtain ⟨stmt, a, hs, ha, hl, hc⟩ := Session.counted_of_listed hq listed hd
    refine ⟨stmt, a, hs, ha, hl, by rw [run_count, hc], ?_⟩
    intro bound
    have length_le : rows.length ≤ a.rows.length := by
      rw [hl]
      cases q.limit <;> simp only [Option.elim] <;> omega
    rw [run_count, hc, Prod.mk.injEq, and_iff_left rfl]
    by_cases ho : q.OmitsFirst
    · simp [ho]
    · have all : q.offset.getD 0 = 0 := Nat.eq_zero_of_not_pos fun h => ho (.inr h)
      rw [if_neg ho, Except.ok.injEq, int64_ofNat_inj bound (length_le.trans bound), hl, all]
      cases q.limit with
      | none => simp [ho]
      | some l => simp [ho]

def notebook : Session where
  database := { tables := [{
    name := "notes"
    columns := [
      { name := "id", affinity := .integer, collation := .binary, notNull := true, default := .null
        width := 1 },
      { name := "title", affinity := .text, collation := .binary, notNull := false, default := .null
        width := 5 }]
    rowId := some 0
    key := []
    numbered := false
    rows := [⟨1, [.integer 1, .text "a"]⟩, ⟨2, [.integer 2, .text "b"]⟩] }] }

namespace notebook

open TableMapping (notes)
open Query (ofMapping)

def scope : Database.Scope where
  database := notebook.database
  table := notebook.database.tables[0]
  args := []

theorem prepare_eq : notebook.database.prepare "notes" none [] = .ok (scope, none) := by rfl

theorem exists_listed {q : Query} {sql : String} {p : Sql.Page} (hm : q.mapping = notes)
    (hs : q.statement = .ok ⟨sql, []⟩)
    (hc : Sql.Command.ofText? sql = some (.select .all "notes" none [] p))
    (checked : Database.checkPage p = .ok ()) :
    (∃ rows, notebook.listed q = .ok rows) ∧ notebook.decides q := by
  constructor
  · refine Session.exists_listed rfl hs hc prepare_eq checked rfl ?_
    rw [hm]
    intro r hr
    rcases hr with _ | ⟨_, _ | ⟨_, _ | _⟩⟩
    · exact ⟨_, rfl⟩
    · exact ⟨_, rfl⟩
  · intro stmt h
    cases hs.symm.trans h
    simp only [Database.decides, hc, prepare_eq]
    rfl

theorem length_unpaged {stmt : Statement} {a : Database.Answer}
    (hs : (ofMapping notes).statement = .ok stmt) (ha : notebook.answer stmt = .ok a) :
    a.rows.length = 2 := by
  have text : (ofMapping notes).statement = .ok ⟨"select * from \"notes\"", []⟩ := by rfl
  have parsed : Sql.Command.ofText? "select * from \"notes\"" =
      some (.select .all "notes" none [] {}) := by rfl
  cases text.symm.trans hs
  obtain ⟨found, perm, answered⟩ := Database.select_all [] prepare_eq (p := {}) rfl rfl
  have fetched := (notebook.answer_eq_ok.1 ha).2
  rw [Database.fetch_of_select parsed, answered] at fetched
  cases fetched
  rw [List.length_map]
  exact perm.length_eq

theorem count_take (n : Nat) {sql : String} {p : Sql.Page}
    (hs : ((ofMapping notes).take n).statement = .ok ⟨sql, []⟩)
    (hc : Sql.Command.ofText? sql = some (.select .all "notes" none [] p))
    (checked : Database.checkPage p = .ok ()) (hn : n ≠ 0) :
    ∃ rows, (toList ((ofMapping notes).take n)).run notebook = (.ok rows, notebook) ∧
      rows.length = min n 2 ∧
      (count ((ofMapping notes).take n)).run notebook = (.ok 2, notebook) := by
  obtain ⟨⟨rows, hr⟩, hd⟩ := exists_listed rfl hs hc checked
  have sorted : ((ofMapping notes).take n).SortsByNames := Query.sortsByNames_after notes [.take n]
  obtain ⟨stmt, a, ha, hb, length_eq, count_eq⟩ := Session.counted_of_listed sorted hr hd
  have two : a.rows.length = 2 := length_unpaged ha hb
  have kept : ¬ ((ofMapping notes).take n).OmitsFirst := by
    simp [Query.OmitsFirst, Query.take, ofMapping, hn]
  refine ⟨rows, Session.run_toList_eq_ok.2 ⟨hr, rfl⟩, by rw [length_eq, two]; rfl, ?_⟩
  rw [count, Session.run_countOf, count_eq, if_neg kept, two]
  rfl

end notebook

theorem count_ne_length_take :
    ¬ ∀ (t : TableMapping) (steps : List Query.Step) (s : Session) (rows : List NamedRow),
      (toList ((Query.ofMapping t).after steps)).run s = (.ok rows, s) →
        (count ((Query.ofMapping t).after steps)).run s = (.ok (Int64.ofNat rows.length), s) := by
  intro h
  obtain ⟨rows, hr, length_eq, count_eq⟩ := notebook.count_take 1 (by rfl) (by rfl) rfl (by decide)
  have agree := h .notes [.take 1] notebook rows hr
  have equal := Except.ok.inj (Prod.mk.inj (count_eq.symm.trans agree)).1
  rw [length_eq] at equal
  exact absurd equal (by decide)

theorem count_agrees_iff_notebook :
    ∃ rows,
      (toList ((Query.ofMapping .notes).after [.take 2])).run notebook = (.ok rows, notebook) ∧
      (count ((Query.ofMapping .notes).after [.take 2])).run notebook =
        (.ok (Int64.ofNat rows.length), notebook) := by
  obtain ⟨rows, hr, length_eq, _⟩ := notebook.count_take 2 (by rfl) (by rfl) rfl (by decide)
  have decided : notebook.decides ((Query.ofMapping .notes).after [.take 2]) :=
    (notebook.exists_listed rfl (by rfl) (by rfl) rfl).2
  obtain ⟨stmt, a, hs, ha, hl, _, agrees⟩ :=
    (count_agrees_iff .notes [.take 2] notebook hr).2.2 decided
  have two : a.rows.length = 2 := notebook.length_unpaged hs ha
  refine ⟨rows, hr, (agrees (by rw [two]; decide)).2 ⟨?_, ?_⟩⟩
  · decide
  · intro l h
    cases h
    exact two.le

end Tabular
