import Tabular.Proofs.Database.Paging
import Tabular.Proofs.Query.Paging
import Tabular.Proofs.Session.Counting

namespace Tabular.Session

open Database (Scope checkPage greatestCount onPage page)
open Sql (Command Term)
open Sql.Command (Source)

/-- The order of a query decides in which order its rows come. -/
def settles (s : Session) (q : Query) : Prop :=
  ∀ stmt, q.statement = .ok stmt → s.database.settles stmt

/-- However many of its rows are wanted, the query finds the same in the same order. -/
def steady (s : Session) (q : Query) : Prop :=
  ∀ stmt, q.statement = .ok stmt → s.database.IsSteady stmt

/-- The rows that a query has without its limit and its offset, each as far as it can be read. The
database answers all of them. -/
def Entries (s : Session) (q : Query) (entries : List (Except Failure NamedRow)) : Prop :=
  ∃ (stmt : Statement) (columns : List String) (rows : List (List Datum)),
    q.unpaged.statement = .ok stmt ∧ s.answer stmt = .ok ⟨columns, rows.map .ok⟩ ∧
    entries = rows.map (q.mapping.decodeRow columns)

variable {s : Session} {q : Query} {entries : List (Except Failure NamedRow)}

theorem settles.steady (h : s.settles q) : s.steady q :=
  fun stmt hs => Database.isSteady_of_settles (h stmt hs)

theorem settles_of_unordered (hq : q.SortsByNames) (ho : q.orderings = []) : s.settles q := by
  intro stmt hs
  unfold Database.settles
  split
  · next table condition order p hc =>
    obtain ⟨src, unordered, asks⟩ := Query.ofText?_paged hq hs hc
    obtain ⟨stmt', hs', _, hc'⟩ := asks q.limit q.offset
    cases hs.symm.trans hs'
    cases hc.symm.trans hc'
    split
    · simp [Scope.settles, unordered ho]
    · rfl
  · rfl

theorem mapM_decoded {α : Type} (decode : List Datum → Except Failure α)
    (rows : List (List Datum)) :
    (rows.map .ok).mapM (decoded decode) = (rows.map decode).mapM id := by
  rw [List.mapM_map, List.mapM_map]
  rfl

theorem onPage_map {α β : Type} (f : α → β) (p : Sql.Page) (xs : List α) :
    onPage p (xs.map f) = (onPage p xs).map f := by
  unfold onPage
  cases p.limit with
  | none => rfl
  | some l =>
    dsimp only
    split <;> simp

theorem onPage_cells (p : Sql.Page) (rows : List Database.Row) :
    ((onPage p rows).map fun r => (.ok r.cells : Except Database.Refusal (List Datum))) =
      (onPage p (rows.map Database.Row.cells)).map .ok := by
  rw [onPage_map, List.map_map]
  rfl

theorem listed_of_answer {stmt : Statement} {columns : List String} {p : Sql.Page}
    {rows : List (List Datum)} (hs : q.statement = .ok stmt)
    (ha : s.answer stmt = .ok ⟨columns, (onPage p rows).map .ok⟩) :
    s.listed q = (onPage p (rows.map (q.mapping.decodeRow columns))).mapM id := by
  simp only [listed, hs, ha, Except.mapError, bind, Except.bind, mapM_decoded, onPage_map]

theorem Entries.exists_source (hq : q.SortsByNames) (he : s.Entries q entries) :
    ∃ (src : Source) (args : List Datum) (scope : Scope) (c : Option Term) (columns : List String)
      (rows : List (List Datum)),
      s.database.prepare src.table src.condition args = .ok (scope, c) ∧
      (s.steady q → scope.IsSteady c src.order) ∧ (s.decides q → (scope.selection c).isSafe) ∧
      s.database.select .all src.table src.condition src.order {} args =
        .ok ⟨columns, rows.map .ok⟩ ∧
      entries = rows.map (q.mapping.decodeRow columns) ∧
      ∀ limit offset, ∃ stmt, (q.paged limit offset).statement = .ok stmt ∧
        s.answer stmt = (s.database.select .all src.table src.condition src.order
          (q.paged limit offset).page args).mapError .refused := by
  obtain ⟨stmt, columns, rows, hs, ha, rfl⟩ := he
  obtain ⟨hopen, hf⟩ := s.answer_eq_ok.1 ha
  obtain ⟨cmd, hc⟩ := Database.exists_command_of_fetch hf
  obtain ⟨src, _, asks⟩ := Query.ofText?_paged (q := q.unpaged) hq hs hc
  obtain ⟨stmt', hs', _, hc'⟩ := asks none none
  cases hs.symm.trans hs'
  rw [Database.fetch_of_select hc'] at hf
  obtain ⟨scope, c, prepared, _⟩ := Database.prepare_of_select hf
  obtain ⟨paged, hp, args_eq, hcp⟩ := asks q.limit q.offset
  refine ⟨src, stmt.args, scope, c, columns, rows, prepared, ?_, ?_, hf, rfl, ?_⟩
  · intro h
    exact (h paged hp).scope hcp (by rw [args_eq]; exact prepared)
  · intro h
    exact Database.isSafe_of_decides (h paged hp) hcp (by rw [args_eq]; exact prepared)
  · intro limit offset
    obtain ⟨paged, hp, args_eq, hc⟩ := asks limit offset
    refine ⟨paged, hp, ?_⟩
    rw [answer_of_open hopen, Database.fetch_of_select hc, args_eq]
    rfl

theorem checkPage_page (q : Query) : checkPage q.page =
    if q.limit = some 0 ∨ q.limit.getD 0 ≤ greatestCount ∧ q.offset.getD 0 ≤ greatestCount then
      .ok ()
    else .error .invalid := by
  have positive : greatestCount ≠ 0 := by decide
  unfold checkPage Query.page
  cases q.limit with
  | none =>
    cases q.offset with
    | none => rfl
    | some k => by_cases hk : k ≤ greatestCount <;> simp [positive, hk, Nat.lt_of_not_le]
  | some n =>
    by_cases hn : n ≤ greatestCount <;> by_cases hk : q.offset.getD 0 ≤ greatestCount <;>
      simp [hn, hk, Nat.lt_of_not_le, ite_not]

theorem listed_paged (hq : q.SortsByNames) (he : s.Entries q entries) (steady : s.steady q)
    (limit offset : Option Nat) : s.listed (q.paged limit offset) =
      (checkPage (q.paged limit offset).page).mapError .refused >>= fun _ =>
        (onPage (q.paged limit offset).page entries).mapM id := by
  obtain ⟨src, args, scope, c, columns, rows, prepared, unmoved, _, whole, rfl, asks⟩ :=
    he.exists_source hq
  obtain ⟨stmt, hs, answer⟩ := asks limit offset
  cases hp : checkPage (q.paged limit offset).page with
  | error refusal =>
    rw [Database.select_of_checkPage prepared hp] at answer
    simp only [listed, hs, answer, Except.mapError, bind, Except.bind]
  | ok checked =>
    rw [Database.select_page prepared hp (unmoved steady), whole, Except.map,
      Database.page_map_ok] at answer
    exact listed_of_answer hs answer

theorem listed_arranged (hq : q.SortsByNames) (he : s.Entries q entries) (decided : s.decides q)
    {limit offset : Option Nat} (hp : checkPage (q.paged limit offset).page = .ok ()) :
    ∃ arranged : List (Except Failure NamedRow), arranged.Perm entries ∧
      s.listed (q.paged limit offset) =
        (onPage (q.paged limit offset).page arranged).mapM id := by
  obtain ⟨src, args, scope, c, columns, rows, prepared, _, safe, whole, rfl, asks⟩ :=
    he.exists_source hq
  obtain ⟨stmt, hs, answer⟩ := asks limit offset
  have safe := safe decided
  obtain ⟨all, perm, answered⟩ := Database.select_all src.order prepared (p := {}) rfl safe
  obtain ⟨found, perm', answered'⟩ := Database.select_all src.order prepared hp safe
  rw [onPage_cells, whole] at answered
  obtain ⟨rfl, rows_eq⟩ := Database.Answer.mk.inj (Except.ok.inj answered)
  have rows_eq : rows = all.map Database.Row.cells :=
    List.map_injective_iff.2 (fun _ _ => Except.ok.inj) rows_eq
  subst rows_eq
  refine ⟨_, ((perm'.trans perm.symm).map Database.Row.cells).map _, ?_⟩
  rw [answered', onPage_cells] at answer
  exact listed_of_answer hs answer

theorem exists_entries {rows : List NamedRow} (hq : q.SortsByNames) (h : s.listed q = .ok rows)
    (hd : s.decides q) : ∃ entries, s.Entries q entries := by
  obtain ⟨src, args, a, ha, _, _, ⟨listing, hl, answer⟩, safe⟩ := selects_of_listed hq h
  obtain ⟨scope, c, prepared, _⟩ := Database.prepare_of_select ha
  obtain ⟨found, _, answered⟩ :=
    Database.select_all src.order prepared (p := {}) rfl (safe hd scope c prepared)
  rw [onPage_cells] at answered
  exact ⟨_, listing, _, _, hl, by rw [answer, answered]; rfl, rfl⟩

end Tabular.Session
