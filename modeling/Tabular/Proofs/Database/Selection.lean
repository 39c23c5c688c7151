import Mathlib.Data.List.Basic
import Tabular.Database.Select
import Tabular.Proofs.Except

namespace Tabular.Database

open Sql (Command Page SortTerm Term)

theorem Table.sort_perm (t : Table) (keys : List (Option Place × Bool)) (rows : List Row) :
    (t.sort keys rows).Perm rows :=
  List.mergeSort_perm _ _

theorem Path.arrange_perm (t : Table) (p : Path) (reverse : Bool) (rows : List Row) :
    (p.arrange t reverse rows).Perm rows := by
  have sorted : (p.arrange t false rows).Perm rows := by
    unfold Path.arrange
    cases p.directory with
    | none => exact .refl rows
    | some d => exact t.sort_perm _ rows
  cases reverse with
  | false => exact sorted
  | true => exact (List.reverse_perm _).trans sorted

mutual

theorem Plan.arrange_perm (s : Scope) (plan : Plan) (rows : List Row) :
    (plan.arrange s rows).Perm rows := by
  cases plan with
  | walk p reverse => exact p.arrange_perm s.table reverse rows
  | union source sides => exact Plan.arrangeSides_perm s sides rows

theorem Plan.arrangeSides_perm (s : Scope) (sides : List (List Conjunct × Plan))
    (rows : List Row) : (Plan.arrangeSides s sides rows).Perm rows := by
  cases sides with
  | nil => exact .refl rows
  | cons side rest =>
    obtain ⟨cs, plan⟩ := side
    have inside := (Plan.arrange_perm s plan rows).filter (s.meetsAll cs)
    have outside := Plan.arrangeSides_perm s rest (rows.filter fun r => !s.meetsAll cs r)
    exact (inside.append outside).trans (List.filter_append_perm (s.meetsAll cs) rows)

end

namespace Selection

def matching (q : Selection) : List Row := q.scope.table.rows.filter q.holds

theorem found_of_isSafe {q : Selection} (h : q.isSafe) :
    ∃ rows : List Row, q.found = rows.map .ok ∧ rows.Perm q.matching := by
  refine ⟨_, if_pos h, ?_⟩
  have read := q.plan.1.arrange_perm q.scope q.scope.table.rows
  exact ((q.scope.table.sort_perm q.order _).trans read).filter q.holds

end Selection

section Page

variable {ε α : Type}

theorem pass_map_ok (n : Nat) (xs : List α) :
    pass n (xs.map (Except.ok : α → Except ε α)) = (xs.drop n).map .ok := by
  induction n generalizing xs with
  | zero => rfl
  | succ n ih =>
    cases xs with
    | nil => rfl
    | cons x xs => exact ih xs

theorem pass_map {β : Type} (f : α → β) (n : Nat) (xs : List (Except ε α)) :
    pass n (xs.map fun x => x.map f) = (pass n xs).map fun x => x.map f := by
  induction n generalizing xs with
  | zero => rfl
  | succ n ih =>
    cases xs with
    | nil => rfl
    | cons x xs =>
      cases x with
      | error e => rfl
      | ok x => exact ih xs

theorem page_map {β : Type} (f : α → β) (p : Page) (xs : List (Except ε α)) :
    page p (xs.map fun x => x.map f) = (page p xs).map fun x => x.map f := by
  unfold page
  cases p.limit with
  | none => rfl
  | some l =>
    simp only [pass_map]
    split <;> simp

def onPage (p : Page) (xs : List α) : List α :=
  match p.limit with
  | none => xs
  | some l =>
    if l < 0 then xs.drop (p.offset.getD 0) else (xs.drop (p.offset.getD 0)).take l.toNat

theorem page_map_ok (p : Page) (xs : List α) :
    page p (xs.map (Except.ok : α → Except ε α)) = (onPage p xs).map .ok := by
  unfold page onPage
  cases p.limit with
  | none => rfl
  | some l =>
    simp only [pass_map_ok]
    split <;> simp

theorem onPage_sublist (p : Page) (xs : List α) : (onPage p xs).Sublist xs := by
  unfold onPage
  split
  · exact .refl xs
  split
  · exact List.drop_sublist _ xs
  · exact (List.take_sublist _ _).trans (List.drop_sublist _ xs)

theorem error_of_mem_page {p : Page} {x r : Except ε α} (hl : p.limit.isSome)
    (ho : 0 < p.offset.getD 0) (h : r ∈ page p [x]) : ∃ e, r = .error e := by
  obtain ⟨l, hl⟩ := Option.isSome_iff_exists.1 hl
  have passed : r ∈ pass (p.offset.getD 0) [x] := by
    simp only [page, hl] at h
    split at h
    · exact h
    · exact List.mem_of_mem_take h
  cases ho' : p.offset.getD 0 with
  | zero => exact absurd ho' (by omega)
  | succ o =>
    rw [ho'] at passed
    cases x with
    | error e => exact ⟨e, by simpa [pass] using passed⟩
    | ok x => cases o <;> simp [pass] at passed

end Page

theorem mapM_id_ok {ε α : Type} (xs : List α) :
    (xs.map (Except.ok : α → Except ε α)).mapM id = .ok xs := by
  induction xs with
  | nil => rfl
  | cons x xs ih => simp [ih, bind, Except.bind, pure, Except.pure]

theorem exists_count_eq (xs : Found) : ∃ row, count xs = [row] := by
  unfold count
  split <;> exact ⟨_, rfl⟩

theorem count_map_ok (rows : List Row) :
    count (rows.map .ok) = [.ok [.integer (Int64.ofNat rows.length)]] := by
  rw [count, mapM_id_ok]

/-- The rows that a condition selects, in any order. -/
def Scope.selection (s : Scope) (condition : Option Term) : Selection where
  scope := s
  condition := condition
  order := []
  answered := []
  idle := []
  limit := none

theorem Selection.found_of_scope {q : Selection} {s : Scope} {c : Option Term} (hs : q.scope = s)
    (hc : q.condition = c) (h : (s.selection c).isSafe) :
    ∃ rows : List Row, q.found = rows.map .ok ∧ rows.Perm (s.selection c).matching := by
  subst hs hc
  exact found_of_isSafe (q := q) h

variable {db : Database} {table : String} {condition : Option Term} {order : List SortTerm}
  {p : Page} {args : List Datum}

theorem prepare_of_select {projection : Sql.Projection} {a : Answer}
    (h : db.select projection table condition order p args = .ok a) :
    ∃ s c, db.prepare table condition args = .ok (s, c) ∧ checkPage p = .ok () := by
  simp only [select, bind_eq_ok] at h
  obtain ⟨⟨s, c⟩, hs, _, hp, _⟩ := h
  exact ⟨s, c, hs, hp⟩

section Prepared

variable (order) {s : Scope} {c : Option Term} (hs : db.prepare table condition args = .ok (s, c))
  (hp : checkPage p = .ok ()) (safe : (s.selection c).isSafe)

include hs hp safe

theorem select_all : ∃ rows : List Row, rows.Perm (s.selection c).matching ∧
    db.select .all table condition order p args = .ok ⟨s.table.columns.map TableColumn.name,
      (onPage p rows).map fun r => .ok r.cells⟩ := by
  simp only [select, hs, hp, bind, Except.bind, pure, Except.pure]
  obtain ⟨rows, hr, perm⟩ := Selection.found_of_scope (q := ⟨s, c, _, _, _, _⟩) rfl rfl safe
  refine ⟨rows, perm, ?_⟩
  split
  -- With a limit of zero no row is looked for, and no row would be on the page.
  · next hl => simp [page, onPage, hl]
  · rw [hr, page_map_ok, List.map_map]
    rfl

theorem select_count : db.select .count table condition order p args =
    .ok ⟨["count(*)"], (onPage p [[.integer (Int64.ofNat (if p.limit = some 0 then 0
      else (s.selection c).matching.length))]]).map .ok⟩ := by
  simp only [select, hs, hp, bind, Except.bind, pure, Except.pure, ← page_map_ok, List.map_cons,
    List.map_nil]
  split
  · rfl
  · obtain ⟨rows, hr, perm⟩ := Selection.found_of_scope (q := ⟨s, c, _, _, _, _⟩) rfl rfl safe
    rw [hr, count_map_ok, perm.length_eq]

end Prepared

theorem error_of_select_count {a : Answer}
    (h : db.select .count table condition order p args = .ok a)
    (hp : p.limit = some 0 ∨ p.limit.isSome ∧ 0 < p.offset.getD 0) :
    ∀ r ∈ a.rows, ∃ refusal, r = .error refusal := by
  unfold select at h
  simp only [bind_eq_ok] at h
  obtain ⟨⟨s, c⟩, _, _, _, h⟩ := h
  cases h
  intro r hr
  rcases hp with hl | ⟨hl, ho⟩
  · simp [page, hl] at hr
  · obtain ⟨row, he⟩ := exists_count_eq _
    rw [he] at hr
    exact error_of_mem_page hl ho hr

/-- Whether the condition of a statement has a value on every row of its table. -/
def decides (db : Database) (stmt : Statement) : Bool :=
  match Command.ofText? stmt.sql with
  | some (.select _ table condition _ _) =>
    match db.prepare table condition stmt.args with
    | .ok (s, c) => (s.selection c).isSafe
    | .error _ => true
  | _ => true

variable {stmt : Statement}

theorem isSafe_of_decides {projection : Sql.Projection} {s : Scope} {c : Option Term}
    (hd : db.decides stmt)
    (hc : Command.ofText? stmt.sql = some (.select projection table condition order p))
    (hs : db.prepare table condition stmt.args = .ok (s, c)) : (s.selection c).isSafe := by
  simpa only [decides, hc, hs] using hd

theorem fetch_of_select {projection : Sql.Projection}
    (hc : Command.ofText? stmt.sql = some (.select projection table condition order p)) :
    db.fetch stmt = db.select projection table condition order p stmt.args := by
  rw [fetch, hc]

theorem exists_command_of_fetch {a : Answer} (h : db.fetch stmt = .ok a) :
    ∃ cmd, Command.ofText? stmt.sql = some cmd := by
  unfold fetch at h
  split at h
  · exact ⟨_, ‹_›⟩
  · cases h

end Tabular.Database
