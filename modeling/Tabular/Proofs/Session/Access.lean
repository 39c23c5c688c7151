import Tabular.Proofs.Session.Paging

namespace Tabular

namespace Session

open Database (checkPage greatestCount onPage)

variable {s : Session} {q : Query} {entries : List (Except Failure NamedRow)}

def lookup? (entries : List (Except Failure NamedRow)) (i : Nat) :
    Except Failure (Option NamedRow) :=
  match entries[i]? with
  | some entry => entry.map some
  | none => .ok none

def orMissing (x : Except Failure (Option NamedRow)) : Except Failure NamedRow :=
  match x with
  | .ok (some row) => .ok row
  | .ok none => .error .notFound
  | .error failure => .error failure

theorem run_first? (s : Session) (q : Query) :
    (first? q).run s = ((s.listed q.first).map List.head?, s) := by
  refine (run_bind s (run_toList s q.first) (g := fun rows => .ok rows.head?) fun _ => rfl).trans ?_
  cases s.listed q.first <;> rfl

theorem run_orNotFound (x : Option NamedRow) (s : Session) :
    (orNotFound x).run s = (orMissing (.ok x), s) := by
  cases x <;> rfl

theorem run_first (s : Session) (q : Query) :
    (first q).run s = (orMissing ((s.listed q.first).map List.head?), s) := by
  refine (run_bind s (run_first? s q) fun x => run_orNotFound x s).trans ?_
  cases s.listed q.first <;> rfl

theorem run_elementAt (s : Session) (q : Query) (i : Nat) :
    (elementAt q i).run s = (orMissing ((s.listed (q.elementAt i)).map List.head?), s) := by
  have run := run_bind s (run_toList s (q.elementAt i)) fun rows => run_orNotFound rows.head? s
  refine run.trans ?_
  cases s.listed (q.elementAt i) <;> rfl

theorem head?_onPage_one (offset : Option Nat) :
    ((onPage ⟨some 1, offset⟩ entries).mapM id).map List.head? =
      lookup? entries (offset.getD 0) := by
  have page_eq : onPage ⟨some 1, offset⟩ entries = entries[offset.getD 0]?.toList := by
    rw [← List.head?_drop, ← List.take_one]
    rfl
  rw [page_eq, lookup?]
  cases entries[offset.getD 0]? with
  | none => rfl
  | some entry => cases entry <;> rfl

theorem checkPage_one (q : Query) (offset : Option Nat) :
    checkPage (q.paged (some 1) offset).page =
      if offset.getD 0 ≤ greatestCount then .ok () else .error .invalid := by
  have small : 1 ≤ greatestCount := by decide
  simp [checkPage_page, Query.paged, small]

theorem listed_one (hq : q.SortsByNames) (he : s.Entries q entries) (settled : s.settles q)
    (offset : Option Nat) : (s.listed (q.paged (some 1) offset)).map List.head? =
      if offset.getD 0 ≤ greatestCount then lookup? entries (offset.getD 0)
      else .error (.refused .invalid) := by
  have page_eq : (q.paged (some 1) offset).page = ⟨some 1, offset⟩ := rfl
  rw [listed_paged hq he settled.steady, checkPage_one, page_eq]
  split
  · rw [← head?_onPage_one]
    rfl
  · rfl

theorem listed_one_arranged (hq : q.SortsByNames) (he : s.Entries q entries)
    (decided : s.decides q) (offset : Option Nat) (ho : offset.getD 0 ≤ greatestCount) :
    ∃ arranged : List (Except Failure NamedRow), arranged.Perm entries ∧
      (s.listed (q.paged (some 1) offset)).map List.head? =
        lookup? arranged (offset.getD 0) := by
  have page_eq : (q.paged (some 1) offset).page = ⟨some 1, offset⟩ := rfl
  have checked : checkPage (q.paged (some 1) offset).page = .ok () := by
    rw [checkPage_one, if_pos ho]
  obtain ⟨arranged, perm, listed⟩ := listed_arranged hq he decided checked
  exact ⟨arranged, perm, by rw [listed, page_eq, head?_onPage_one]⟩

theorem decode_ne_notFound (r : Reading) (column : Option String) (d : Datum) :
    r.decode column d ≠ .error .notFound := by
  unfold Reading.decode
  (repeat' split) <;> simp

theorem Entries.ne_notFound (he : s.Entries q entries) :
    ∀ entry ∈ entries, entry ≠ .error .notFound := by
  obtain ⟨stmt, columns, rows, _, _, rfl⟩ := he
  intro entry hm h
  obtain ⟨row, _, rfl⟩ := List.mem_map.1 hm
  obtain ⟨⟨column, d⟩, _, hd⟩ := exists_of_mapM_eq_error h
  unfold TableMapping.decodeCell at hd
  split at hd
  · next r _ =>
    cases hr : r.decode (some column) d with
    | ok cell =>
      rw [hr] at hd
      cases hd
    | error failure =>
      rw [hr] at hd
      cases hd
      exact decode_ne_notFound r _ d hr
  · cases hd

variable {rows : List NamedRow}

theorem page_of_listed (hq : q.SortsByNames) (he : s.Entries q entries) (settled : s.settles q)
    (h : s.listed q = .ok rows) :
    checkPage q.page = .ok () ∧ rows.map .ok = onPage q.page entries := by
  have paged := listed_paged hq he settled.steady q.limit q.offset
  have self : q.paged q.limit q.offset = q := rfl
  rw [self, h] at paged
  obtain ⟨_, hp, hr⟩ := bind_eq_ok.1 paged.symm
  exact ⟨mapError_eq_ok.1 hp, (mapM_id_eq_ok.1 hr).symm⟩

theorem lookup?_map_ok (rows : List NamedRow) (i : Nat) :
    lookup? (rows.map .ok) i = .ok rows[i]? := by
  rw [lookup?, List.getElem?_map]
  cases rows[i]? <;> rfl

theorem lookup?_eq_ok_none {i : Nat} : lookup? entries i = .ok none ↔ entries.length ≤ i := by
  rw [lookup?, ← List.getElem?_eq_none_iff]
  cases entries[i]? with
  | none => simp
  | some entry => cases entry <;> simp [Except.map]

theorem orMissing_eq_notFound (readable : ∀ entry ∈ entries, entry ≠ .error .notFound)
    {i : Nat} : orMissing (lookup? entries i) = .error .notFound ↔ entries.length ≤ i := by
  rw [← List.getElem?_eq_none_iff, lookup?]
  cases hx : entries[i]? with
  | none => simp [orMissing]
  | some entry =>
    have readable := readable entry (List.mem_of_getElem? hx)
    cases entry with
    | ok row => simp [orMissing, Except.map]
    | error failure => simpa [orMissing, Except.map] using readable

theorem entries_eq_iff (he : s.Entries q entries) (bound : entries.length ≤ greatestCount)
    (page : rows.map .ok = onPage q.page entries) :
    (∀ i ≤ greatestCount, orMissing (lookup? entries i) = orMissing (.ok rows[i]?)) ↔
      rows.length = entries.length := by
  have sublist := Database.onPage_sublist q.page entries
  rw [← page] at sublist
  have length_le : rows.length ≤ entries.length := by simpa using sublist.length_le
  constructor
  · intro agree
    have missing := agree rows.length (length_le.trans bound)
    rw [List.getElem?_eq_none le_rfl] at missing
    exact length_le.antisymm ((orMissing_eq_notFound he.ne_notFound).1 missing)
  · intro length_eq i _
    have entries_eq : rows.map .ok = entries := sublist.eq_of_length (by simpa using length_eq)
    rw [← entries_eq, lookup?_map_ok]

theorem head?_onPage {α : Type} (hl : q.limit ≠ some 0) (xs : List α) :
    (onPage q.page xs).head? = xs[q.offset.getD 0]? := by
  have taken (n : Nat) (l : Nat) : ((xs.drop n).take (l + 1)).head? = xs[n]? := by
    rw [List.head?_take, if_neg (Nat.succ_ne_zero l), List.head?_drop]
  unfold onPage Query.page
  cases hl' : q.limit with
  | none => cases q.offset <;> simp [List.head?_eq_getElem?]
  | some l =>
    cases l with
    | zero => exact absurd hl' hl
    | succ l =>
      have positive : ¬ ((l + 1 : Nat) : Int) < 0 := by omega
      simp only [positive, if_false]
      exact taken _ l

theorem offset_le_of_checkPage (h : checkPage q.page = .ok ()) (hl : q.limit ≠ some 0) :
    q.offset.getD 0 ≤ greatestCount := by
  rw [checkPage_page] at h
  split at h
  · next inside => exact (inside.resolve_left hl).2
  · cases h

theorem first?_eq_iff (checked : checkPage q.page = .ok ())
    (page : rows.map .ok = onPage q.page entries) :
    ((if q.offset.getD 0 ≤ greatestCount then lookup? entries (q.offset.getD 0)
      else .error (.refused .invalid)) = .ok rows.head?) ↔
      (q.limit = some 0 → q.offset.getD 0 ≤ greatestCount ∧ entries.length ≤ q.offset.getD 0) := by
  by_cases hl : q.limit = some 0
  · have empty : rows = [] := by
      have empty : onPage q.page entries = [] := by simp [onPage, Query.page, hl]
      rw [empty] at page
      exact List.map_eq_nil_iff.1 page
    rw [empty, List.head?_nil]
    split
    · next ho => simp [lookup?_eq_ok_none, hl, ho]
    · next ho => simp [hl, ho]
  · rw [if_pos (offset_le_of_checkPage checked hl)]
    have head_eq := congrArg List.head? page
    rw [head?_onPage hl, List.head?_map] at head_eq
    rw [lookup?, ← head_eq]
    cases rows.head? <;> simp [Except.map, hl]

theorem elementAt_eq (hq : q.SortsByNames) (he : s.Entries q entries) (settled : s.settles q)
    {i : Nat} (hi : i ≤ greatestCount) :
    (elementAt q i).run s = (orMissing (lookup? entries i), s) := by
  have listed := listed_one hq he settled (some i)
  rw [Option.getD_some, if_pos hi] at listed
  exact (run_elementAt s q i).trans (by rw [← listed]; rfl)

theorem first?_eq (hq : q.SortsByNames) (he : s.Entries q entries) (settled : s.settles q) :
    (first? q).run s = (if q.offset.getD 0 ≤ greatestCount then lookup? entries (q.offset.getD 0)
      else .error (.refused .invalid), s) := by
  rw [run_first?, ← listed_one hq he settled]
  rfl

theorem elementAt_arranged (hq : q.SortsByNames) (he : s.Entries q entries)
    (decided : s.decides q) {i : Nat} (hi : i ≤ greatestCount) :
    (∃ arranged : List (Except Failure NamedRow), arranged.Perm entries ∧
      (elementAt q i).run s = (orMissing (lookup? arranged i), s)) ∧
    ((elementAt q i).run s = (.error .notFound, s) ↔ entries.length ≤ i) := by
  obtain ⟨arranged, perm, answer⟩ := listed_one_arranged hq he decided (some i) hi
  have run : (elementAt q i).run s = (orMissing (lookup? arranged i), s) :=
    (run_elementAt s q i).trans (congrArg (fun x => (orMissing x, s)) answer)
  refine ⟨⟨arranged, perm, run⟩, ?_⟩
  rw [run, Prod.mk.injEq, and_iff_left rfl, ← perm.length_eq]
  exact orMissing_eq_notFound fun entry hm => he.ne_notFound entry (perm.subset hm)

theorem first?_arranged (hq : q.SortsByNames) (he : s.Entries q entries) (decided : s.decides q)
    (inside : q.offset.getD 0 ≤ greatestCount) :
    (∃ arranged : List (Except Failure NamedRow), arranged.Perm entries ∧
      (first? q).run s = (lookup? arranged (q.offset.getD 0), s)) ∧
    ((first? q).run s = (.ok none, s) ↔ entries.length ≤ q.offset.getD 0) := by
  obtain ⟨arranged, perm, answer⟩ := listed_one_arranged hq he decided q.offset inside
  have run : (first? q).run s = (lookup? arranged (q.offset.getD 0), s) :=
    (run_first? s q).trans (congrArg (fun x => (x, s)) answer)
  refine ⟨⟨arranged, perm, run⟩, ?_⟩
  rw [run, Prod.mk.injEq, and_iff_left rfl, ← perm.length_eq]
  exact lookup?_eq_ok_none

theorem elementAt_agrees_iff (hq : q.SortsByNames) (he : s.Entries q entries)
    (settled : s.settles q) (h : s.listed q = .ok rows) (bound : entries.length ≤ greatestCount) :
    (∀ i ≤ greatestCount, (elementAt q i).run s = (orMissing (.ok rows[i]?), s)) ↔
      rows.length = entries.length := by
  rw [← entries_eq_iff he bound (page_of_listed hq he settled h).2]
  refine forall₂_congr fun i hi => ?_
  rw [elementAt_eq hq he settled hi, Prod.mk.injEq, and_iff_left rfl]

end Session

open Session (toList elementAt lookup? first first? orMissing)
open Database (greatestCount)

theorem access_of_entries (t : TableMapping) (steps : List Query.Step) (s : Session)
    {rows : List NamedRow} {entries : List (Except Failure NamedRow)}
    (h : (toList ((Query.ofMapping t).after steps)).run s = (.ok rows, s))
    (he : s.Entries ((Query.ofMapping t).after steps) entries) :
    let q := (Query.ofMapping t).after steps
    let start := q.offset.getD 0
    (q.orderings = [] → s.settles q) ∧
    (s.settles q →
      rows.map .ok = Database.onPage q.page entries ∧
      (∀ i ≤ greatestCount,
        (elementAt q i).run s = (orMissing (lookup? entries i), s) ∧
        ((elementAt q i).run s = (.error .notFound, s) ↔ entries.length ≤ i)) ∧
      (start ≤ greatestCount →
        (first? q).run s = (lookup? entries start, s) ∧
        (first q).run s = (orMissing (lookup? entries start), s) ∧
        ((first? q).run s = (.ok none, s) ↔ entries.length ≤ start)) ∧
      (greatestCount < start → (first? q).run s = (.error (.refused .invalid), s)) ∧
      (entries.length ≤ greatestCount →
        ((∀ i ≤ greatestCount, (elementAt q i).run s = (orMissing (.ok rows[i]?), s)) ↔
          rows.length = entries.length)) ∧
      ((first? q).run s = (.ok rows.head?, s) ↔
        (q.limit = some 0 → start ≤ greatestCount ∧ entries.length ≤ start))) ∧
    (s.decides q →
      (∀ i ≤ greatestCount,
        (∃ arranged : List (Except Failure NamedRow), arranged.Perm entries ∧
          (elementAt q i).run s = (orMissing (lookup? arranged i), s)) ∧
        ((elementAt q i).run s = (.error .notFound, s) ↔ entries.length ≤ i)) ∧
      (start ≤ greatestCount →
        (∃ arranged : List (Except Failure NamedRow), arranged.Perm entries ∧
          (first? q).run s = (lookup? arranged start, s)) ∧
        ((first? q).run s = (.ok none, s) ↔ entries.length ≤ start))) := by
  intro q start
  have hq : q.SortsByNames := Query.sortsByNames_after t steps
  have listed : s.listed q = .ok rows := (Session.run_toList_eq_ok.1 h).1
  refine ⟨Session.settles_of_unordered hq, fun settled => ?_, fun decided => ?_⟩
  · obtain ⟨checked, page⟩ := Session.page_of_listed hq he settled listed
    have first?_run := Session.first?_eq hq he settled
    refine ⟨page, fun i hi => ⟨Session.elementAt_eq hq he settled hi, ?_⟩, fun inside => ?_,
      fun beyond => ?_, Session.elementAt_agrees_iff hq he settled listed, ?_⟩
    · rw [Session.elementAt_eq hq he settled hi, Prod.mk.injEq, and_iff_left rfl]
      exact Session.orMissing_eq_notFound he.ne_notFound
    · rw [if_pos inside] at first?_run
      refine ⟨first?_run, ?_, ?_⟩
      · have answer := Session.listed_one hq he settled q.offset
        rw [if_pos inside] at answer
        exact (Session.run_first s q).trans (by rw [← answer]; rfl)
      · rw [first?_run, Prod.mk.injEq, and_iff_left rfl]
        exact Session.lookup?_eq_ok_none
    · rw [if_neg (Nat.not_le.2 beyond)] at first?_run
      exact first?_run
    · rw [first?_run, Prod.mk.injEq, and_iff_left rfl]
      exact Session.first?_eq_iff checked page
  · exact ⟨fun i hi => Session.elementAt_arranged hq he decided hi,
      fun inside => Session.first?_arranged hq he decided inside⟩

namespace notebook

open Query (ofMapping)
open TableMapping (notes)

theorem skip_one : ∃ rows entries,
    (toList ((ofMapping notes).skip 1)).run notebook = (.ok rows, notebook) ∧
    notebook.Entries ((ofMapping notes).skip 1) entries ∧
    rows.length = 1 ∧ entries.length = 2 := by
  obtain ⟨⟨rows, hr⟩, decided⟩ := exists_listed (q := (ofMapping notes).skip 1)
    (p := ⟨some (-1), some 1⟩) rfl (by rfl) (by rfl) rfl
  have hq : ((ofMapping notes).skip 1).SortsByNames := Query.sortsByNames_after notes [.skip 1]
  obtain ⟨entries, he⟩ := Session.exists_entries hq hr decided
  have two : entries.length = 2 := by
    obtain ⟨stmt, columns, rows, hs, ha, rfl⟩ := he
    simpa using length_unpaged hs ha
  have settled := Session.settles_of_unordered (s := notebook) hq rfl
  have page := (Session.page_of_listed hq he settled hr).2
  refine ⟨rows, entries, by rw [Session.run_toList, hr], he, ?_, two⟩
  have length_eq := congrArg List.length page
  rw [Query.length_onPage, List.length_map, two] at length_eq
  exact length_eq

end notebook

theorem elementAt_ne_getElem_skip :
    ¬ ∀ (t : TableMapping) (steps : List Query.Step) (s : Session) (rows : List NamedRow),
      (toList ((Query.ofMapping t).after steps)).run s = (.ok rows, s) →
        (∀ i ≤ greatestCount, (elementAt ((Query.ofMapping t).after steps) i).run s =
          (orMissing (.ok rows[i]?), s)) ∧
        (first? ((Query.ofMapping t).after steps)).run s = (.ok rows.head?, s) := by
  intro h
  obtain ⟨rows, entries, hr, he, one, two⟩ := notebook.skip_one
  have hq := Query.sortsByNames_after .notes [.skip 1]
  have settled := Session.settles_of_unordered (s := notebook) hq rfl
  have listed : notebook.listed _ = .ok rows :=
    (Prod.mk.inj ((Session.run_toList _ _).symm.trans hr)).1
  have agree := (h .notes [.skip 1] notebook rows hr).1
  have bound : entries.length ≤ greatestCount := by rw [two]; decide
  have length_eq := (Session.elementAt_agrees_iff hq he settled listed bound).1 agree
  omega

theorem access_of_entries_notebook : ∃ rows entries,
    (toList ((Query.ofMapping .notes).after [.skip 1])).run notebook = (.ok rows, notebook) ∧
    notebook.Entries ((Query.ofMapping .notes).after [.skip 1]) entries ∧
    rows.map .ok = entries.drop 1 ∧
    (elementAt ((Query.ofMapping .notes).after [.skip 1]) 0).run notebook =
      (orMissing (lookup? entries 0), notebook) ∧
    (elementAt ((Query.ofMapping .notes).after [.skip 1]) 2).run notebook =
      (.error .notFound, notebook) ∧
    (first? ((Query.ofMapping .notes).after [.skip 1])).run notebook =
      (.ok rows.head?, notebook) := by
  obtain ⟨rows, entries, hr, he, one, two⟩ := notebook.skip_one
  obtain ⟨settled, access, _⟩ := access_of_entries .notes [.skip 1] notebook hr he
  obtain ⟨page, elements, _, _, _, first_iff⟩ := access (settled rfl)
  refine ⟨rows, entries, hr, he, page, (elements 0 (by decide)).1, ?_, first_iff.2 ?_⟩
  · exact (elements 2 (by decide)).2.2 two.le
  · intro h
    cases h

end Tabular
