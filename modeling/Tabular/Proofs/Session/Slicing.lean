import Tabular.Proofs.Session.Paging

namespace Tabular

namespace Session

open Database (checkPage greatestCount onPage)

variable {s : Session} {q : Query} {rows : List NamedRow}

theorem mapM_decoded_eq_ok {α : Type} {decode : List Datum → Except Failure α}
    {xs : List (Except Database.Refusal (List Datum))} {ys : List α} :
    xs.mapM (decoded decode) = .ok ys ↔
      ∃ found : List (List Datum), xs = found.map .ok ∧ found.map decode = ys.map .ok := by
  constructor
  · intro h
    have pairs := mapM_eq_ok.1 h
    clear h
    induction pairs with
    | nil => exact ⟨[], rfl, rfl⟩
    | @cons x y xs ys hx hxs ih =>
      obtain ⟨found, rfl, decodes⟩ := ih
      cases x with
      | ok row => exact ⟨row :: found, rfl, congrArg₂ List.cons hx decodes⟩
      | error refusal => cases hx
  · rintro ⟨found, rfl, decodes⟩
    rw [mapM_decoded, mapM_id_eq_ok, decodes]

theorem unpaged_eq (hl : q.limit = none) (ho : q.offset = none) : q.unpaged = q := by
  cases q
  cases hl
  cases ho
  rfl

theorem entries_of_listed (h : s.listed q = .ok rows) (hl : q.limit = none)
    (ho : q.offset = none) : s.Entries q (rows.map .ok) := by
  simp only [listed, bind_eq_ok, mapError_eq_ok, mapM_decoded_eq_ok] at h
  obtain ⟨stmt, hs, ⟨columns, _⟩, ha, found, rfl, decodes⟩ := h
  exact ⟨stmt, columns, found, by rw [unpaged_eq hl ho, hs], ha, decodes.symm⟩

def InRange (limit offset : Option Nat) : Prop :=
  limit = some 0 ∨ limit.getD 0 ≤ greatestCount ∧ offset.getD 0 ≤ greatestCount

instance (limit offset : Option Nat) : Decidable (InRange limit offset) :=
  inferInstanceAs (Decidable (_ ∨ _))

theorem inRange_some_some {n k : Nat} :
    InRange (some n) (some k) ↔ n = 0 ∨ n ≤ greatestCount ∧ k ≤ greatestCount := by
  simp [InRange]

theorem inRange_none_some {k : Nat} : InRange none (some k) ↔ k ≤ greatestCount := by
  simp [InRange]

theorem inRange_some_none {n : Nat} : InRange (some n) none ↔ n ≤ greatestCount := by
  rw [InRange, Option.some.injEq, Option.getD_some, Option.getD_none, and_iff_left (Nat.zero_le _)]
  refine or_iff_right_of_imp ?_
  rintro rfl
  exact Nat.zero_le _

section Unlimited

variable (hq : q.SortsByNames) (h : s.listed q = .ok rows) (hl : q.limit = none)
  (ho : q.offset = none)

include hq h hl ho

theorem listed_slice (steady : s.steady q) (limit offset : Option Nat) :
    s.listed (q.paged limit offset) =
      if InRange limit offset then .ok (onPage (q.paged limit offset).page rows)
      else .error (.refused .invalid) := by
  have range : checkPage (q.paged limit offset).page =
      if InRange limit offset then .ok () else .error .invalid := checkPage_page _
  rw [listed_paged hq (entries_of_listed h hl ho) steady, range, onPage_map,
    Database.mapM_id_ok]
  split <;> rfl

theorem listed_slice_arranged (decided : s.decides q) {limit offset : Option Nat}
    (inside : InRange limit offset) : ∃ arranged : List NamedRow, arranged.Perm rows ∧
      s.listed (q.paged limit offset) = .ok (onPage (q.paged limit offset).page arranged) := by
  have range : checkPage (q.paged limit offset).page = .ok () := by
    rw [checkPage_page]
    exact if_pos inside
  obtain ⟨entries, perm, listed⟩ :=
    listed_arranged hq (entries_of_listed h hl ho) decided range
  obtain ⟨arranged, readable, perm⟩ := exists_mapM_of_perm perm (Database.mapM_id_ok rows)
  rw [mapM_id_eq_ok.1 readable, onPage_map, Database.mapM_id_ok] at listed
  exact ⟨arranged, perm, listed⟩

end Unlimited

end Session

open Session (InRange toList)
open Database (greatestCount onPage)

theorem slices_of_listed (t : TableMapping) (steps : List Query.Step) (s : Session)
    {rows : List NamedRow} (hl : ((Query.ofMapping t).after steps).limit = none)
    (ho : ((Query.ofMapping t).after steps).offset = none)
    (h : (toList ((Query.ofMapping t).after steps)).run s = (.ok rows, s)) :
    let q := (Query.ofMapping t).after steps
    (q.orderings = [] ∨ s.settles q → s.steady q) ∧
    (s.steady q → ∀ n k : Nat,
      (toList ((q.take n).skip k)).run s =
        (if n = 0 ∨ n ≤ greatestCount ∧ k ≤ greatestCount then .ok ((rows.drop k).take n)
          else .error (.refused .invalid), s) ∧
      (toList (q.skip k)).run s =
        (if k ≤ greatestCount then .ok (rows.drop k) else .error (.refused .invalid), s) ∧
      (toList (q.take n)).run s =
        (if n ≤ greatestCount then .ok (rows.take n) else .error (.refused .invalid), s)) ∧
    (s.decides q → ∀ limit offset, InRange limit offset →
      ∃ arranged : List NamedRow, arranged.Perm rows ∧
        (toList (q.paged limit offset)).run s =
          (.ok (onPage (q.paged limit offset).page arranged), s)) := by
  intro q
  have hq : q.SortsByNames := Query.sortsByNames_after t steps
  have listed : s.listed q = .ok rows := (Session.run_toList_eq_ok.1 h).1
  refine ⟨?_, fun steady n k => ?_, fun decided limit offset inside => ?_⟩
  · rintro (unordered | settled)
    · exact (Session.settles_of_unordered hq unordered).steady
    · exact settled.steady
  · have slice (limit offset : Option Nat) : (toList (q.paged limit offset)).run s =
        (if InRange limit offset then .ok (onPage (q.paged limit offset).page rows)
          else .error (.refused .invalid), s) := by
      rw [Session.run_toList, Session.listed_slice hq listed hl ho steady]
    have skipped : q.skip k = q.paged none (some k) := by rw [Query.skip, Query.paged, ← hl]
    have taken : q.take n = q.paged (some n) none := by rw [Query.take, Query.paged, ← ho]
    refine ⟨?_, ?_, ?_⟩
    · exact (slice (some n) (some k)).trans (by simp only [Session.inRange_some_some]; rfl)
    · rw [skipped, slice]
      simp only [Session.inRange_none_some]
      rfl
    · rw [taken, slice]
      simp only [Session.inRange_some_none]
      rfl
  · obtain ⟨arranged, perm, slice⟩ :=
      Session.listed_slice_arranged hq listed hl ho decided inside
    exact ⟨arranged, perm, by rw [Session.run_toList, slice]⟩

namespace notebook

open Query (ofMapping)
open TableMapping (notes)

theorem listed_notes : ∃ rows, notebook.listed (ofMapping notes) = .ok rows ∧ rows.length = 2 ∧
    notebook.steady (ofMapping notes) := by
  obtain ⟨⟨rows, hr⟩, _⟩ := exists_listed (q := ofMapping notes) rfl (by rfl) (by rfl) rfl
  obtain ⟨stmt, a, hs, ha, length_eq⟩ := notebook.listed_eq_ok hr
  have sorted : (ofMapping notes).SortsByNames := Query.sortsByNames_after notes []
  exact ⟨rows, hr, length_eq.symm.trans (length_unpaged hs ha),
    (Session.settles_of_unordered sorted rfl).steady⟩

end notebook

theorem slices_refused :
    ¬ ∀ (t : TableMapping) (steps : List Query.Step) (s : Session) (rows : List NamedRow),
      let q := (Query.ofMapping t).after steps
      q.limit = none → q.offset = none → s.steady q → (toList q).run s = (.ok rows, s) →
        ∀ n k : Nat, n < UInt64.size → k < UInt64.size →
          (toList ((q.take n).skip k)).run s = (.ok ((rows.drop k).take n), s) ∧
          (toList (q.skip k)).run s = (.ok (rows.drop k), s) ∧
          (toList (q.take n)).run s = (.ok (rows.take n), s) := by
  intro h
  obtain ⟨rows, hr, _, steady⟩ := notebook.listed_notes
  obtain ⟨_, _, taken⟩ := h .notes [] notebook rows rfl rfl steady
    (Session.run_toList_eq_ok.2 ⟨hr, rfl⟩) (greatestCount + 1) 0
    (by decide) (by decide)
  have sorted := Query.sortsByNames_after .notes []
  have refused := Session.listed_slice sorted hr rfl rfl steady (some (greatestCount + 1)) none
  rw [if_neg (mt Session.inRange_some_none.1 (by decide))] at refused
  cases refused.symm.trans (Session.run_toList_eq_ok.1 taken).1

theorem slices_of_listed_notebook : ∃ rows, rows.length = 2 ∧
    (toList ((Query.ofMapping .notes).after [])).run notebook = (.ok rows, notebook) ∧
    (toList (((Query.ofMapping .notes).take 1).skip 1)).run notebook =
      (.ok ((rows.drop 1).take 1), notebook) ∧
    (toList ((Query.ofMapping .notes).skip 2)).run notebook = (.ok [], notebook) ∧
    (toList ((Query.ofMapping .notes).skip (greatestCount + 1))).run notebook =
      (.error (.refused .invalid), notebook) := by
  obtain ⟨rows, hr, two, _⟩ := notebook.listed_notes
  have run : (toList ((Query.ofMapping .notes).after [])).run notebook = (.ok rows, notebook) := by
    rw [Session.run_toList]
    exact congrArg (·, notebook) hr
  obtain ⟨settled, slices, _⟩ := slices_of_listed .notes [] notebook rfl rfl run
  have slices := slices (settled (.inl rfl))
  have none_left : rows.drop 2 = [] := List.drop_eq_nil_of_le two.le
  refine ⟨rows, two, run, (slices 1 1).1, ?_, (slices 0 (greatestCount + 1)).2.1⟩
  exact none_left ▸ (slices 0 2).2.1

end Tabular
