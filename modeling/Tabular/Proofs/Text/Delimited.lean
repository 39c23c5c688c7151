import Mathlib.Logic.Function.Defs
import Tabular.Text.Delimited

namespace Tabular.Text.Delimited

theorem mem_double {q c : Char} (s : List Char) : c ∈ double q s ↔ c ∈ s := by
  induction s with
  | nil => rfl
  | cons d s ih =>
    rw [double]
    split <;> simp_all

section Scan

variable {q : Char} {cs s t r u : List Char}

theorem scanBody_double (s : List Char) (hr : r.head? ≠ some q) :
    scanBody q (double q s ++ q :: r) = some (s, r) := by
  induction s with
  | nil =>
    cases r with
    | nil => simp [scanBody]
    | cons d r =>
      have hd : d ≠ q := fun h => hr (congrArg some h)
      simp [scanBody, hd]
  | cons c s ih =>
    rw [double]
    split
    · next h => simp [scanBody, h, ih]
    · next h =>
      obtain ⟨d, ds, hd⟩ := List.exists_cons_of_ne_nil (l := double q s ++ q :: r) (by simp)
      rw [List.cons_append, hd, scanBody, if_neg h, ← hd, ih]
      rfl

theorem scan_encode_append (s : List Char) (hr : r.head? ≠ some q) :
    scan q (encode q s ++ r) = some (s, r) := by
  have body := scanBody_double s hr
  simpa [encode, scan] using body

theorem scan_encode (q : Char) (s : List Char) : scan q (encode q s) = some (s, []) := by
  simpa using scan_encode_append (q := q) (r := []) s (by simp)

theorem encode_append_inj (hr : r.head? ≠ some q) (hu : u.head? ≠ some q)
    (h : encode q s ++ r = encode q t ++ u) : s = t ∧ r = u := by
  have read := scan_encode_append s hr
  rw [h, scan_encode_append t hu] at read
  cases read
  exact ⟨rfl, rfl⟩

theorem eq_of_scanBody (h : scanBody q cs = some (s, r)) :
    cs = double q s ++ q :: r ∧ r.head? ≠ some q := by
  fun_induction scanBody q cs generalizing s with
  | case1 => cases h
  | case2 =>
    cases h
    exact ⟨rfl, by simp⟩
  | case3 => cases h
  | case4 s' ih =>
    obtain ⟨⟨s, _⟩, hs, h⟩ := Option.map_eq_some_iff.1 h
    cases h
    obtain ⟨rfl, hr⟩ := ih hs
    exact ⟨by simp [double], hr⟩
  | case5 d s' hd =>
    cases h
    exact ⟨rfl, by simpa using hd⟩
  | case6 c d s' hc ih =>
    obtain ⟨⟨s, _⟩, hs, h⟩ := Option.map_eq_some_iff.1 h
    cases h
    obtain ⟨hd, hr⟩ := ih hs
    exact ⟨by simp [double, hc, hd], hr⟩

theorem scan_eq_some_iff :
    scan q cs = some (s, r) ↔ cs = encode q s ++ r ∧ r.head? ≠ some q := by
  refine ⟨fun h => ?_, fun ⟨hc, hr⟩ => hc ▸ scan_encode_append s hr⟩
  cases cs with
  | nil => cases h
  | cons c cs =>
    rw [scan] at h
    split at h
    · next hc =>
      obtain ⟨rfl, hr⟩ := eq_of_scanBody h
      exact ⟨by simp [encode, hc], hr⟩
    · cases h

end Scan

/-- Texts are written between two delimiters, with `front` before the opening one and `back` after
the closing one. -/
structure SelfDelimiting (q : Char) (front back : String) (write : String → String) : Prop where
  /-- From the opening delimiter on, the scanner reads the text and leaves what comes after the
  closing one. -/
  scans (s r : String) : (back ++ r).toList.head? ≠ some q →
    ∃ quotation, write s ++ r = front ++ quotation ∧
      scan q quotation.toList = some (s.toList, (back ++ r).toList)
  injective : Function.Injective write
  /-- A part that reads as a whole quotation is the one that was written, unless a delimiter follows
  and makes a pair with its last one. -/
  ends_once (s r quotation rest : String) (t : List Char) : (back ++ r).toList.head? ≠ some q →
    write s ++ r = front ++ (quotation ++ rest) → scan q quotation.toList = some (t, []) →
    rest.toList.head? ≠ some q → t = s.toList ∧ rest = back ++ r

theorem selfDelimiting_of_encode {q : Char} {front back : String} {write : String → String}
    (h : ∀ s, write s = front ++ (String.ofList (encode q s.toList) ++ back)) :
    SelfDelimiting q front back write where
  scans s r hr := by
    refine ⟨String.ofList (encode q s.toList) ++ (back ++ r), ?_, ?_⟩
    · rw [h, String.append_assoc, String.append_assoc]
    · simpa using scan_encode_append s.toList hr
  injective s t hst := by
    have texts : encode q s.toList ++ [] = encode q t.toList ++ [] := by
      simpa [h] using congrArg String.toList hst
    exact String.toList_injective (encode_append_inj (by simp) (by simp) texts).1
  ends_once s r quotation rest t hr hs ht hrest := by
    obtain ⟨hq, _⟩ := scan_eq_some_iff.1 ht
    have texts : encode q t ++ rest.toList = encode q s.toList ++ (back ++ r).toList := by
      simpa [h, hq] using (congrArg String.toList hs).symm
    obtain ⟨ht, hrest⟩ := encode_append_inj hrest hr texts
    exact ⟨ht, String.toList_injective hrest⟩

end Tabular.Text.Delimited
