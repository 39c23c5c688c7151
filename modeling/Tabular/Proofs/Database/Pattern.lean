import Mathlib.Data.List.Infix
import Tabular.Database.Function

namespace Tabular.Database

variable {accepts : List Char → Bool} {p q s t : List Char}

def isWildcard (c : Char) : Bool := c = '%' || c = '_'

theorem anyTail_iff : anyTail accepts s ↔ ∃ t, t <:+ s ∧ accepts t := by
  induction s with
  | nil => simp [anyTail]
  | cons c s ih =>
    rw [anyTail, Bool.or_eq_true, ih]
    constructor
    · rintro (h | ⟨t, ht, h⟩)
      · exact ⟨_, List.suffix_refl _, h⟩
      · exact ⟨t, ht.trans (List.suffix_cons c s), h⟩
    · rintro ⟨t, ht, h⟩
      obtain rfl | ht := List.suffix_cons_iff.1 ht
      · exact .inl h
      · exact .inr ⟨t, ht, h⟩

theorem matchesPattern_percent : matchesPattern ('%' :: p) s ↔
    ∃ t, t <:+ s ∧ matchesPattern p t := by
  rw [matchesPattern.eq_def]
  exact anyTail_iff

theorem matchesPattern_cons {c d : Char} (hc : c ≠ '%') : matchesPattern (c :: p) (d :: s) =
    ((c == '_' || Text.foldChar c == Text.foldChar d) && matchesPattern p s) := by
  rw [matchesPattern, if_neg hc]

theorem matchesPattern_append (plain : ∀ c ∈ p, isWildcard c = false) :
    matchesPattern (p ++ q) s ↔
      ∃ t u, s = t ++ u ∧ t.map Text.foldChar = p.map Text.foldChar ∧ matchesPattern q u := by
  induction p generalizing s with
  | nil =>
    constructor
    · exact fun h => ⟨[], s, rfl, rfl, h⟩
    · rintro ⟨t, u, rfl, ht, h⟩
      rwa [List.map_eq_nil_iff.1 ht]
  | cons c p ih =>
    have hc : c ≠ '%' ∧ c ≠ '_' := by simpa [isWildcard] using plain c List.mem_cons_self
    specialize @ih
    cases s with
    | nil =>
      rw [List.cons_append, matchesPattern, if_neg hc.1]
      simp
    | cons d s =>
      rw [List.cons_append, matchesPattern_cons hc.1, beq_false_of_ne hc.2, Bool.false_or,
        Bool.and_eq_true, beq_iff_eq, ih fun x hx => plain x (List.mem_cons_of_mem c hx)]
      constructor
      · rintro ⟨same, t, u, rfl, ht, h⟩
        exact ⟨d :: t, u, rfl, by rw [List.map_cons, List.map_cons, ht, same], h⟩
      · rintro ⟨t, u, hs, ht, h⟩
        cases t with
        | nil => cases ht
        | cons e t =>
          obtain ⟨rfl, rfl⟩ := List.cons.inj hs
          obtain ⟨same, ht⟩ := List.cons.inj ht
          exact ⟨same.symm, t, u, rfl, ht, h⟩

section Folded

variable (plain : ∀ c ∈ p, isWildcard c = false)

include plain

theorem matchesPattern_start : matchesPattern (p ++ ['%']) s ↔
    p.map Text.foldChar <+: s.map Text.foldChar := by
  rw [matchesPattern_append plain]
  constructor
  · rintro ⟨t, u, rfl, ht, _⟩
    exact ⟨u.map Text.foldChar, by rw [List.map_append, ht]⟩
  · rintro ⟨u, hu⟩
    obtain ⟨t, v, rfl, ht, rfl⟩ := List.map_eq_append_iff.1 hu.symm
    exact ⟨t, v, rfl, ht, matchesPattern_percent.2 ⟨[], List.nil_suffix, rfl⟩⟩

theorem matchesPattern_end : matchesPattern ('%' :: p) s ↔
    p.map Text.foldChar <:+ s.map Text.foldChar := by
  rw [matchesPattern_percent]
  constructor
  · rintro ⟨w, ⟨v, rfl⟩, h⟩
    rw [← List.append_nil p, matchesPattern_append plain] at h
    obtain ⟨t, u, rfl, ht, h⟩ := h
    rw [List.isEmpty_iff.1 h]
    exact ⟨v.map Text.foldChar, by simp [ht]⟩
  · rintro ⟨v, hv⟩
    obtain ⟨u, t, rfl, rfl, ht⟩ := List.map_eq_append_iff.1 hv.symm
    refine ⟨t, List.suffix_append u t, ?_⟩
    rw [← List.append_nil p, matchesPattern_append plain]
    exact ⟨t, [], (List.append_nil t).symm, ht, rfl⟩

theorem matchesPattern_part : matchesPattern ('%' :: (p ++ ['%'])) s ↔
    p.map Text.foldChar <:+: s.map Text.foldChar := by
  rw [matchesPattern_percent]
  constructor
  · rintro ⟨w, ⟨v, rfl⟩, h⟩
    obtain ⟨u, hu⟩ := (matchesPattern_start plain).1 h
    exact ⟨v.map Text.foldChar, u, by rw [List.append_assoc, hu, List.map_append]⟩
  · rintro ⟨v, u, h⟩
    rw [List.append_assoc] at h
    obtain ⟨v', w, rfl, rfl, hw⟩ := List.map_eq_append_iff.1 h.symm
    exact ⟨w, List.suffix_append v' w, (matchesPattern_start plain).2 ⟨u, hw.symm⟩⟩

end Folded

def unwild (c : Char) : Char := if isWildcard c then 'a' else c

theorem matchesPattern_unwild (h : matchesPattern q t) :
    matchesPattern (p ++ q) (p.map unwild ++ t) := by
  induction p with
  | nil => exact h
  | cons c p ih =>
    rw [List.cons_append, List.map_cons, List.cons_append]
    by_cases percent : c = '%'
    · subst percent
      exact matchesPattern_percent.2 ⟨_, List.suffix_cons _ _, ih⟩
    · rw [matchesPattern_cons percent, ih, Bool.and_true, Bool.or_eq_true]
      by_cases wild : c = '_'
      · exact .inl (beq_iff_eq.2 wild)
      · simp [unwild, isWildcard, percent, wild]

theorem not_isWildcard_of_infix (h : p.map Text.foldChar <:+: (p.map unwild).map Text.foldChar) :
    ∀ c ∈ p, isWildcard c = false := by
  have same := h.eq_of_length (by simp)
  rw [List.map_map, List.map_inj_left] at same
  intro c hc
  by_contra wild
  have folded := same c hc
  rw [Bool.not_eq_false] at wild
  rw [Function.comp_apply, unwild, if_pos wild] at folded
  obtain rfl | rfl : c = '%' ∨ c = '_' := by simpa [isWildcard] using wild
  · exact absurd folded (by decide)
  · exact absurd folded (by decide)

end Tabular.Database
