import Tabular.Text.Basic

namespace Tabular.Text

variable {left s right : List Char} {c : Char}

theorem isBlank_of_isDigit (h : c.isDigit) : isBlank c = false := by
  have low : 48 ≤ c.toNat := (Char.isDigit_iff_toNat.1 h).1
  have high : c.toNat ≤ 57 := (Char.isDigit_iff_toNat.1 h).2
  have apart : ∀ r ∈ blankRanges, r.2 < 48 ∨ 57 < r.1 := by decide
  rw [isBlank, Bool.eq_false_iff, ne_eq, inRanges_iff]
  rintro ⟨r, hr, inside⟩
  have := apart r hr
  omega

theorem trimLeft_append (hl : ∀ c ∈ left, isBlank c) : trimLeft (left ++ s) = trimLeft s := by
  rw [trimLeft, List.dropWhile_append_of_pos hl, trimLeft]

theorem trimLeft_eq_self (h : ∀ c ∈ s.head?, isBlank c = false) : trimLeft s = s := by
  cases s with
  | nil => rfl
  | cons c s => rw [trimLeft, List.dropWhile_cons, if_neg (by simp [h c rfl])]

theorem trimRight_eq (s : List Char) : trimRight s = (trimLeft s.reverse).reverse := rfl

theorem trim_surrounded (hl : ∀ c ∈ left, isBlank c) (hr : ∀ c ∈ right, isBlank c) (ne : s ≠ [])
    (hs : ∀ c ∈ s, isBlank c = false) : trim (left ++ s ++ right) = s := by
  have first : ∀ c ∈ (s ++ right).head?, isBlank c = false := by
    obtain ⟨a, s, rfl⟩ := List.exists_cons_of_ne_nil ne
    rintro c ⟨⟩
    exact hs a List.mem_cons_self
  have last : ∀ c ∈ s.reverse.head?, isBlank c = false :=
    fun c hc => hs c (List.mem_reverse.1 (List.mem_of_head? hc))
  rw [trim, List.append_assoc, trimLeft_append hl, trimLeft_eq_self first, trimRight_eq,
    List.reverse_append, trimLeft_append (by simpa using hr), trimLeft_eq_self last,
    List.reverse_reverse]

end Tabular.Text
