import Tabular.Text.Basic

namespace Tabular.Text

variable {α β : Type}

/-- The second text is the first one with some occurrences of the pattern replaced. -/
inductive Replaced (pattern new : List α) : List α → List α → Prop
  | nil : Replaced pattern new [] []
  | keep {s s' : List α} (c : α) : Replaced pattern new s s' →
      Replaced pattern new (c :: s) (c :: s')
  | swap {s s' : List α} : Replaced pattern new s s' →
      Replaced pattern new (pattern ++ s) (new ++ s')

namespace Replaced

variable {pattern new s s' u u' : List α}

theorem refl (s : List α) : Replaced pattern new s s := by
  induction s with
  | nil => exact .nil
  | cons c s ih => exact .keep c ih

theorem append (h : Replaced pattern new s s') (hu : Replaced pattern new u u') :
    Replaced pattern new (s ++ u) (s' ++ u') := by
  induction h with
  | nil => exact hu
  | keep c _ ih => exact .keep c ih
  | swap _ ih => simpa using ih.swap

theorem map (f : α → β) (h : Replaced pattern new s s') :
    Replaced (pattern.map f) (new.map f) (s.map f) (s'.map f) := by
  induction h with
  | nil => exact .nil
  | keep c _ ih => exact .keep (f c) ih
  | swap _ ih => simpa using ih.swap

theorem eq_of_not_mem {c : α} (h : Replaced pattern new s s') (hc : c ∈ pattern) (hs : c ∉ s) :
    s' = s := by
  induction h with
  | nil => rfl
  | keep d _ ih => rw [ih fun h => hs (List.mem_cons_of_mem d h)]
  | swap _ => exact absurd (List.mem_append_left _ hc) hs

theorem length_le (hl : pattern.length ≤ new.length) (h : Replaced pattern new s s') :
    s.length ≤ s'.length := by
  induction h with
  | nil => exact Nat.le_refl _
  | keep c _ ih => exact Nat.succ_le_succ ih
  | swap _ ih =>
    rw [List.length_append, List.length_append]
    exact Nat.add_le_add hl ih

theorem cut {c : α} {a b : List α} (h : Replaced pattern new s s') (hc : c ∉ pattern)
    (hs : s = a ++ c :: b) :
    ∃ a' b', s' = a' ++ c :: b' ∧ Replaced pattern new a a' ∧ Replaced pattern new b b' := by
  induction h generalizing a with
  | nil => simp at hs
  | keep d h ih =>
    cases a with
    | nil =>
      cases hs
      exact ⟨[], _, rfl, .nil, h⟩
    | cons _ a =>
      cases hs
      obtain ⟨a', b', rfl, ha, hb⟩ := ih rfl
      exact ⟨d :: a', b', rfl, .keep d ha, hb⟩
  | swap _ ih =>
    obtain ⟨u, rfl, rest⟩ | ⟨u, hp, rest⟩ := List.append_eq_append_iff.1 hs
    · obtain ⟨a', b', rfl, ha, hb⟩ := ih rest
      exact ⟨new ++ a', b', by simp, .swap ha, hb⟩
    · cases u with
      | nil =>
        obtain ⟨a', b', rfl, ha, hb⟩ := ih (a := []) rest.symm
        exact ⟨new ++ a', b', by simp, by simpa [hp] using Replaced.swap ha, hb⟩
      | cons d u =>
        cases rest
        exact absurd (hp ▸ by simp) hc

end Replaced

section

variable [BEq α]

theorem replaceFrom_eq_replaceAll (pattern new : List α) (n : Nat) (s : List α) :
    replaceFrom pattern new n s = replaceAll pattern new (s.drop n) := by
  induction s generalizing n with
  | nil => simp [replaceFrom, replaceAll]
  | cons c s ih =>
    cases n with
    | zero => rfl
    | succ n => simpa [replaceFrom] using ih n

theorem replaceAll_cons {pattern : List α} {c : α} {s : List α}
    (h : pattern.isPrefixOf (c :: s) = false) (new : List α) :
    replaceAll pattern new (c :: s) = c :: replaceAll pattern new s := by
  simp [replaceAll, replaceFrom, h]

theorem replaceAll_append [LawfulBEq α] {pattern : List α} (h : pattern ≠ []) (new s : List α) :
    replaceAll pattern new (pattern ++ s) = new ++ replaceAll pattern new s := by
  cases pattern with
  | nil => exact absurd rfl h
  | cons p pattern =>
    have front : (p :: pattern).isPrefixOf (p :: (pattern ++ s)) :=
      List.isPrefixOf_iff_prefix.2 (List.prefix_append (p :: pattern) s)
    rw [List.cons_append, replaceAll, replaceFrom, if_pos front, replaceFrom_eq_replaceAll]
    simp

theorem replaced_replaceAll [LawfulBEq α] {pattern : List α} (h : pattern ≠ [])
    (new s : List α) : Replaced pattern new s (replaceAll pattern new s) := by
  match s with
  | [] => exact .nil
  | c :: s =>
    cases hp : pattern.isPrefixOf (c :: s) with
    | true =>
      obtain ⟨rest, hrest⟩ := List.isPrefixOf_iff_prefix.1 hp
      have hn : 0 < pattern.length := List.length_pos_iff.2 h
      have hlen : rest.length < (c :: s).length := by
        rw [← hrest, List.length_append]; omega
      rw [← hrest, replaceAll_append h]
      exact .swap (replaced_replaceAll h new rest)
    | false =>
      rw [replaceAll_cons hp]
      exact .keep c (replaced_replaceAll h new s)
termination_by s.length
decreasing_by
  · exact Nat.lt_succ_self _
  · exact hlen

theorem occurs_append [LawfulBEq α] (pattern s : List α) : occurs pattern (pattern ++ s) := by
  have front : pattern.isPrefixOf (pattern ++ s) :=
    List.isPrefixOf_iff_prefix.2 (List.prefix_append pattern s)
  cases h : pattern ++ s with
  | nil => simp [occurs, (List.append_eq_nil_iff.1 h).1]
  | cons c u => simp [occurs, ← h, front]

theorem occurs_append_right {pattern s : List α} (h : occurs pattern s) (u : List α) :
    occurs pattern (u ++ s) := by
  induction u with
  | nil => exact h
  | cons c u ih => simp [occurs, ih]

theorem Replaced.eq_of_not_occurs [LawfulBEq α] {pattern new s s' : List α}
    (h : Replaced pattern new s s') (ho : occurs pattern s = false) : s' = s := by
  induction h with
  | nil => rfl
  | keep c _ ih =>
    rw [occurs, Bool.or_eq_false_iff] at ho
    rw [ih ho.2]
  | swap _ =>
    rw [occurs_append] at ho
    cases ho

theorem replaceAll_eq_self [LawfulBEq α] {pattern s : List α} (h : pattern ≠ []) (new : List α)
    (ho : occurs pattern s = false) : replaceAll pattern new s = s :=
  (replaced_replaceAll h new s).eq_of_not_occurs ho

theorem exists_of_occurs [LawfulBEq α] {pattern s : List α} (h : pattern ≠ [])
    (ho : occurs pattern s) (new : List α) : ∃ front back, s = front ++ (pattern ++ back) ∧
      replaceAll pattern new s = front ++ (new ++ replaceAll pattern new back) := by
  induction s with
  | nil => exact absurd (List.isEmpty_iff.1 ho) h
  | cons c s ih =>
    cases hc : pattern.isPrefixOf (c :: s) with
    | true =>
      obtain ⟨back, hback⟩ := List.isPrefixOf_iff_prefix.1 hc
      exact ⟨[], back, hback.symm, by rw [← hback, replaceAll_append h]; rfl⟩
    | false =>
      rw [occurs, hc, Bool.false_or] at ho
      obtain ⟨front, back, hs, hr⟩ := ih ho
      exact ⟨c :: front, back, by rw [hs]; rfl, by rw [replaceAll_cons hc, hr]; rfl⟩

theorem occurs_eq_false_of_length [LawfulBEq α] {pattern new s : List α} (h : pattern ≠ [])
    (hl : pattern.length < new.length) (hs : (replaceAll pattern new s).length = s.length) :
    occurs pattern s = false := by
  refine Bool.eq_false_iff.2 fun ho => ?_
  obtain ⟨front, back, hparted, hr⟩ := exists_of_occurs h ho new
  have rest := (replaced_replaceAll h new back).length_le (Nat.le_of_lt hl)
  rw [hr, hparted] at hs
  simp only [List.length_append] at hs
  omega

end

theorem eq_of_differ {xs ys zs zs' us us' : List α} {x x' y y' : α} (hx : x ≠ x') (hy : y ≠ y')
    (h : xs ++ x :: zs = ys ++ y :: us) (h' : xs ++ x' :: zs' = ys ++ y' :: us') :
    xs = ys ∧ x = y := by
  induction xs generalizing ys with
  | nil =>
    cases ys with
    | nil => exact ⟨rfl, (List.cons.inj h).1⟩
    | cons b ys => exact absurd ((List.cons.inj h).1.trans (List.cons.inj h').1.symm) hx
  | cons a xs ih =>
    cases ys with
    | nil => exact absurd ((List.cons.inj h).1.symm.trans (List.cons.inj h').1) hy
    | cons b ys =>
      obtain ⟨hab, rest⟩ := List.cons_eq_cons.1 h
      obtain ⟨_, rest'⟩ := List.cons_eq_cons.1 h'
      obtain ⟨hys, hxy⟩ := ih rest rest'
      exact ⟨by rw [hab, hys], hxy⟩

section Map

variable [BEq α] [BEq β] {g : α → β} {k : β → α} {pattern : List β}

theorem isPrefixOf_map (h : ∀ c ∈ pattern, ∀ a, (k c == a) = (c == g a)) (s : List α) :
    (pattern.map k).isPrefixOf s = pattern.isPrefixOf (s.map g) := by
  induction pattern generalizing s with
  | nil => simp
  | cons c pattern ih =>
    cases s with
    | nil => rfl
    | cons a s =>
      simp [List.isPrefixOf_cons_cons, h c (by simp), ih fun c hc => h c (by simp [hc])]

theorem occurs_map (h : ∀ c ∈ pattern, ∀ a, (k c == a) = (c == g a)) (s : List α) :
    occurs (pattern.map k) s = occurs pattern (s.map g) := by
  induction s with
  | nil => cases pattern <;> rfl
  | cons a s ih =>
    simp only [List.map_cons, occurs, ih]
    rw [isPrefixOf_map h, List.map_cons]

theorem map_replaceAll {new : List β} (h : ∀ c ∈ pattern, ∀ a, (k c == a) = (c == g a))
    (hn : ∀ c ∈ new, g (k c) = c) (s : List α) :
    (replaceAll (pattern.map k) (new.map k) s).map g = replaceAll pattern new (s.map g) := by
  have hnew : (new.map k).map g = new := by
    rw [List.map_map]
    exact (List.map_congr_left hn).trans (List.map_id _)
  suffices ∀ n, (replaceFrom (pattern.map k) (new.map k) n s).map g =
      replaceFrom pattern new n (s.map g) from this 0
  induction s with
  | nil => intro n; rfl
  | cons a s ih =>
    intro n
    cases n with
    | zero =>
      simp only [replaceFrom, List.map_cons]
      rw [isPrefixOf_map h, List.map_cons, List.length_map]
      split
      · rw [List.map_append, hnew, ih]
      · rw [List.map_cons, ih]
    | succ n => exact ih n

end Map

end Tabular.Text
