import Mathlib.Data.List.Basic
import Tabular.Proofs.Text.Replace

namespace Tabular.Text

variable {α β : Type} {p q : α → Prop} {xs ys : List α}

def Ends (p : α → Prop) (xs : List α) : Prop := ∃ x ∈ xs.getLast?, p x

theorem ends_append_singleton (xs : List α) {x : α} (h : p x) : Ends p (xs ++ [x]) :=
  ⟨x, by simp, h⟩

theorem Ends.append (xs : List α) (h : Ends p ys) : Ends p (xs ++ ys) := by
  obtain ⟨x, hx, hp⟩ := h
  exact ⟨x, by simp [Option.mem_def.1 hx], hp⟩

theorem Ends.of_suffix (h : Ends p xs) (hs : ys <:+ xs) (hy : ys ≠ []) : Ends p ys := by
  obtain ⟨zs, rfl⟩ := hs
  obtain ⟨x, hx, hp⟩ := h
  rw [List.getLast?_append, List.getLast?_eq_some_getLast hy, Option.some_or,
    ← List.getLast?_eq_some_getLast hy] at hx
  exact ⟨x, hx, hp⟩

theorem ends_map {p : β → Prop} {f : α → β} : Ends p (xs.map f) ↔ Ends (fun x => p (f x)) xs := by
  simp [Ends]

theorem ends_intercalate (sep : List α) {items : List (List α)} (hn : items ≠ [])
    (h : ∀ xs ∈ items, Ends p xs) : Ends p (sep.intercalate items) := by
  induction items with
  | nil => exact absurd rfl hn
  | cons a items ih =>
    cases items with
    | nil => simpa using h a (by simp)
    | cons b items =>
      rw [List.intercalate_cons_cons]
      exact .append _ (ih (by simp) fun xs hx => h xs (by simp [hx]))

theorem Replaced.ends {pattern new s s' : List α} (h : Replaced pattern new s s')
    (hl : new.getLast? = pattern.getLast?) (he : Ends p s) : Ends p s' := by
  have last : s'.getLast? = s.getLast? := by
    clear he
    induction h with
    | nil => rfl
    | keep c _ ih => rw [List.getLast?_cons, List.getLast?_cons, ih]
    | swap _ ih => rw [List.getLast?_append, List.getLast?_append, ih, hl]
  obtain ⟨x, hx, hp⟩ := he
  exact ⟨x, last ▸ hx, hp⟩

end Tabular.Text
