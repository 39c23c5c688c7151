import Tabular.Proofs.Text.Replace
import Tabular.Text.Delimited

namespace Tabular.Text

variable {α : Type} [BEq α] [LawfulBEq α] {pattern new : List α} {z : α}

theorem isPrefixOf_append_cons (hz : z ∉ pattern) (xs ys : List α) :
    pattern.isPrefixOf (xs ++ z :: ys) = pattern.isPrefixOf xs := by
  induction pattern generalizing xs with
  | nil => simp
  | cons p pattern ih =>
    rw [List.mem_cons, not_or] at hz
    cases xs with
    | nil =>
      have hp : (p == z) = false := beq_false_of_ne (Ne.symm hz.1)
      simp [List.isPrefixOf_cons_cons, hp]
    | cons x xs => simp [List.isPrefixOf_cons_cons, ih hz.2]

theorem occurs_append_cons (hp : pattern ≠ []) (hz : z ∉ pattern) (xs ys : List α) :
    occurs pattern (xs ++ z :: ys) = (occurs pattern xs || occurs pattern ys) := by
  induction xs with
  | nil =>
    cases pattern with
    | nil => exact absurd rfl hp
    | cons p pattern =>
      have front : (p :: pattern).isPrefixOf (z :: ys) = false := isPrefixOf_append_cons hz [] ys
      simp only [List.nil_append, occurs, front]
      rfl
  | cons x xs ih =>
    have front := isPrefixOf_append_cons hz (x :: xs) ys
    rw [List.cons_append] at front
    rw [List.cons_append, occurs, occurs, front, ih, Bool.or_assoc]

theorem replaceAll_append_cons (hp : pattern ≠ []) (hz : z ∉ pattern) (xs ys : List α) :
    replaceAll pattern new (xs ++ z :: ys) =
      replaceAll pattern new xs ++ z :: replaceAll pattern new ys := by
  match xs with
  | [] =>
    have front : pattern.isPrefixOf (z :: ys) = false := by
      cases pattern with
      | nil => exact absurd rfl hp
      | cons p pattern => exact isPrefixOf_append_cons hz [] ys
    rw [List.nil_append, replaceAll_cons front]
    rfl
  | x :: xs =>
    have front := isPrefixOf_append_cons hz (x :: xs) ys
    rw [List.cons_append] at front
    cases h : pattern.isPrefixOf (x :: xs) with
    | false =>
      rw [h] at front
      rw [replaceAll_cons h, List.cons_append, replaceAll_cons front,
        replaceAll_append_cons hp hz xs ys, List.cons_append]
    | true =>
      obtain ⟨rest, hrest⟩ := List.isPrefixOf_iff_prefix.1 h
      have shorter : rest.length < (x :: xs).length := by
        have := List.length_pos_iff.2 hp
        rw [← hrest, List.length_append]
        omega
      rw [← hrest, List.append_assoc, replaceAll_append hp, replaceAll_append hp,
        replaceAll_append_cons hp hz rest ys, List.append_assoc]
termination_by xs.length
decreasing_by
  · exact Nat.lt_succ_self _
  · exact shorter

theorem isPrefixOf_double {pattern : List Char} {q : Char} (hq : q ∉ pattern) (s : List Char) :
    pattern.isPrefixOf (Delimited.double q s) = pattern.isPrefixOf s := by
  induction pattern generalizing s with
  | nil => simp
  | cons p pattern ih =>
    rw [List.mem_cons, not_or] at hq
    cases s with
    | nil => rfl
    | cons c s =>
      rw [Delimited.double]
      split
      · next hc =>
        have hp : (p == q) = false := beq_false_of_ne (Ne.symm hq.1)
        simp [List.isPrefixOf_cons_cons, hc, hp]
      · simp [List.isPrefixOf_cons_cons, ih hq.2]

theorem occurs_double {pattern : List Char} {q : Char} (hp : pattern ≠ []) (hq : q ∉ pattern)
    (s : List Char) : occurs pattern (Delimited.double q s) = occurs pattern s := by
  induction s with
  | nil => rfl
  | cons c s ih =>
    have front := isPrefixOf_double hq (c :: s)
    rw [Delimited.double] at front ⊢
    split
    · next hc =>
      have pair := occurs_append_cons hp hq [] (q :: Delimited.double q s)
      have single := occurs_append_cons hp hq [] (Delimited.double q s)
      have once := occurs_append_cons hp hq [] s
      rw [List.nil_append] at pair single once
      rw [pair, single, hc, once, ih]
      cases occurs pattern [] <;> rfl
    · next hc =>
      rw [if_neg hc] at front
      rw [occurs, occurs, front, ih]

end Tabular.Text
