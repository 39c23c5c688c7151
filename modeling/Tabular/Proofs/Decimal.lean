import Mathlib
import Tabular.Decimal

namespace Tabular.Text

def bytes (s : String) : List UInt8 := s.toUTF8.data.toList

theorem bytes_injective : Function.Injective bytes := fun _ _ h =>
  String.toByteArray_inj.1 (ByteArray.ext (Array.toList_inj.1 h))

def byte (c : Char) : UInt8 := UInt8.ofNat c.toNat

theorem bytes_ofList {s : List Char} (h : ∀ c ∈ s, c.toNat < 128) :
    bytes (String.ofList s) = s.map byte := by
  have encoded : bytes (String.ofList s) = s.flatMap String.utf8EncodeChar := by
    rw [bytes, String.toUTF8_eq_toByteArray, String.toByteArray_ofList, List.utf8Encode,
      List.data_toByteArray]
  rw [encoded, ← List.flatMap_singleton' (s.map byte), List.flatMap_map]
  exact List.flatMap_congr fun c hc => if_pos (Nat.le_of_lt_succ (h c hc))

end Tabular.Text

namespace Tabular.Decimal

variable {c : Char}

section Reading

variable {n : Int}

theorem ofInt_ne_nil (n : Int) : ofInt n ≠ [] := by
  unfold ofInt
  split
  · simp
  · exact digits_ne_nil _

theorem sign_or_digit (h : c ∈ ofInt n) : c = '-' ∨ c.isDigit := by
  unfold ofInt at h
  split at h
  · rcases List.mem_cons.1 h with rfl | h
    · exact .inl rfl
    · exact .inr (digits_isDigit h)
  · exact .inr (digits_isDigit h)

theorem int?_digits (n : Nat) : int? (digits n) = some (n : Int) := by
  obtain ⟨c, s, h⟩ := List.exists_cons_of_ne_nil (digits_ne_nil n)
  have digit : c.isDigit := digits_isDigit (h ▸ List.mem_cons_self)
  have minus : c ≠ '-' := by rintro rfl; cases digit
  have plus : c ≠ '+' := by rintro rfl; cases digit
  rw [h, int?, if_neg minus, if_neg plus, ← h, nat?_digits]
  rfl

@[simp] theorem int?_ofInt (n : Int) : int? (ofInt n) = some n := by
  unfold ofInt
  split
  · next negative =>
    have size : -(n.natAbs : Int) = n := by omega
    rw [int?, if_pos rfl, nat?_digits]
    exact congrArg some size
  · next nonneg => rw [int?_digits, Int.natAbs_of_nonneg (Int.not_lt.1 nonneg)]

end Reading

section Padded

variable {m n width : Nat} {s t : List UInt8}

theorem byte_digitChar_lt_iff (hm : m < 10) (hn : n < 10) :
    Text.byte m.digitChar < Text.byte n.digitChar ↔ m < n := by
  have all : ∀ m n : Fin 10, Text.byte (Nat.digitChar m) < Text.byte (Nat.digitChar n) ↔ m < n := by
    decide
  exact all ⟨m, hm⟩ ⟨n, hn⟩

theorem byte_digitChar_inj (hm : m < 10) (hn : n < 10) :
    Text.byte m.digitChar = Text.byte n.digitChar ↔ m = n := by
  have all : ∀ m n : Fin 10, Text.byte (Nat.digitChar m) = Text.byte (Nat.digitChar n) ↔ m = n := by
    decide
  exact (all ⟨m, hm⟩ ⟨n, hn⟩).trans Fin.mk.inj_iff

theorem padded_small (width n : Nat) : ∀ c ∈ padded width n, c.toNat < 128 := by
  intro c h
  rcases List.mem_append.1 h with h | h
  · rw [(List.mem_replicate.1 h).2]
    decide
  · have digit := digits_isDigit h
    simp only [Char.isDigit, Bool.and_eq_true, decide_eq_true_eq] at digit
    exact Nat.lt_of_le_of_lt (UInt32.le_iff_toNat_le.1 digit.2) (by decide)

theorem padded_one (h : n < 10) : padded 1 n = [n.digitChar] := by
  simp [padded, digits, Nat.toDigits_of_lt_base h, List.leftpad]

theorem padded_succ (h : 0 < width) (n : Nat) :
    padded (width + 1) n = padded width (n / 10) ++ [(n % 10).digitChar] := by
  rcases Nat.lt_or_ge n 10 with below | above
  · obtain ⟨width, rfl⟩ := Nat.exists_eq_add_of_le' h
    rw [Nat.div_eq_of_lt below, Nat.mod_eq_of_lt below]
    simp [padded, digits, Nat.toDigits_of_lt_base below, List.leftpad, List.replicate_succ']
  · have step : digits n = digits (n / 10) ++ [(n % 10).digitChar] :=
      Nat.toDigits_of_base_le (by decide) above
    simp [padded, step, List.leftpad]

theorem padded_append_le_iff (h : 0 < width) (hm : m < 10 ^ width) (hn : n < 10 ^ width) :
    (padded width m).map Text.byte ++ s ≤ (padded width n).map Text.byte ++ t ↔
      m < n ∨ m = n ∧ s ≤ t := by
  induction width, h using Nat.le_induction generalizing m n s t with
  | base =>
    rw [padded_one hm, padded_one hn]
    simp only [List.map_cons, List.map_nil, List.singleton_append, List.cons_le_cons_iff,
      byte_digitChar_lt_iff hm hn, byte_digitChar_inj hm hn]
  | succ width h ih =>
    have tens : m / 10 < 10 ^ width ∧ n / 10 < 10 ^ width := by
      rw [Nat.pow_succ] at hm hn
      omega
    have ones : m % 10 < 10 ∧ n % 10 < 10 := by omega
    simp only [padded_succ h, List.map_append, List.append_assoc, ih tens.1 tens.2, List.map_cons,
      List.map_nil, List.singleton_append, List.cons_le_cons_iff,
      byte_digitChar_lt_iff ones.1 ones.2, byte_digitChar_inj ones.1 ones.2]
    by_cases rest : s ≤ t <;> simp only [rest, and_true, and_false, or_false] <;> omega

end Padded

end Tabular.Decimal
