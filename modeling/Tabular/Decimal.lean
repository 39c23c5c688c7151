namespace Tabular.Decimal

def digits (n : Nat) : List Char := Nat.toDigits 10 n

def padded (width n : Nat) : List Char := (digits n).leftpad width '0'

def ofInt (n : Int) : List Char :=
  if n < 0 then '-' :: digits n.natAbs else digits n.natAbs

def nat? (s : List Char) : Option Nat :=
  if s ≠ [] ∧ s.all Char.isDigit then some (Nat.ofDigitChars 10 s 0) else none

def int? : List Char → Option Int
  | [] => none
  | c :: s =>
    if c = '-' then (nat? s).map fun n => -(n : Int)
    else if c = '+' then (nat? s).map Int.ofNat
    else (nat? (c :: s)).map Int.ofNat

def toInt64? (n : Int) : Option Int64 :=
  if Int64.minValue.toInt ≤ n ∧ n ≤ Int64.maxValue.toInt then some (Int64.ofInt n) else none

theorem toInt64?_eq_some {n : Int} {t : Int64} : toInt64? n = some t ↔ t.toInt = n := by
  have low : Int64.minValue.toInt = -2 ^ 63 := by decide
  have high : Int64.maxValue.toInt = 2 ^ 63 - 1 := by decide
  unfold toInt64?
  rw [low, high]
  constructor
  · intro h
    split at h
    · next inside =>
      cases h
      exact Int64.toInt_ofInt_of_le inside.1 (by omega)
    · cases h
  · rintro rfl
    have := t.le_toInt
    have := t.toInt_lt
    rw [if_pos (by omega), Int64.ofInt_toInt]

theorem digits_isDigit {n : Nat} {c : Char} (h : c ∈ digits n) : c.isDigit = true :=
  Nat.isDigit_of_mem_toDigits (by decide) (by decide) h

theorem digits_ne_nil (n : Nat) : digits n ≠ [] := Nat.toDigits_ne_nil

@[simp] theorem nat?_digits (n : Nat) : nat? (digits n) = some n := by
  have h : (digits n).all Char.isDigit = true := by
    simp only [List.all_eq_true]
    exact fun c hc => digits_isDigit hc
  have v : Nat.ofDigitChars 10 (digits n) 0 = n := Nat.ofDigitChars_ten_toDigits
  simp [nat?, digits_ne_nil, h, v]

end Tabular.Decimal
