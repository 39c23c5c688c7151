namespace Tabular.Text

def inRanges (ranges : List (Nat × Nat)) (c : Char) : Bool :=
  ranges.any fun r => r.1 ≤ c.toNat && c.toNat ≤ r.2

theorem inRanges_iff {ranges : List (Nat × Nat)} {c : Char} :
    inRanges ranges c = true ↔ ∃ r ∈ ranges, r.1 ≤ c.toNat ∧ c.toNat ≤ r.2 := by
  simp [inRanges]

def blankRanges : List (Nat × Nat) :=
  [(0x9, 0xd), (0x20, 0x20), (0x85, 0x85), (0xa0, 0xa0), (0x1680, 0x1680), (0x2000, 0x200a),
   (0x2028, 0x2029), (0x202f, 0x202f), (0x205f, 0x205f), (0x3000, 0x3000)]

def isBlank (c : Char) : Bool := inRanges blankRanges c

def trimLeft (s : List Char) : List Char := s.dropWhile isBlank

def trimRight (s : List Char) : List Char := (s.reverse.dropWhile isBlank).reverse

def trim (s : List Char) : List Char := trimRight (trimLeft s)

def foldChar (c : Char) : Char :=
  if 'A' ≤ c ∧ c ≤ 'Z' then Char.ofNat (c.toNat + 32) else c

def fold (s : String) : String := String.ofList (s.toList.map foldChar)

def sameName (s t : String) : Bool := fold s == fold t

def startsWithName (s b : String) : Bool :=
  (b.toList.map foldChar).isPrefixOf (s.toList.map foldChar)

def endsWithName (s e : String) : Bool :=
  (e.toList.map foldChar).isSuffixOf (s.toList.map foldChar)

section Occurrence

variable {α : Type} [BEq α]

def occurs (pattern : List α) : List α → Bool
  | [] => pattern.isEmpty
  | c :: s => pattern.isPrefixOf (c :: s) || occurs pattern s

/-- Every occurrence of `pattern`, searched from the left and without overlap, gives way to
`new`. The counter holds how many characters of the last occurrence are still to be passed. -/
def replaceFrom (pattern new : List α) : Nat → List α → List α
  | _, [] => []
  | 0, c :: s =>
    if pattern.isPrefixOf (c :: s) then new ++ replaceFrom pattern new (pattern.length - 1) s
    else c :: replaceFrom pattern new 0 s
  | n + 1, _ :: s => replaceFrom pattern new n s

def replaceAll (pattern new s : List α) : List α := replaceFrom pattern new 0 s

end Occurrence

end Tabular.Text
