import Tabular.Proofs.Sql.Marked
import Tabular.Text.Delimited

namespace Tabular.Sql

open Text (Delimited.double Delimited.encode)

/-- The brackets and the quotation that a character stands in. -/
structure Nesting where
  depth : Nat := 0
  quoting : Quoting := .outside
  deriving DecidableEq

def Nesting.next (n : Nesting) (c : Char) : Nesting where
  depth :=
    if n.quoting ≠ .outside then n.depth
    else if c = '(' then n.depth + 1
    else if c = ')' then n.depth - 1
    else n.depth
  quoting := n.quoting.next c

def pieces (sep : Char) : Nesting → List Char → List (List Char)
  | _, [] => [[]]
  | n, c :: cs =>
    if n = {} ∧ c = sep then [] :: pieces sep n cs
    else (pieces sep (n.next c) cs).modifyHead (c :: ·)

def isPlain (c : Char) : Bool := c != '"' && c != '\x27' && c != '(' && c != ')'

def isQuote (c : Char) : Prop := c = '"' ∨ c = '\x27'

/-- Quotations and brackets are closed, and the characters outside of them are as given. -/
inductive Closed : (Char → Prop) → List Char → Prop
  | nil {p : Char → Prop} : Closed p []
  | cons {p : Char → Prop} {c : Char} {cs : List Char} :
      isPlain c → p c → Closed p cs → Closed p (c :: cs)
  | quotation {p : Char → Prop} {delimiter : Char} (s : List Char) {cs : List Char} :
      isQuote delimiter → Closed p cs → Closed p (Delimited.encode delimiter s ++ cs)
  | brackets {p : Char → Prop} {cs ds : List Char} :
      Closed (fun _ => True) cs → Closed p ds → Closed p ('(' :: (cs ++ ')' :: ds))

namespace Closed

variable {p p' : Char → Prop} {cs ds : List Char}

theorem of_plain (h : ∀ c ∈ cs, isPlain c ∧ p c) : Closed p cs := by
  induction cs with
  | nil => exact .nil
  | cons c cs ih =>
    obtain ⟨⟨plain, hp⟩, h⟩ := List.forall_mem_cons.1 h
    exact .cons plain hp (ih h)

theorem quoteIdentifier (name : String) : Closed p (quoteIdentifier name).toList := by
  simpa [Tabular.quoteIdentifier] using Closed.quotation name.toList (.inl rfl) .nil

theorem quoteLiteral (s : String) : Closed p (quoteLiteral s).toList := by
  simpa [Tabular.quoteLiteral] using Closed.quotation s.toList (.inr rfl) .nil

theorem mono (h : Closed p cs) (hp : ∀ c, p c → p' c) : Closed p' cs := by
  induction h with
  | nil => exact .nil
  | cons plain hc _ ih => exact .cons plain (hp _ hc) (ih hp)
  | quotation s hq _ ih => exact .quotation s hq (ih hp)
  | brackets inner _ _ ih => exact .brackets inner (ih hp)

theorem append (h : Closed p cs) (hd : Closed p ds) : Closed p (cs ++ ds) := by
  induction h with
  | nil => exact hd
  | cons plain hc _ ih => exact .cons plain hc (ih hd)
  | quotation s hq _ ih =>
    rw [List.append_assoc]
    exact .quotation s hq (ih hd)
  | brackets inner _ _ ih =>
    rw [List.cons_append, List.append_assoc, List.cons_append]
    exact .brackets inner (ih hd)

theorem intercalate {sep : String} {items : List String} (hs : Closed p sep.toList)
    (h : ∀ s ∈ items, Closed p s.toList) : Closed p (sep.intercalate items).toList := by
  rw [String.toList_intercalate]
  induction items with
  | nil => exact .nil
  | cons a items ih =>
    obtain ⟨ha, h⟩ := List.forall_mem_cons.1 h
    cases items with
    | nil => simpa using ha
    | cons b items =>
      rw [List.map_cons, List.map_cons, List.intercalate_cons_cons]
      exact (ha.append hs).append (ih h)

end Closed

variable {sep c : Char} {cs ds : List Char} {n n' n'' : Nesting} {d : Nat} {p : Char → Prop}

/-- Text that belongs to one piece, between two places in it. -/
def Passes (sep : Char) (n : Nesting) (cs : List Char) (n' : Nesting) : Prop :=
  ∀ ds, pieces sep n (cs ++ ds) = (pieces sep n' ds).modifyHead (cs ++ ·)

namespace Passes

theorem nil (n : Nesting) : Passes sep n [] n := fun _ => (congrFun List.modifyHead_id _).symm

theorem cons (h : ¬(n = {} ∧ c = sep)) (hs : Passes sep (n.next c) cs n') :
    Passes sep n (c :: cs) n' := by
  intro ds
  rw [List.cons_append, pieces, if_neg h, hs, List.modifyHead_modifyHead]
  rfl

theorem append (h : Passes sep n cs n') (hd : Passes sep n' ds n'') :
    Passes sep n (cs ++ ds) n'' := by
  intro es
  rw [List.append_assoc, h, hd, List.modifyHead_modifyHead]
  congr 1
  funext es
  exact (List.append_assoc cs ds es).symm

section Quotation

variable {delimiter : Char} (hq : isQuote delimiter)

include hq

theorem next_ne_top : ({ depth := d } : Nesting).next delimiter ≠ {} := by
  rcases hq with rfl | rfl <;> simp [Nesting.next, Quoting.next]

theorem next_next (c : Char) : (({ depth := d } : Nesting).next delimiter).next c =
    if c = delimiter then { depth := d } else ({ depth := d } : Nesting).next delimiter := by
  rcases hq with rfl | rfl
  · by_cases h : c = '"' <;> simp [Nesting.next, Quoting.next, h]
  · by_cases h : c = '\x27' <;> simp [Nesting.next, Quoting.next, h]

variable (hs : isPlain sep)

include hs

theorem ne_separator : delimiter ≠ sep := by
  rintro rfl
  rcases hq with rfl | rfl <;> cases hs

theorem double (s : List Char) :
    Passes sep (({ depth := d } : Nesting).next delimiter) (Delimited.double delimiter s)
      (({ depth := d } : Nesting).next delimiter) := by
  induction s with
  | nil => exact .nil _
  | cons c s ih =>
    rw [Delimited.double]
    split
    -- The first of two delimiters leaves the quotation and the second begins it again.
    · refine .cons (fun h => next_ne_top hq h.1) ?_
      rw [next_next hq, if_pos rfl]
      exact .cons (fun h => ne_separator hq hs h.2) ih
    · next hc =>
      refine .cons (fun h => next_ne_top hq h.1) ?_
      rw [next_next hq, if_neg hc]
      exact ih

theorem encode (s : List Char) :
    Passes sep { depth := d } (Delimited.encode delimiter s) { depth := d } := by
  refine .cons (fun h => ne_separator hq hs h.2) ((double hq hs s).append ?_)
  refine .cons (fun h => next_ne_top hq h.1) ?_
  rw [next_next hq, if_pos rfl]
  exact .nil _

end Quotation

end Passes

theorem next_of_isPlain (h : isPlain c) : ({ depth := d } : Nesting).next c = { depth := d } := by
  simp only [isPlain, Bool.and_eq_true, bne_iff_ne] at h
  obtain ⟨⟨⟨name, literal⟩, opening⟩, closing⟩ := h
  simp [Nesting.next, Quoting.next, name, literal, opening, closing]

theorem Closed.passes (h : Closed p cs) (hs : isPlain sep) (hp : d ≠ 0 ∨ ¬ p sep) :
    Passes sep { depth := d } cs { depth := d } := by
  induction h generalizing d with
  | nil => exact .nil _
  | @cons p c cs plain hc _ ih =>
    refine .cons ?_ ?_
    · rintro ⟨top, rfl⟩
      cases top
      exact hp.elim (absurd rfl) (absurd hc)
    · rw [next_of_isPlain plain]
      exact ih hp
  | quotation s hq _ ih => exact (Passes.encode hq hs s).append (ih hp)
  | brackets _ _ inside outside =>
    refine .cons (fun h => ?_) ((inside (.inl (Nat.succ_ne_zero d))).append
      (.cons (fun h => ?_) (outside hp)))
    · cases h.2; cases hs
    · cases h.2; cases hs

theorem Passes.pieces_eq (h : Passes sep n cs {}) : pieces sep n cs = [cs] := by
  simpa [pieces] using h []

theorem Passes.pieces_separated (h : Passes sep n cs {}) (ds : List Char) :
    pieces sep n (cs ++ sep :: ds) = cs :: pieces sep {} ds := by
  rw [h, pieces, if_pos ⟨rfl, rfl⟩, List.modifyHead_cons, List.append_nil]

theorem pieces_ne_nil (sep : Char) (n : Nesting) (cs : List Char) : pieces sep n cs ≠ [] := by
  induction cs generalizing n with
  | nil => simp [pieces]
  | cons c cs ih =>
    rw [pieces]
    split
    · simp
    · simpa using ih (n.next c)

theorem modifyHead_append {xs : List (List Char)} (hx : xs ≠ []) (f : List Char → List Char)
    (ys : List (List Char)) : (xs ++ ys).modifyHead f = xs.modifyHead f ++ ys := by
  obtain ⟨x, xs, rfl⟩ := List.exists_cons_of_ne_nil hx
  rfl

theorem Closed.pieces_separated (h : Closed p cs) (hs : isPlain sep) (ds : List Char) :
    pieces sep {} (cs ++ sep :: ds) = pieces sep {} cs ++ pieces sep {} ds := by
  induction h with
  | nil => simp [pieces]
  | @cons p c cs plain _ _ ih =>
    have step : ({} : Nesting).next c = {} := next_of_isPlain plain
    rw [List.cons_append, pieces, pieces, step, ih, modifyHead_append (pieces_ne_nil _ _ _)]
    split <;> rfl
  | @quotation p q s cs hq _ ih =>
    have passes := Passes.encode (d := 0) hq hs s
    rw [List.append_assoc, passes, passes, ih, modifyHead_append (pieces_ne_nil _ _ _)]
  | @brackets p cs es inner _ _ ih =>
    -- Nothing in the brackets is a place to separate at, whatever is asked of the text in them.
    have closed : Closed (fun _ => False) ('(' :: (cs ++ [')'])) := .brackets inner .nil
    have passes : Passes sep {} ('(' :: (cs ++ [')'])) {} := closed.passes hs (.inr id)
    have split (xs : List Char) : '(' :: (cs ++ ')' :: xs) = '(' :: (cs ++ [')']) ++ xs := by simp
    rw [split, List.append_assoc, passes, passes, ih, modifyHead_append (pieces_ne_nil _ _ _)]

def between (cs : List Char) : List String := (pieces ' ' {} cs).map String.ofList

theorem between_append (h : Closed p cs) (ds : List Char) :
    between (cs ++ ' ' :: ds) = between cs ++ between ds := by
  rw [between, h.pieces_separated rfl, List.map_append, between, between]

theorem between_eq {s : String} (h : Closed (· ≠ ' ') s.toList) : between s.toList = [s] := by
  have passes : Passes ' ' {} s.toList {} := h.passes rfl (.inr fun h => h rfl)
  simp [between, passes.pieces_eq]

theorem between_intercalate {items : List String} (hn : items ≠ [])
    (h : ∀ s ∈ items, Closed p s.toList) :
    between (" ".intercalate items).toList = items.flatMap (between ·.toList) := by
  rw [String.toList_intercalate]
  induction items with
  | nil => exact absurd rfl hn
  | cons a items ih =>
    obtain ⟨ha, h⟩ := List.forall_mem_cons.1 h
    cases items with
    | nil => simp
    | cons b items =>
      have blank : " ".toList = [' '] := rfl
      rw [List.map_cons, List.map_cons, List.intercalate_cons_cons, blank, List.append_assoc,
        List.singleton_append, between_append ha, List.flatMap_cons]
      exact congrArg _ (ih (by simp) h)

def fields (cs : List Char) : List String := (between cs).filter (· ≠ "")

/-- What stands between commas, without the blanks before it. -/
def parts (cs : List Char) : List (List Char) := (pieces ',' {} cs).map (·.dropWhile (· == ' '))

theorem parts_blank (cs : List Char) : parts (' ' :: cs) = parts cs := by
  have within : ¬(({} : Nesting) = {} ∧ ' ' = ',') := by decide
  have blank : ({} : Nesting).next ' ' = {} := by decide
  rw [parts, parts, pieces, if_neg within, blank]
  cases pieces ',' {} cs <;> rfl

theorem parts_intercalate {items : List String} (hn : items ≠ [])
    (h : ∀ s ∈ items, Closed (· ≠ ',') s.toList ∧ s.toList.head? ≠ some ' ') :
    parts (", ".intercalate items).toList = items.map String.toList := by
  have begins {s : String} (hs : s.toList.head? ≠ some ' ') :
      s.toList.dropWhile (· == ' ') = s.toList := by
    cases hl : s.toList with
    | nil => rfl
    | cons c cs =>
      rw [hl, List.head?_cons, ne_eq, Option.some.injEq] at hs
      simp [hs]
  have passes {s : String} (hs : Closed (· ≠ ',') s.toList) : Passes ',' {} s.toList {} :=
    hs.passes rfl (.inr fun h => h rfl)
  rw [String.toList_intercalate]
  induction items with
  | nil => exact absurd rfl hn
  | cons a items ih =>
    obtain ⟨⟨closed, first⟩, h⟩ := List.forall_mem_cons.1 h
    cases items with
    | nil => simp [parts, (passes closed).pieces_eq, begins first]
    | cons b items =>
      have sep : ", ".toList = [',', ' '] := rfl
      have rest := ih (by simp) h
      rw [← parts_blank, parts] at rest
      rw [List.map_cons, List.map_cons, List.intercalate_cons_cons, sep, List.append_assoc,
        List.cons_append, List.singleton_append, parts, (passes closed).pieces_separated,
        List.map_cons, begins first]
      exact congrArg _ rest

end Tabular.Sql
