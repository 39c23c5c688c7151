import Mathlib.Data.List.Find
import Tabular.Compile.Fragment
import Tabular.Proofs.Text.Replace

/-! SQL text with its arguments written where they are used. A statement has a placeholder in the
place of each of them; filling the placeholders from left to right gives the marked text back. -/

namespace Tabular

inductive Mark
  | char (c : Char)
  | datum (d : Datum)
  deriving DecidableEq

namespace Mark

def written : Mark → Char
  | .char c => c
  | .datum _ => '?'

def argument? : Mark → Option Datum
  | .char _ => none
  | .datum d => some d

end Mark

/-- Where a reader of SQL stands. A delimiter that is written twice ends a quotation and begins the
next one. -/
inductive Quoting
  | outside
  | name
  | literal
  deriving DecidableEq

def Quoting.next : Quoting → Char → Quoting
  | .outside, c => if c = '"' then .name else if c = '\x27' then .literal else .outside
  | .name, c => if c = '"' then .outside else .name
  | .literal, c => if c = '\x27' then .outside else .literal

def countPlaceholders : Quoting → List Char → Nat
  | _, [] => 0
  | q, c :: cs => (if q = .outside ∧ c = '?' then 1 else 0) + countPlaceholders (q.next c) cs

/-- Puts arguments in the places of the placeholders from left to right. All have to be used. -/
def fill : Quoting → List Char → List Datum → Option (List Mark)
  | _, [], [] => some []
  | _, [], _ :: _ => none
  | q, c :: cs, ds =>
    if q = .outside ∧ c = '?' then
      match ds with
      | [] => none
      | d :: ds => (fill q cs ds).map (.datum d :: ·)
    else (fill (q.next c) cs ds).map (.char c :: ·)

abbrev Marked := List Mark

namespace Marked

def ofString (s : String) : Marked := s.toList.map .char

def text (ms : Marked) : List Char := ms.map Mark.written

def args (ms : Marked) : List Datum := ms.filterMap Mark.argument?

def negated (ms : Marked) : Marked :=
  match Fragment.negations.find? fun n => Text.occurs (ofString n.1) ms with
  | some (op, negated) => Text.replaceAll (ofString op) (ofString negated) ms
  | none => ms

/-- Reads the text to its end. Arguments have to stand outside quotations, and nothing else that
looks like a placeholder may. -/
def scan : Quoting → Marked → Option Quoting
  | q, [] => some q
  | q, .char c :: ms => if q = .outside ∧ c = '?' then none else scan (q.next c) ms
  | q, .datum _ :: ms => if q = .outside then scan q ms else none

@[simp] theorem text_nil : text [] = [] := rfl

@[simp] theorem args_nil : args [] = [] := rfl

@[simp] theorem text_char (c : Char) (ms : Marked) : text (.char c :: ms) = c :: ms.text := rfl

@[simp] theorem text_datum (d : Datum) (ms : Marked) : text (.datum d :: ms) = '?' :: ms.text :=
  rfl

@[simp] theorem args_char (c : Char) (ms : Marked) : args (.char c :: ms) = ms.args := rfl

@[simp] theorem args_datum (d : Datum) (ms : Marked) : args (.datum d :: ms) = d :: ms.args := rfl

@[simp] theorem text_append (ms ns : Marked) : text (ms ++ ns) = ms.text ++ ns.text :=
  List.map_append

@[simp] theorem args_append (ms ns : Marked) : args (ms ++ ns) = ms.args ++ ns.args :=
  List.filterMap_append

@[simp] theorem text_ofString (s : String) : text (ofString s) = s.toList := by
  simp [text, ofString, Function.comp_def, Mark.written]

@[simp] theorem args_ofString (s : String) : args (ofString s) = [] := by
  simp [args, ofString, List.filterMap_map, Function.comp_def, Mark.argument?]

theorem scan_append (q : Quoting) (ms ns : Marked) :
    scan q (ms ++ ns) = (scan q ms).bind fun q => scan q ns := by
  induction ms generalizing q with
  | nil => rfl
  | cons m ms ih =>
    cases m with
    | char c =>
      simp only [List.cons_append, scan]
      split
      · rfl
      · exact ih _
    | datum d =>
      simp only [List.cons_append, scan]
      split
      · exact ih _
      · rfl

theorem fill_text {q r : Quoting} {ms : Marked} (h : scan q ms = some r) :
    fill q ms.text ms.args = some ms := by
  induction ms generalizing q with
  | nil => rfl
  | cons m ms ih =>
    cases m with
    | char c =>
      rw [scan] at h
      split at h
      · cases h
      · next hc => simp [fill, hc, ih h]
    | datum d =>
      rw [scan] at h
      split at h
      · next hq =>
        subst hq
        simp [fill, ih h]
      · cases h

theorem countPlaceholders_text {q r : Quoting} {ms : Marked} (h : scan q ms = some r) :
    countPlaceholders q ms.text = ms.args.length := by
  induction ms generalizing q with
  | nil => rfl
  | cons m ms ih =>
    cases m with
    | char c =>
      rw [scan] at h
      split at h
      · cases h
      · next hc => simp [countPlaceholders, hc, ih h]
    | datum d =>
      rw [scan] at h
      split at h
      · next hq =>
        subst hq
        simp [countPlaceholders, Quoting.next, ih h, Nat.add_comm]
      · cases h

def IsNeutral (c : Char) : Prop := c ≠ '?' ∧ c ≠ '"' ∧ c ≠ '\x27'

instance (c : Char) : Decidable (IsNeutral c) := inferInstanceAs (Decidable (_ ∧ _ ∧ _))

theorem scan_neutral {cs : List Char} (h : ∀ c ∈ cs, IsNeutral c) (q : Quoting) :
    scan q (cs.map .char) = some q := by
  induction cs with
  | nil => rfl
  | cons c cs ih =>
    have ⟨hp, hn, hl⟩ := h c (by simp)
    have hq : q.next c = q := by cases q <;> simp [Quoting.next, hn, hl]
    have ih := ih fun c hc => h c (by simp [hc])
    simp [scan, hp, hq, ih]

/-- A quotation is read as a whole. Inside it the delimiter is doubled, so its two characters leave
the reader inside again. -/
theorem scan_double (delimiter : Char) {q : Quoting} (hq : q ≠ .outside)
    (ho : Quoting.outside.next delimiter = q)
    (hc : ∀ c, q.next c = if c = delimiter then .outside else q) (hp : delimiter ≠ '?')
    (s : List Char) :
    scan q ((Text.Delimited.double delimiter s).map .char) = some q := by
  induction s with
  | nil => rfl
  | cons c s ih =>
    rw [Text.Delimited.double]
    split
    · next h => simp [scan, hq, hc, ho, hp, ih]
    · next h => simp [scan, hq, hc, h, ih]

/-- Quotations are closed where they were opened, and only arguments are placeholders. -/
def Whole (ms : Marked) : Prop := scan .outside ms = some .outside

instance (ms : Marked) : Decidable (Whole ms) := inferInstanceAs (Decidable (_ = _))

theorem Whole.append {ms ns : Marked} (hm : Whole ms) (hn : Whole ns) : Whole (ms ++ ns) := by
  rw [Whole, scan_append, hm]
  exact hn

theorem whole_ofString {s : String} (h : ∀ c ∈ s.toList, IsNeutral c) : Whole (ofString s) :=
  scan_neutral h _

theorem whole_quoteIdentifier (name : String) : Whole (ofString (quoteIdentifier name)) := by
  have h := scan_double '"' (q := .name) (by decide) rfl (fun _ => rfl) (by decide)
    name.toList
  simp [Whole, ofString, quoteIdentifier, Text.Delimited.encode, scan, Quoting.next, scan_append, h]

theorem whole_quoteLiteral (s : String) : Whole (ofString (quoteLiteral s)) := by
  have h := scan_double '\x27' (q := .literal) (by decide) rfl (fun _ => rfl)
    (by decide) s.toList
  simp [Whole, ofString, quoteLiteral, Text.Delimited.encode, scan, Quoting.next, scan_append, h]

section Lists

variable {sep : Marked} (texts : List Marked)

theorem text_intercalate :
    text (sep.intercalate texts) = sep.text.intercalate (texts.map text) := by
  induction texts with
  | nil => rfl
  | cons a texts ih =>
    cases texts with
    | nil => simp
    | cons b texts => simpa [List.intercalate_cons_cons] using ih

theorem args_intercalate (hs : sep.args = []) :
    args (sep.intercalate texts) = texts.flatMap args := by
  induction texts with
  | nil => rfl
  | cons a texts ih =>
    cases texts with
    | nil => simp
    | cons b texts => simpa [List.intercalate_cons_cons, hs] using ih

variable {texts} in
theorem Whole.intercalate (hs : Whole sep) (h : ∀ ms ∈ texts, Whole ms) :
    Whole (sep.intercalate texts) := by
  induction texts with
  | nil => rfl
  | cons a texts ih =>
    obtain ⟨ha, h⟩ := List.forall_mem_cons.1 h
    cases texts with
    | nil => simpa using ha
    | cons b texts => simpa [List.intercalate_cons_cons] using ha.append (hs.append (ih h))

end Lists

section Negation

variable {s s' : Marked} {op new : String}

theorem args_replaced (h : Text.Replaced (ofString op) (ofString new) s s') :
    args s' = args s := by
  induction h with
  | nil => rfl
  | keep c _ ih => cases c <;> simp [ih]
  | swap _ ih => simp [ih]

theorem scan_replaced (ho : ∀ c ∈ op.toList, IsNeutral c) (hn : ∀ c ∈ new.toList, IsNeutral c)
    (h : Text.Replaced (ofString op) (ofString new) s s') (q : Quoting) :
    scan q s' = scan q s := by
  induction h generalizing q with
  | nil => rfl
  | keep c _ ih => cases c <;> simp [scan, ih]
  | swap _ ih => simp [scan_append, ofString, scan_neutral ho, scan_neutral hn, ih]

theorem neutral_of_mem_negations {n : String × String} (h : n ∈ Fragment.negations) :
    (∀ c ∈ n.1.toList, IsNeutral c) ∧ (∀ c ∈ n.2.toList, IsNeutral c) ∧ n.1.toList ≠ [] := by
  simp only [Fragment.negations, List.mem_cons, List.not_mem_nil, or_false] at h
  rcases h with rfl | rfl | rfl <;> simp [IsNeutral]

theorem written_of_neutral {c : Char} (h : IsNeutral c) (m : Mark) :
    (Mark.char c == m) = (c == m.written) := by
  rw [Bool.eq_iff_iff, beq_iff_eq, beq_iff_eq]
  cases m with
  | char d => simp [Mark.written]
  | datum d => simp [Mark.written, h.1]

theorem negated_cases (ms : Marked) :
    negated ms = ms ∨ ∃ n ∈ Fragment.negations,
      Text.Replaced (ofString n.1) (ofString n.2) ms (negated ms) := by
  rw [negated]
  split
  · next op new h =>
    have hm := List.mem_of_find?_eq_some h
    have hne : ofString op ≠ [] := by simpa [ofString] using (neutral_of_mem_negations hm).2.2
    exact .inr ⟨_, hm, Text.replaced_replaceAll hne _ _⟩
  · exact .inl rfl

theorem text_negated_cases (ms : Marked) :
    (negated ms).text = ms.text ∨ ∃ n ∈ Fragment.negations,
      Text.Replaced n.1.toList n.2.toList ms.text (negated ms).text := by
  rcases negated_cases ms with h | ⟨n, hn, h⟩
  · exact .inl (by rw [h])
  · refine .inr ⟨n, hn, ?_⟩
    simpa [text, ofString, Function.comp_def, Mark.written] using h.map Mark.written

theorem text_negated (ms : Marked) :
    (negated ms).text = (Fragment.negatedText (String.ofList ms.text)).toList := by
  have hocc : ∀ n ∈ Fragment.negations,
      Text.occurs (ofString n.1) ms = Text.occurs n.1.toList ms.text := fun n hn =>
    Text.occurs_map (fun c hc => written_of_neutral ((neutral_of_mem_negations hn).1 c hc)) ms
  have hfind : (Fragment.negations.find? fun n => Text.occurs (ofString n.1) ms) =
      Fragment.negations.find? fun n => Text.occurs n.1.toList ms.text :=
    List.find?_congr hocc
  rw [negated, Fragment.negatedText, String.toList_ofList, ← hfind]
  cases h : Fragment.negations.find? fun n => Text.occurs (ofString n.1) ms with
  | none => exact String.toList_ofList.symm
  | some n =>
    have hn := neutral_of_mem_negations (List.mem_of_find?_eq_some h)
    refine Eq.trans ?_ String.toList_ofList.symm
    exact Text.map_replaceAll (fun c hc => written_of_neutral (hn.1 c hc)) (fun _ _ => rfl) ms

theorem args_negated (ms : Marked) : (negated ms).args = ms.args := by
  rcases negated_cases ms with h | ⟨n, _, h⟩
  · rw [h]
  · exact args_replaced h

theorem scan_negated (q : Quoting) (ms : Marked) : scan q (negated ms) = scan q ms := by
  rcases negated_cases ms with h | ⟨n, hn, h⟩
  · rw [h]
  · have hn := neutral_of_mem_negations hn
    exact scan_replaced hn.1 hn.2.1 h q

end Negation

end Marked

end Tabular
