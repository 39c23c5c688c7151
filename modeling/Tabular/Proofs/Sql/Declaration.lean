import Mathlib.Data.List.Basic
import Tabular.Proofs.Sql.Pieces
import Tabular.Proofs.Text.Delimited

namespace Tabular

namespace Sql

def unquote? (delimiter : Char) (cs : List Char) : Option String :=
  match Text.Delimited.scan delimiter cs with
  | some (s, []) => some (String.ofList s)
  | _ => none

def unbracket? : List Char → Option (List Char)
  | '(' :: cs => if cs.getLast? = some ')' then some cs.dropLast else none
  | _ => none

@[simp] theorem unquote?_quoteIdentifier (name : String) :
    unquote? '"' (quoteIdentifier name).toList = some name := by
  simp [unquote?, quoteIdentifier, Text.Delimited.scan_encode]

@[simp] theorem unquote?_quoteLiteral (s : String) :
    unquote? '\x27' (quoteLiteral s).toList = some s := by
  simp [unquote?, quoteLiteral, Text.Delimited.scan_encode]

@[simp] theorem unbracket?_brackets (s : String) :
    unbracket? ("(" ++ s ++ ")").toList = some s.toList := by
  simp [unbracket?]

def IsWord (s : String) : Prop :=
  s ≠ "" ∧ s.toList.all fun c => isPlain c && c != ' ' && c != ','

instance (s : String) : Decidable (IsWord s) := inferInstanceAs (Decidable (_ ∧ _))

def IsField (s : String) : Prop := s ≠ "" ∧ Closed (fun c => c ≠ ' ' ∧ c ≠ ',') s.toList

section Fields

variable {s w : String}

theorem IsWord.isField (h : IsWord s) : IsField s :=
  ⟨h.1, .of_plain fun c hc => by simpa [and_assoc] using List.all_eq_true.1 h.2 c hc⟩

theorem isField_quoteIdentifier (name : String) : IsField (quoteIdentifier name) :=
  ⟨by simp [quoteIdentifier, Text.Delimited.encode], .quoteIdentifier name⟩

theorem isField_brackets (h : Closed (fun _ => True) s.toList) : IsField ("(" ++ s ++ ")") :=
  ⟨by simp, by simpa using Closed.brackets h .nil⟩

theorem isField_size (plain : ∀ c ∈ s.toList, isPlain c) : IsField ("(" ++ s ++ ")") :=
  isField_brackets (.of_plain fun c hc => ⟨plain c hc, trivial⟩)

namespace IsField

variable (h : IsField s)

include h

theorem append (hw : IsField w) : IsField (s ++ w) :=
  ⟨by simp [h.1], by simpa using h.2.append hw.2⟩

theorem without_blanks : Closed (· ≠ ' ') s.toList := h.2.mono fun _ hc => hc.1

theorem without_commas : Closed (· ≠ ',') s.toList := h.2.mono fun _ hc => hc.2

theorem between_eq : between s.toList = [s] := Sql.between_eq h.without_blanks

end IsField

end Fields

theorem fields_intercalate {items : List String} (h : ∀ s ∈ items, IsField s) :
    fields (" ".intercalate items).toList = items := by
  cases items with
  | nil => rfl
  | cons a items =>
    have single := List.flatMap_congr fun s hs => (h s hs).between_eq
    rw [fields, between_intercalate (by simp) fun s hs => (h s hs).2, single,
      List.flatMap_singleton']
    exact List.filter_eq_self.2 fun s hs => by simpa using (h s hs).1

/-- What comes after the words that a text begins with. -/
def fieldsAfter? (words : List String) (cs : List Char) : Option (List String) :=
  (fields cs).dropPrefix? words

theorem fieldsAfter?_append {words rest : List String} (hw : ∀ s ∈ words, IsWord s)
    (hr : ∀ s ∈ rest, IsField s) :
    fieldsAfter? words (" ".intercalate (words ++ rest)).toList = some rest := by
  have isField : ∀ s ∈ words ++ rest, IsField s :=
    List.forall_mem_append.2 ⟨fun s hs => (hw s hs).isField, hr⟩
  rw [fieldsAfter?, fields_intercalate isField,
    List.dropPrefix?_append_of_beq _ (beq_self_eq_true _)]

/-- A column as its line in the declaration describes it. -/
structure ColumnLine where
  name : String
  storage : String
  numbered : Bool
  notNull : Bool
  collation : Option String
  default : Option String
  deriving DecidableEq

namespace ColumnLine

def takeSize? : List String → Option (String × List String)
  | [] => none
  | s :: rest =>
    if s = "" then (takeSize? rest).map fun r => (" " ++ r.1, r.2)
    else if s.toList.head? = some '(' then some (" " ++ s, rest)
    else none

def takeStorage? : List String → Option (String × List String)
  | [] => none
  | s :: rest =>
    match takeSize? rest with
    | some (size, rest) => some (s ++ size, rest)
    | none => some (s, rest)

def takeWords (words fields : List String) : Bool × List String :=
  match fields.dropPrefix? words with
  | some rest => (true, rest)
  | none => (false, fields)

def takeCollation : List String → Option String × List String
  | "collate" :: s :: fields => (some s, fields)
  | fields => (none, fields)

def default? : List String → Option (Option String)
  | [] => some none
  | [field] => do
    let value ← field.toList.dropPrefix? "default".toList
    return some (← unquote? '\x27' (← unbracket? value))
  | _ => none

def ofText? (cs : List Char) : Option ColumnLine :=
  match between cs with
  | [] => none
  | name :: rest => do
    let (storage, rest) ← takeStorage? rest
    -- A clause that does not apply leaves only the blanks around it.
    let clauses := rest.filter (· ≠ "")
    let (numbered, clauses) := takeWords ["primary", "key", "autoincrement"] clauses
    let (notNull, clauses) := takeWords ["not", "null"] clauses
    let (collation, clauses) := takeCollation clauses
    return {
      name := ← unquote? '"' name.toList
      storage := storage
      numbered := numbered
      notNull := notNull
      collation := collation
      default := ← default? clauses }

end ColumnLine

def keyLine? (cs : List Char) : Option (List String) :=
  match fieldsAfter? ["primary", "key"] cs with
  | some [names] => (unbracket? names.toList).bind fun names => (parts names).mapM (unquote? '"')
  | _ => none

structure TableText where
  name : String
  columns : List ColumnLine
  keys : List (List String)
  deriving DecidableEq

namespace TableText

def lines? : List (List Char) → Option (List ColumnLine × List (List String))
  | [] => some ([], [])
  | line :: lines =>
    match keyLine? line, lines with
    | some key, [] => some ([], [key])
    | some _, _ :: _ => none
    | none, _ => do
      let c ← ColumnLine.ofText? line
      let (cs, keys) ← lines? lines
      return (c :: cs, if c.numbered then [c.name] :: keys else keys)

def ofText? (text : String) : Option TableText :=
  match fieldsAfter? ["create", "table", "if", "not", "exists"] text.toList with
  | some [name, body] => do
    let (columns, keys) ← lines? (parts (← unbracket? body.toList))
    return ⟨← unquote? '"' name.toList, columns, keys⟩
  | _ => none

end TableText

def IsStorageClass (s : String) : Prop :=
  ∃ w, IsWord w ∧ (s = w ∨ ∃ (blanks : Nat) (size : String), (∀ c ∈ size.toList, isPlain c) ∧
    s = w ++ String.ofList (List.replicate blanks ' ') ++ "(" ++ size ++ ")")

theorem IsStorageClass.closed {s : String} (h : IsStorageClass s) : Closed (· ≠ ',') s.toList := by
  obtain ⟨w, hw, rfl | ⟨n, size, plain, rfl⟩⟩ := h
  · exact hw.isField.without_commas
  · have blanks : Closed (· ≠ ',') (List.replicate n ' ') := by
      refine .of_plain fun c hc => ?_
      rw [List.eq_of_mem_replicate hc]
      decide
    simpa using hw.isField.without_commas.append (blanks.append (isField_size plain).without_commas)

namespace ColumnLine

variable {words clauses rest : List String} {s : String}

theorem takeSize?_eq_none
    (h : ∀ s ∈ (rest.filter (· ≠ "")).head?, s.toList.head? ≠ some '(') :
    takeSize? rest = none := by
  induction rest with
  | nil => rfl
  | cons s rest ih =>
    rw [takeSize?]
    split
    · next hs =>
      rw [hs] at h
      rw [ih (by simpa using h)]
      rfl
    · next hs => simpa [hs] using h

theorem takeSize?_blanks (hs : s.toList.head? = some '(') (n : Nat) :
    takeSize? (List.replicate n "" ++ s :: rest) =
      some (String.ofList (List.replicate (n + 1) ' ') ++ s, rest) := by
  induction n with
  | zero =>
    have some_size : s ≠ "" := by
      rintro rfl
      cases hs
    simp [takeSize?, some_size, hs]
  | succ n ih =>
    have blanks : " " ++ String.ofList (List.replicate (n + 1) ' ') =
        String.ofList (List.replicate (n + 2) ' ') := by
      apply String.toList_injective
      simp [List.replicate_succ]
    rw [List.replicate_succ, List.cons_append, takeSize?, if_pos rfl, ih, Option.map_some,
      ← String.append_assoc, blanks]

theorem between_blanks (hs : Closed (· ≠ ' ') s.toList) (n : Nat) :
    between (List.replicate n ' ' ++ s.toList) = List.replicate n "" ++ [s] := by
  induction n with
  | zero => exact between_eq hs
  | succ n ih =>
    have blank := between_append (p := fun _ => True) .nil (List.replicate n ' ' ++ s.toList)
    rw [List.replicate_succ, List.cons_append, ← List.nil_append (' ' :: _), blank, ih]
    rfl

theorem takeStorage?_between (hs : IsStorageClass s)
    (hr : ∀ s ∈ (rest.filter (· ≠ "")).head?, s.toList.head? ≠ some '(') :
    takeStorage? (between s.toList ++ rest) = some (s, rest) := by
  have sizeless := takeSize?_eq_none hr
  obtain ⟨w, hw, rfl | ⟨n, size, plain, rfl⟩⟩ := hs
  · simp [hw.isField.between_eq, takeStorage?, sizeless]
  · have brackets := isField_size plain
    cases n with
    | zero =>
      have field := hw.isField.append brackets
      have text : w ++ String.ofList (List.replicate 0 ' ') ++ "(" ++ size ++ ")" =
          w ++ ("(" ++ size ++ ")") := by simp [← String.append_assoc]
      rw [text, field.between_eq]
      simp [takeStorage?, sizeless]
    | succ n =>
      have text : (w ++ String.ofList (List.replicate (n + 1) ' ') ++ "(" ++ size ++ ")").toList =
          w.toList ++ ' ' :: (List.replicate n ' ' ++ ("(" ++ size ++ ")").toList) := by
        simp [List.replicate_succ]
      have size_first : ("(" ++ size ++ ")").toList.head? = some '(' := by simp
      rw [text, between_append hw.isField.2, hw.isField.between_eq,
        between_blanks brackets.without_blanks, List.append_assoc, List.append_assoc]
      simp only [List.singleton_append, takeStorage?, takeSize?_blanks size_first]
      simp [← String.append_assoc]

theorem takeWords_append (words clauses : List String) :
    takeWords words (words ++ clauses) = (true, clauses) := by
  rw [takeWords, List.dropPrefix?_append_of_beq _ (beq_self_eq_true _)]

theorem takeWords_of_head?_ne (h : clauses.head? ≠ some s) :
    takeWords (s :: words) clauses = (false, clauses) := by
  cases clauses with
  | nil => rfl
  | cons c clauses =>
    have differ : c ≠ s := fun he => h (congrArg some he)
    simp [takeWords, List.dropPrefix?, differ]

theorem takeCollation_of_head?_ne (h : clauses.head? ≠ some "collate") :
    takeCollation clauses = (none, clauses) := by
  unfold takeCollation
  split
  · exact absurd rfl h
  · rfl

theorem default?_quoteLiteral (s : String) :
    default? ["default(" ++ quoteLiteral s ++ ")"] = some (some s) := by
  have text : ("default(" ++ quoteLiteral s ++ ")").toList =
      "default".toList ++ ("(" ++ quoteLiteral s ++ ")").toList := by simp
  rw [default?, text, List.dropPrefix?_append_of_beq _ (beq_self_eq_true _)]
  simp only [Option.bind_eq_bind, Option.bind_some, unbracket?_brackets, unquote?_quoteLiteral]
  rfl

end ColumnLine

end Sql

end Tabular
