import Tabular.Database.Create
import Tabular.Proofs.Schema.Declaring
import Tabular.Proofs.Schema.Making

namespace Tabular

open Sql (ColumnDefinition Command Token definitions? isKeyword nameTokens)
open Sql.Lexer (Completes read? read?_end read?_intercalate read?_quoteIdentifier)

namespace Sql

section Nesting

variable {k : Token} {ks ls us : List Token} {d e : Nat}

/-- How deep in brackets a token leaves off. No bracket may be closed that was not opened, and no
comma may stand outside of brackets. -/
def Token.nest : Token → Nat → Option Nat
  | .opening, d => some (d + 1)
  | .closing, 0 => none
  | .closing, d + 1 => some d
  | .comma, 0 => none
  | _, d => some d

def nest (d : Nat) : List Token → Option Nat
  | [] => some d
  | k :: ks => (k.nest d).bind fun e => nest e ks

theorem nest_append : nest d (ks ++ ls) = (nest d ks).bind fun e => nest e ls := by
  induction ks generalizing d with
  | nil => rfl
  | cons k ks ih =>
    simp only [List.cons_append, nest]
    cases k.nest d with
    | none => rfl
    | some e => exact ih

theorem parts?_cons (h : k.nest d = some e) (read ks : List Token) :
    parts? d read (k :: ks) = parts? e (k :: read) ks := by
  cases k <;> cases d <;> cases h <;> rfl

theorem parts?_append (h : nest d ks = some e) (read ls : List Token) :
    parts? d read (ks ++ ls) = parts? e (ks.reverse ++ read) ls := by
  induction ks generalizing d read with
  | nil =>
    cases h
    rfl
  | cons k ks ih =>
    obtain ⟨e', hk, h⟩ := Option.bind_eq_some_iff.1 h
    rw [List.cons_append, parts?_cons hk, ih h, List.reverse_cons, List.append_assoc]
    rfl

theorem parts?_separated {items : List (List Token)} (hn : items ≠ [])
    (h : ∀ ks ∈ items, nest 0 ks = some 0) (ls : List Token) :
    parts? 0 [] ([Token.comma].intercalate items ++ .closing :: ls) = some (items, ls) := by
  induction items with
  | nil => exact absurd rfl hn
  | cons ks items ih =>
    obtain ⟨hk, h⟩ := List.forall_mem_cons.1 h
    cases items with
    | nil =>
      rw [List.intercalate_singleton, parts?_append hk]
      simp [parts?]
    | cons ls' items =>
      rw [List.intercalate_cons_cons, List.append_assoc, List.append_assoc, parts?_append hk,
        List.singleton_append, parts?, ih (by simp) h]
      simp

theorem nest_words (words : List String) : nest d (words.map .word ++ ks) = nest d ks := by
  induction words with
  | nil => rfl
  | cons w words ih => exact ih

theorem nest_nameTokens (names : List String) : nest 1 (nameTokens names) = some 1 := by
  induction names with
  | nil => rfl
  | cons n names ih =>
    cases names with
    | nil => rfl
    | cons m names => exact ih

end Nesting

/-- What may stand in brackets after the words of a class. -/
inductive Sizes : List Nat → List Token → Prop
  | none : Sizes [] []
  | one (n : Nat) : Sizes [n] [.opening, .number n, .closing]
  | two (n m : Nat) : Sizes [n, m] [.opening, .number n, .comma, .number m, .closing]

/-- The text names a class: words that are no keywords, and sizes that may follow them. -/
def IsClassName (s : String) : Prop :=
  ∃ words sizes ks, read? s.toList = some (words.map .word ++ ks) ∧
    (∀ w ∈ words, isKeyword w = false) ∧ Sizes sizes ks ∧ (words = [] → sizes = [])

/-- The text names a collation: a word that is no keyword. -/
def IsCollationName (s : String) : Prop :=
  ∃ w, read? s.toList = some [.word w] ∧ isKeyword w = false

namespace ColumnDefinition

variable {words : List String} {ks ls : List Token}

theorem classWords_append (plain : ∀ w ∈ words, isKeyword w = false)
    (h : classWords ks = ([], ks)) : classWords (words.map .word ++ ks) = (words, ks) := by
  induction words with
  | nil => exact h
  | cons w words ih =>
    obtain ⟨hw, plain⟩ := List.forall_mem_cons.1 plain
    simp [classWords, hw, ih plain]

/-- What can follow a class: nothing, or a clause, which begins with a keyword. -/
def FollowsClass (ks : List Token) : Prop :=
  ∀ k ∈ ks.head?, ∃ w, k = .word w ∧ isKeyword w

theorem FollowsClass.classWords (h : FollowsClass ks) : classWords ks = ([], ks) := by
  cases ks with
  | nil => rfl
  | cons k ks =>
    obtain ⟨w, rfl, hw⟩ := h k rfl
    simp [ColumnDefinition.classWords, hw]

theorem classWords_sizes {sizes : List Nat} (hs : Sizes sizes ks) (h : FollowsClass ls) :
    classWords (ks ++ ls) = ([], ks ++ ls) := by
  cases hs with
  | none => exact h.classWords
  | one | two => rfl

theorem classSizes?_append {sizes : List Nat} (hs : Sizes sizes ks) (h : FollowsClass ls) :
    classSizes? (ks ++ ls) = some (sizes, ls) := by
  cases hs with
  | none =>
    cases ls with
    | nil => rfl
    | cons k ls =>
      obtain ⟨w, rfl, _⟩ := h k rfl
      rfl
  | one | two => rfl

theorem ofTokens?_class {n : String} {sizes : List Nat} (plain : ∀ w ∈ words, isKeyword w = false)
    (hs : Sizes sizes ks) (sized : words = [] → sizes = []) (h : FollowsClass ls) :
    ofTokens? (.name n :: (words.map .word ++ (ks ++ ls))) =
      clauses? { name := n, words := words, sizes := sizes } ls := by
  simp only [ofTokens?, classWords_append plain (classWords_sizes hs h), Option.bind_eq_bind]
  cases words with
  | nil =>
    cases sized rfl
    cases hs
    rfl
  | cons w words =>
    rw [if_neg (by simp), classSizes?_append hs h]
    rfl

end ColumnDefinition

theorem read?_keyText (names : List String) : read? (keyText names).toList =
    some (.word "primary" :: .word "key" :: .opening :: (nameTokens names ++ [.closing])) := by
  have start : Completes "primary key (".toList [.word "primary", .word "key", .opening] := by
    decide
  have closing : Completes ")".toList [.closing] := by decide
  have text : (keyText names).toList = "primary key (".toList ++
      ((", ".intercalate (names.map quoteIdentifier)).toList ++ ")".toList) := by
    unfold keyText
    repeat rw [String.toList_append]
    simp only [List.append_assoc]
  rw [text]
  exact start.read?_append (read?_end closing rfl (read?_names names))

end Sql

namespace Column

variable {c : Column} {d : ColumnDefinition} {ks : List Token}

def clauseTokens (c : Column) (collation : Option String) : List Token :=
  (if c.autoIncrement then [.word "primary", .word "key", .word "autoincrement"] else []) ++
    ((if c.nullable then [] else [.word "not", .word "null"]) ++
      (collation.toList.flatMap (fun w => [.word "collate", .word w]) ++
        c.default.toList.flatMap fun s => [.word "default", .opening, .literal s, .closing]))

/-- The column is made as it is declared, and without a clause that it does not declare. -/
structure IsDefinedBy (c : Column) (d : ColumnDefinition) : Prop where
  name : d.name = c.name
  numbered : d.numbered = c.autoIncrement
  onNull : d.onNull = .refuse
  references : d.references = []

theorem followsClass_clauseTokens (c : Column) (collation : Option String) :
    ColumnDefinition.FollowsClass (c.clauseTokens collation) := by
  unfold clauseTokens
  cases c.autoIncrement <;> cases c.nullable <;> cases collation <;> cases c.default <;>
    simp [ColumnDefinition.FollowsClass, isKeyword] <;> decide

theorem nest_clauseTokens (c : Column) (collation : Option String) :
    Sql.nest 0 (c.clauseTokens collation) = some 0 := by
  unfold clauseTokens
  cases c.autoIncrement <;> cases c.nullable <;> cases collation <;> cases c.default <;> rfl

theorem clauses?_clauseTokens (d : ColumnDefinition) {collation : Option String}
    (h : ∀ w ∈ collation, isKeyword w = false) :
    ∃ d', ColumnDefinition.clauses? d (c.clauseTokens collation) = some d' ∧ d'.name = d.name ∧
      d'.numbered = (c.autoIncrement || d.numbered) ∧ (d.onNull = .refuse → d'.onNull = .refuse) ∧
      d'.references = d.references := by
  unfold clauseTokens
  cases collation with
  | none =>
    cases c.autoIncrement <;> cases c.nullable <;> cases c.default <;>
      simp [ColumnDefinition.clauses?]
  | some w =>
    have plain := h w rfl
    cases c.autoIncrement <;> cases c.nullable <;> cases c.default <;>
      simp [ColumnDefinition.clauses?, plain]

theorem toList_declaration (c : Column) : ∃ cs,
    c.declaration.toList = (quoteIdentifier c.name).toList ++ cs := by
  unfold declaration
  rw [String.toList_intercalate]
  exact ⟨_, rfl⟩

theorem exists_read?_collation (hc : ∀ s ∈ c.collation, Sql.IsCollationName s) :
    ∃ collation : Option String, (∀ w ∈ collation, isKeyword w = false) ∧
      read? (match c.collation with | some s => "collate " ++ s | none => "").toList =
        some (collation.toList.flatMap fun w => [.word "collate", .word w]) := by
  have collate : Completes "collate ".toList [.word "collate"] := by decide
  cases h : c.collation with
  | none => exact ⟨none, by simp, rfl⟩
  | some s =>
    obtain ⟨w, read, plain⟩ := hc s h
    refine ⟨some w, by simpa using plain, ?_⟩
    rw [String.toList_append]
    exact collate.read?_append read

theorem read?_default (c : Column) :
    read? (match c.default with
      | some s => "default(" ++ quoteLiteral s ++ ")"
      | none => "").toList =
      some (c.default.toList.flatMap fun s =>
        [.word "default", .opening, .literal s, .closing]) := by
  have begins : Completes "default(".toList [.word "default", .opening] := by decide
  have closing : Completes ")".toList [.closing] := by decide
  cases c.default with
  | none => rfl
  | some s =>
    show read? ("default(" ++ quoteLiteral s ++ ")").toList = _
    rw [String.append_assoc, String.toList_append, String.toList_append]
    exact begins.read?_append (read?_end closing rfl (Sql.Lexer.read?_quoteLiteral s))

theorem exists_definition (hs : Sql.IsClassName c.storage)
    (hc : ∀ s ∈ c.collation, Sql.IsCollationName s) : ∃ ls d,
      read? c.declaration.toList = some (.name c.name :: ls) ∧ Sql.nest 0 ls = some 0 ∧
      ColumnDefinition.ofTokens? (.name c.name :: ls) = some d ∧ c.IsDefinedBy d := by
  obtain ⟨words, sizes, ks, class_, plain, size, sized⟩ := hs
  obtain ⟨collation, named, collated⟩ := exists_read?_collation hc
  obtain ⟨d, made, name, numbered, onNull, references⟩ :=
    clauses?_clauseTokens (c := c) { name := c.name, words := words, sizes := sizes } named
  have blank : Completes " ".toList [] := by decide
  have key : read? (if c.autoIncrement then "primary key autoincrement" else "").toList = some
      (if c.autoIncrement then [.word "primary", .word "key", .word "autoincrement"] else []) := by
    cases c.autoIncrement <;> decide
  have null : read? (if c.nullable then "" else "not null").toList = some
      (if c.nullable then [] else [.word "not", .word "null"]) := by
    cases c.nullable <;> decide
  refine ⟨words.map .word ++ (ks ++ c.clauseTokens collation), d, ?_, ?_, ?_,
    name, numbered.trans (Bool.or_false _), onNull rfl, references⟩
  · have read := read?_intercalate blank rfl (.cons (read?_quoteIdentifier c.name)
      (.cons class_ (.cons key (.cons null (.cons collated (.cons c.read?_default .nil))))))
    rw [declaration, String.toList_intercalate]
    refine read.trans ?_
    simp [List.intercalate, clauseTokens]
  · rw [Sql.nest_words]
    cases size <;> exact c.nest_clauseTokens collation
  · rw [ColumnDefinition.ofTokens?_class plain size sized (c.followsClass_clauseTokens collation)]
    exact made

end Column

namespace TableMapping

variable {t : TableMapping} {table : String} {cs : List ColumnDefinition} {key : List String}

/-- What the mapping writes into a declaration as it is given are names. -/
def IsPlain (t : TableMapping) : Prop :=
  ∀ c ∈ t.columns, Sql.IsClassName c.storage ∧ ∀ s ∈ c.collation, Sql.IsCollationName s

theorem isDefinedBy_names {columns : List Column} (h : List.Forall₂ Column.IsDefinedBy columns cs) :
    cs.map ColumnDefinition.name = columns.map Column.name := by
  induction h with
  | nil => rfl
  | cons hd _ ih => rw [List.map_cons, List.map_cons, hd.name, ih]

theorem exists_definitions {columns : List Column} (plain : ∀ c ∈ columns,
      Sql.IsClassName c.storage ∧ ∀ s ∈ c.collation, Sql.IsCollationName s) :
    ∃ items cs, List.Forall₂ (fun c ks => read? c.declaration.toList = some ks) columns items ∧
      (∀ ks ∈ items, Sql.nest 0 ks = some 0) ∧ List.Forall₂ Column.IsDefinedBy columns cs ∧
      ∀ {rest cs' key}, definitions? rest = some (cs', key) →
        definitions? (items ++ rest) = some (cs ++ cs', key) := by
  induction columns with
  | nil => exact ⟨[], [], .nil, by simp, .nil, id⟩
  | cons c columns ih =>
    obtain ⟨⟨class_, collation⟩, plain⟩ := List.forall_mem_cons.1 plain
    obtain ⟨items, cs, read, even, defined, all⟩ := ih plain
    obtain ⟨ls, d, hr, hn, hd, is_d⟩ := c.exists_definition class_ collation
    refine ⟨(.name c.name :: ls) :: items, d :: cs, .cons hr read, ?_, .cons is_d defined,
      fun rest => ?_⟩
    · exact List.forall_mem_cons.2 ⟨hn, even⟩
    · rw [List.cons_append, definitions?, hd, all rest]
      · rfl
      · simp

theorem exists_keyLine (t : TableMapping) : ∃ items,
    List.Forall₂ (fun s ks => read? (String.toList s) = some ks) t.keyClause items ∧
    (∀ ks ∈ items, Sql.nest 0 ks = some 0) ∧
    definitions? items = some ([],
      if t.autoIncrement?.isSome || t.keys.isEmpty then [] else t.keys.map Column.name) := by
  rw [keyClause_eq]
  split
  · exact ⟨[], .nil, by simp, rfl⟩
  · next hk =>
    have some_key : t.keys.map Column.name ≠ [] := fun none =>
      hk (by simp [List.map_eq_nil_iff.1 none])
    refine ⟨_, .cons (Sql.read?_keyText _) .nil, ?_, ?_⟩
    · simp [Sql.nest, Sql.Token.nest, Sql.nest_append, Sql.nest_nameTokens]
    · rw [definitions?, Sql.names?_nameTokens some_key]
      rfl

theorem definitions_of_createTable (plain : t.IsPlain) (hn : t.columns ≠ [])
    (h : Command.ofText? t.createTable = some (.createTable table cs key)) :
    List.Forall₂ Column.IsDefinedBy t.columns cs ∧
      key = if t.autoIncrement?.isSome || t.keys.isEmpty then [] else t.keys.map Column.name := by
  obtain ⟨ks, read, hc⟩ := createTable?_of_command h
  obtain ⟨items, cs', lines, even, defined, all⟩ := exists_definitions plain
  obtain ⟨last, keyLine, keyEven, keyed⟩ := t.exists_keyLine
  have comma : Completes ", ".toList [.comma] := by decide
  have closing : Completes ")".toList [.closing] := by decide
  have each : List.Forall₂ (fun cs ks => read? cs = some ks)
      ((t.columns.map Column.declaration ++ t.keyClause).map String.toList) (items ++ last) := by
    rw [List.forall₂_map_left_iff]
    exact List.rel_append (List.forall₂_map_left_iff.2 lines) keyLine
  have whole := read?_end closing rfl (read?_intercalate comma rfl each)
  have some_item : items ++ last ≠ [] := by
    intro none
    rw [List.append_eq_nil_iff.1 none |>.1, List.forall₂_nil_right_iff] at lines
    exact hn lines
  rw [String.toList_append, String.toList_intercalate, whole, Option.some.injEq] at read
  subst read
  simp only [Command.createTable?,
    Sql.parts?_separated some_item (List.forall_mem_append.2 ⟨even, keyEven⟩),
    Option.bind_eq_bind, Option.bind_some, all keyed] at hc
  split at hc <;> cases hc
  exact ⟨by simpa using defined, rfl⟩

end TableMapping

theorem StorageRules.isClassName_class {rules : StorageRules} {kind : Kind}
    {maxLength : Option Nat} {class_ : String} (h : rules.class? kind maxLength = some class_)
    (custom : ∀ x ∈ rules.classes, Sql.IsClassName x.2) : Sql.IsClassName class_ := by
  have word {s : String} (read : read? s.toList = some [.word s]) (plain : isKeyword s = false) :
      Sql.IsClassName s :=
    ⟨[s], [], [], read, by simpa using plain, .none, by simp⟩
  have closing : Completes ")".toList [.closing] := by decide
  have sized {s w : String} {n : Nat} (begins : Completes s.toList [.word w, .opening])
      (plain : isKeyword w = false) :
      Sql.IsClassName (s ++ String.ofList (Decimal.digits n) ++ ")") := by
    refine ⟨[w], [n], _, ?_, by simpa using plain, .one n, by simp⟩
    rw [String.append_assoc, String.toList_append, String.toList_append, String.toList_ofList]
    exact begins.read?_append (read?_end closing rfl (Sql.Lexer.read?_digits n))
  cases kind with
  | text =>
    cases h
    exact sized (w := "text") (by decide) (by decide)
  | uuid =>
    cases h
    exact ⟨["varchar"], [36], _, by decide, by decide, .one 36, by simp⟩
  | datetime =>
    cases h
    split <;> exact word (by decide) (by decide)
  | custom name =>
    simp only [class?, customClass?] at h
    split at h
    · next found =>
      cases h
      obtain ⟨before, after, split, _⟩ := List.lookup_eq_some_iff.1 found
      have given : (Kind.custom name, class_) ∈ rules.classes := by
        rw [← List.mem_reverse, split]
        simp
      exact custom _ given
    · split at h <;> cases h
      exact word (by decide) (by decide)
  | _ =>
    cases h
    exact word (by decide) (by decide)

theorem RecordType.isPlain_of_resolve {type : RecordType} {conventions : Conventions}
    {rules : StorageRules} {p : Provider} {m : TableMapping}
    (hm : TableMapping.resolve type conventions rules p = .ok m)
    (custom : ∀ x ∈ rules.classes, Sql.IsClassName x.2)
    (collated : ∀ x ∈ type.stored p, ∀ s ∈ (p.facts x.1).collation, Sql.IsCollationName s) :
    m.IsPlain := by
  intro c hc
  obtain ⟨x, hx, describes⟩ := exists_of_forall₂ (described_columns hm) hc
  refine ⟨StorageRules.isClassName_class (StorageRules.storageClass_eq_ok.1 describes.storage)
    custom, ?_⟩
  rw [describes.collation]
  exact collated x hx

end Tabular
