import Tabular.Proofs.Schema.Resolving
import Tabular.Proofs.Sql.Declaration
import Tabular.Schema.Statement

namespace Tabular

open Sql

namespace Column

open ColumnLine (takeStorage? takeWords takeCollation default?)

variable {c : Column}

def line (c : Column) : ColumnLine where
  name := c.name
  storage := c.storage
  numbered := c.autoIncrement
  notNull := !c.nullable
  collation := c.collation
  default := c.default

def keyWords (c : Column) : List String :=
  if c.autoIncrement then ["primary", "key", "autoincrement"] else []

def nullWords (c : Column) : List String := if c.nullable then [] else ["not", "null"]

def collationWords (c : Column) : List String :=
  match c.collation with
  | some s => ["collate", s]
  | none => []

def defaultWords (c : Column) : List String :=
  match c.default with
  | some s => ["default(" ++ quoteLiteral s ++ ")"]
  | none => []

def clauses (c : Column) : List (List String) :=
  [c.keyWords, c.nullWords, c.collationWords, c.defaultWords]

theorem declaration_eq (c : Column) : c.declaration =
    " ".intercalate (c.quotedName :: c.storage :: c.clauses.map (" ".intercalate ·)) := by
  unfold declaration clauses keyWords nullWords collationWords defaultWords
  cases c.autoIncrement <;> cases c.nullable <;> cases c.collation <;> cases c.default <;> rfl

theorem head?_declaration (c : Column) : c.declaration.toList.head? ≠ some ' ' := by
  simp [declaration, quotedName, quoteIdentifier, Text.Delimited.encode]

section Words

variable (c : Column) {w : String} {fs : List String}

theorem head?_defaultWords (hw : w.toList.head? ≠ some 'd') : c.defaultWords.head? ≠ some w := by
  unfold defaultWords
  split
  · rintro h
    cases h
    simp at hw
  · simp

theorem head?_collationWords (hw : w ≠ "collate") (h : fs.head? ≠ some w) :
    (c.collationWords ++ fs).head? ≠ some w := by
  unfold collationWords
  split
  · simpa using hw.symm
  · exact h

theorem head?_nullWords (hw : w ≠ "not") (h : fs.head? ≠ some w) :
    (c.nullWords ++ fs).head? ≠ some w := by
  unfold nullWords
  split
  · exact h
  · simpa using hw.symm

theorem head?_keyWords (hw : w ≠ "primary") (h : fs.head? ≠ some w) :
    (c.keyWords ++ fs).head? ≠ some w := by
  unfold keyWords
  split
  · simpa using hw.symm
  · exact h

theorem takeWords_keyWords (h : fs.head? ≠ some "primary") :
    takeWords ["primary", "key", "autoincrement"] (c.keyWords ++ fs) = (c.autoIncrement, fs) := by
  unfold keyWords
  cases c.autoIncrement
  · exact ColumnLine.takeWords_of_head?_ne h
  · exact ColumnLine.takeWords_append _ fs

theorem takeWords_nullWords (h : fs.head? ≠ some "not") :
    takeWords ["not", "null"] (c.nullWords ++ fs) = (!c.nullable, fs) := by
  unfold nullWords
  cases c.nullable
  · exact ColumnLine.takeWords_append _ fs
  · exact ColumnLine.takeWords_of_head?_ne h

theorem takeCollation_collationWords (h : fs.head? ≠ some "collate") :
    takeCollation (c.collationWords ++ fs) = (c.collation, fs) := by
  unfold collationWords
  split
  · next s hs => rw [hs]; rfl
  · next hs =>
    rw [hs]
    exact ColumnLine.takeCollation_of_head?_ne h

theorem default?_defaultWords : default? c.defaultWords = some c.default := by
  unfold defaultWords
  split
  · next s hs => rw [ColumnLine.default?_quoteLiteral, hs]
  · next hs => rw [hs]; rfl

end Words

theorem forall_mem_clauses {P : String → Prop}
    (keywords : ∀ s ∈ ["primary", "key", "autoincrement", "not", "null", "collate"], P s)
    (collation : ∀ s ∈ c.collation, P s)
    (default : ∀ s ∈ c.default, P ("default(" ++ quoteLiteral s ++ ")")) :
    ∀ words ∈ c.clauses, ∀ s ∈ words, P s := by
  simp only [List.forall_mem_cons] at keywords
  obtain ⟨primary, key, autoincrement, not, null, collate, _⟩ := keywords
  simp only [clauses, List.forall_mem_cons, List.not_mem_nil, false_implies, implies_true, and_true]
  refine ⟨?_, ?_, ?_, ?_⟩
  · unfold keyWords
    split
    · simp [primary, key, autoincrement]
    · simp
  · unfold nullWords
    split
    · simp
    · simp [not, null]
  · unfold collationWords
    split
    · next s h => simp [collate, collation s h]
    · simp
  · unfold defaultWords
    split
    · next s h => simpa using default s h
    · simp

theorem isField_of_mem_clauses (hc : ∀ s ∈ c.collation, IsWord s) :
    ∀ words ∈ c.clauses, ∀ s ∈ words, IsField s := by
  have keywords : ∀ s ∈ ["primary", "key", "autoincrement", "not", "null", "collate"],
      IsWord s := by decide
  have default : IsWord "default" := by decide
  refine forall_mem_clauses (fun s hs => (keywords s hs).isField) (fun s hs => (hc s hs).isField) ?_
  intro s _
  have brackets := isField_brackets (.quoteLiteral s)
  simpa [← String.append_assoc] using default.isField.append brackets

section Line

variable (hs : IsStorageClass c.storage) (hc : ∀ s ∈ c.collation, IsWord s)

include hs hc

theorem closed_of_mem_items :
    ∀ s ∈ c.quotedName :: c.storage :: c.clauses.map (" ".intercalate ·),
      Closed (· ≠ ',') s.toList := by
  simp only [List.forall_mem_cons, List.forall_mem_map]
  refine ⟨.quoteIdentifier c.name, hs.closed, fun words hw => ?_⟩
  refine .intercalate (.of_plain (by simp [isPlain])) fun s hm => ?_
  exact (isField_of_mem_clauses hc words hw s hm).without_commas

theorem closed_declaration : Closed (· ≠ ',') c.declaration.toList := by
  rw [declaration_eq]
  exact .intercalate (.of_plain (by simp [isPlain])) (closed_of_mem_items hs hc)

theorem between_declaration : ∃ rest,
    between c.declaration.toList = c.quotedName :: (between c.storage.toList ++ rest) ∧
      rest.filter (· ≠ "") = c.clauses.flatten := by
  have words := List.flatMap_congr fun words hw =>
    fields_intercalate (isField_of_mem_clauses hc words hw)
  refine ⟨c.clauses.flatMap fun words => between (" ".intercalate words).toList, ?_, ?_⟩
  · rw [declaration_eq, between_intercalate (by simp) (closed_of_mem_items hs hc),
      List.flatMap_cons, List.flatMap_cons, List.flatMap_map]
    rw [quotedName, (isField_quoteIdentifier c.name).between_eq]
    rfl
  · rw [List.filter_flatMap]
    exact words.trans List.flatMap_id'

theorem ofText?_declaration : ColumnLine.ofText? c.declaration.toList = some c.line := by
  obtain ⟨rest, pieces, clauses⟩ := between_declaration hs hc
  have read : unquote? '"' c.quotedName.toList = some c.name := unquote?_quoteIdentifier c.name
  have clauses : rest.filter (· ≠ "") =
      c.keyWords ++ (c.nullWords ++ (c.collationWords ++ c.defaultWords)) := by
    simpa [Column.clauses] using clauses
  have storage : takeStorage? (between c.storage.toList ++ rest) = some (c.storage, rest) := by
    refine ColumnLine.takeStorage?_between hs ?_
    rw [clauses]
    intro s hm first
    have other {w : String} (hw : w.toList.head? ≠ some '(') : s ≠ w := by
      rintro rfl
      exact hw first
    exact c.head?_keyWords (other (by decide)) (c.head?_nullWords (other (by decide))
      (c.head?_collationWords (other (by decide)) (c.head?_defaultWords (by simp [first])))) hm
  -- A clause that does not apply is not found, since no other clause begins with its first word.
  have numbered := c.takeWords_keyWords <| c.head?_nullWords (w := "primary") (by decide) <|
    c.head?_collationWords (by decide) <| c.head?_defaultWords (by decide)
  have notNull := c.takeWords_nullWords <|
    c.head?_collationWords (w := "not") (by decide) <| c.head?_defaultWords (by decide)
  have collation := c.takeCollation_collationWords <| c.head?_defaultWords (by decide)
  simp only [ColumnLine.ofText?, pieces, storage, clauses, numbered, notNull, collation, read,
    default?_defaultWords, Option.bind_eq_bind, Option.bind_some]
  rfl

theorem keyLine?_declaration : keyLine? c.declaration.toList = none := by
  obtain ⟨rest, pieces, _⟩ := between_declaration hs hc
  have named : c.quotedName ≠ "" := (isField_quoteIdentifier c.name).1
  have first : c.quotedName ≠ "primary" := by
    intro h
    have := congrArg (·.toList.head?) h
    simp [quotedName, quoteIdentifier, Text.Delimited.encode] at this
  have after : fieldsAfter? ["primary", "key"] c.declaration.toList = none := by
    rw [fieldsAfter?, fields, pieces]
    simp [List.dropPrefix?, named, first]
  rw [keyLine?, after]

end Line

end Column

namespace Sql

variable (names : List String)

theorem closed_names :
    Closed (fun _ => True) (", ".intercalate (names.map quoteIdentifier)).toList := by
  refine .intercalate (.of_plain (by simp [isPlain])) fun s hs => ?_
  obtain ⟨n, _, rfl⟩ := List.mem_map.1 hs
  exact .quoteIdentifier n

theorem parts_names (hn : names ≠ []) :
    parts (", ".intercalate (names.map quoteIdentifier)).toList =
      names.map fun n => (quoteIdentifier n).toList := by
  have some_name : names.map quoteIdentifier ≠ [] := by simpa using hn
  rw [parts_intercalate some_name, List.map_map]
  · rfl
  · intro s hs
    obtain ⟨n, _, rfl⟩ := List.mem_map.1 hs
    exact ⟨.quoteIdentifier n, by simp [quoteIdentifier, Text.Delimited.encode]⟩

def keyText (names : List String) : String :=
  "primary key (" ++ ", ".intercalate (names.map quoteIdentifier) ++ ")"

theorem keyLine?_keyText (hn : names ≠ []) : keyLine? (keyText names).toList = some names := by
  have text (inner : String) : "primary key (" ++ inner ++ ")" =
      " ".intercalate (["primary", "key"] ++ ["(" ++ inner ++ ")"]) := by
    apply String.toList_injective
    simp
  have after := @fieldsAfter?_append ["primary", "key"] _ (by decide)
    (List.forall_mem_singleton.2 (isField_brackets (closed_names names)))
  have read : unquote? '"' ∘ (fun n => (quoteIdentifier n).toList) = fun n => pure (id n) := by
    funext n
    simp
  unfold keyText
  simp only [keyLine?, text, after, unbracket?_brackets, Option.bind_some,
    parts_names names hn, List.mapM_map, read, List.mapM_pure, List.map_id]
  rfl

theorem closed_keyText : Closed (· ≠ ',') (keyText names).toList := by
  have words : Closed (· ≠ ',') "primary key ".toList := .of_plain (by simp [isPlain])
  unfold keyText
  simpa using words.append (.brackets (closed_names names) .nil)

theorem head?_keyText : (keyText names).toList.head? ≠ some ' ' := by
  unfold keyText
  simp

end Sql

namespace TableMapping

variable {t : TableMapping}

theorem keyClause_eq (t : TableMapping) : t.keyClause =
    if t.autoIncrement?.isSome || t.keys.isEmpty then []
    else [keyText (t.keys.map Column.name)] := by
  unfold keyClause keyText
  rw [List.map_map]
  rfl

theorem lines?_keyClause (t : TableMapping) :
    TableText.lines? (t.keyClause.map String.toList) =
      some ([], if t.autoIncrement?.isSome || t.keys.isEmpty then []
        else [t.keys.map Column.name]) := by
  rw [keyClause_eq]
  split
  · rfl
  · next h =>
    have some_key : t.keys.map Column.name ≠ [] := fun none =>
      h (by simp [List.map_eq_nil_iff.1 none])
    simp only [List.map_cons, List.map_nil, TableText.lines?, keyLine?_keyText _ some_key]

theorem lines?_declarations {cs : List Column} {last : List (List Char)} {keys : List (List String)}
    (hs : ∀ c ∈ cs, IsStorageClass c.storage) (hc : ∀ c ∈ cs, ∀ s ∈ c.collation, IsWord s)
    (hl : TableText.lines? last = some ([], keys)) :
    TableText.lines? (cs.map (·.declaration.toList) ++ last) =
      some (cs.map Column.line,
        (cs.filter Column.autoIncrement).map (fun c => [c.name]) ++ keys) := by
  induction cs with
  | nil => simpa using hl
  | cons c cs ih =>
    obtain ⟨hsc, hs⟩ := List.forall_mem_cons.1 hs
    obtain ⟨hcc, hc⟩ := List.forall_mem_cons.1 hc
    simp only [List.map_cons, List.cons_append, TableText.lines?,
      Column.keyLine?_declaration hsc hcc, Column.ofText?_declaration hsc hcc, ih hs hc,
      Option.bind_eq_bind, Option.bind_some, List.filter_cons, Column.line]
    cases c.autoIncrement <;> rfl

def declaredKeys (t : TableMapping) : List (List String) :=
  (t.columns.filter Column.autoIncrement).map (fun c => [c.name]) ++
    if t.autoIncrement?.isSome || t.keys.isEmpty then [] else [t.keys.map Column.name]

def lines (t : TableMapping) : List String := t.columns.map Column.declaration ++ t.keyClause

theorem createTable_eq (t : TableMapping) : t.createTable = " ".intercalate
    (["create", "table", "if", "not", "exists"] ++
      [t.quotedName, "(" ++ ", ".intercalate t.lines ++ ")"]) := by
  have text (name body : String) :
      "create table if not exists " ++ name ++ " (" ++ body ++ ")" = " ".intercalate
        (["create", "table", "if", "not", "exists"] ++ [name, "(" ++ body ++ ")"]) := by
    apply String.toList_injective
    simp
  exact text t.quotedName (", ".intercalate t.lines)

section Lines

variable (hs : ∀ c ∈ t.columns, IsStorageClass c.storage)
  (hc : ∀ c ∈ t.columns, ∀ s ∈ c.collation, IsWord s)

include hs hc

theorem closed_of_mem_lines :
    ∀ s ∈ t.lines, Closed (· ≠ ',') s.toList ∧ s.toList.head? ≠ some ' ' := by
  rw [lines, List.forall_mem_append, List.forall_mem_map]
  constructor
  · intro c hm
    exact ⟨Column.closed_declaration (hs c hm) (hc c hm), c.head?_declaration⟩
  · intro s hm
    rw [keyClause_eq] at hm
    split at hm
    · cases hm
    · rw [List.mem_singleton] at hm
      subst hm
      exact ⟨closed_keyText _, head?_keyText _⟩

theorem closed_body : Closed (fun _ => True) (", ".intercalate t.lines).toList := by
  refine .intercalate (.of_plain (by simp [isPlain])) fun s hm => ?_
  exact (closed_of_mem_lines hs hc s hm).1.mono fun _ _ => trivial

theorem fieldsAfter?_createTable :
    fieldsAfter? ["create", "table", "if", "not", "exists"] t.createTable.toList =
      some [t.quotedName, "(" ++ ", ".intercalate t.lines ++ ")"] := by
  have isField : ∀ s ∈ [t.quotedName, "(" ++ ", ".intercalate t.lines ++ ")"], IsField s := by
    simp only [List.forall_mem_cons]
    exact ⟨isField_quoteIdentifier _, isField_brackets (closed_body hs hc), by simp⟩
  have words : ∀ s ∈ ["create", "table", "if", "not", "exists"], IsWord s := by decide
  simp only [createTable_eq]
  exact fieldsAfter?_append words isField

theorem ofText?_createTable (hn : t.columns ≠ []) :
    TableText.ofText? t.createTable =
      some ⟨t.tableName, t.columns.map Column.line, t.declaredKeys⟩ := by
  have some_line : t.lines ≠ [] := by simp [lines, hn]
  have parts : parts (", ".intercalate t.lines).toList =
      t.columns.map (·.declaration.toList) ++ t.keyClause.map String.toList := by
    rw [parts_intercalate some_line (closed_of_mem_lines hs hc), lines, List.map_append,
      List.map_map]
    rfl
  have read : unquote? '"' t.quotedName.toList = some t.tableName :=
    unquote?_quoteIdentifier t.tableName
  simp only [TableText.ofText?, fieldsAfter?_createTable hs hc, unbracket?_brackets, parts, read,
    lines?_declarations hs hc (lines?_keyClause t), Option.bind_eq_bind, Option.bind_some]
  rfl

end Lines

end TableMapping

theorem RecordType.declaredKeys_eq {type : RecordType} {conventions : Conventions}
    {rules : StorageRules} {p : Provider} {t : TableMapping}
    (ht : TableMapping.resolve type conventions rules p = .ok t) :
    t.declaredKeys = if t.keys = [] then [] else [t.keys.map Column.name] := by
  unfold TableMapping.declaredKeys TableMapping.autoIncrement?
  by_cases h : ∃ c ∈ t.columns, c.autoIncrement
  · obtain ⟨c, hc, numbered⟩ := h
    obtain ⟨_, _, _, only, keys⟩ := numbered_column ht hc numbered
    have found : (t.columns.find? Column.autoIncrement).isSome :=
      List.find?_isSome.2 ⟨c, hc, numbered⟩
    simp [only, keys, found]
  · have none_numbered : t.columns.filter Column.autoIncrement = [] :=
      List.filter_eq_nil_iff.2 fun c hc numbered => h ⟨c, hc, numbered⟩
    have not_found : (t.columns.find? Column.autoIncrement).isSome = false := by
      simpa using h
    simp [none_numbered, not_found]

theorem RecordType.createTable_describes {type : RecordType} {conventions : Conventions}
    {rules : StorageRules} {p : Provider} {t : TableMapping}
    (ht : TableMapping.resolve type conventions rules p = .ok t) (hn : t.columns ≠ [])
    (hs : ∀ c ∈ t.columns, IsStorageClass c.storage)
    (hc : ∀ c ∈ t.columns, ∀ s ∈ c.collation, IsWord s) :
    TableText.ofText? t.createTable = some {
      name := t.tableName
      columns := t.columns.map Column.line
      keys := if t.keys = [] then [] else [t.keys.map Column.name] } := by
  rw [TableMapping.ofText?_createTable hs hc hn, declaredKeys_eq ht]

def labels : RecordType where
  name := "Label"
  tableName := some "labels, \"all\" of them"
  members := [
    { name := "id", kind := .int64, attributes := [.primaryKey] },
    { name := "language", kind := .custom "Language"
      attributes := [.name "in (language)", .primaryKey, .collation "nocase"] },
    { name := "label", kind := .text, attributes := [.notNull, .default "it's, (none)"] }]

def languages : StorageRules where
  classes := [(.custom "Language", "varchar (3)")]

theorem RecordType.createTable_describes_labels : ∃ t,
    TableMapping.resolve labels {} languages .attributes = .ok t ∧
    TableText.ofText? t.createTable = some {
      name := "labels, \"all\" of them"
      columns := [
        { name := "id", storage := "integer", numbered := false, notNull := true
          collation := none, default := none },
        { name := "in (language)", storage := "varchar (3)", numbered := false, notNull := true
          collation := some "nocase", default := none },
        { name := "label", storage := "text(140)", numbered := false, notNull := true
          collation := none, default := some "it's, (none)" }]
      keys := [["id", "in (language)"]] } := by
  obtain ⟨t, ht, name, keys, lines, classes, collations⟩ : ∃ t,
      TableMapping.resolve labels {} languages .attributes = .ok t ∧
      t.tableName = "labels, \"all\" of them" ∧
      t.keys.map Column.name = ["id", "in (language)"] ∧
      t.columns.map Column.line = [
        ⟨"id", "integer", false, true, none, none⟩,
        ⟨"in (language)", "varchar (3)", false, true, some "nocase", none⟩,
        ⟨"label", "text(140)", false, true, none, some "it's, (none)"⟩] ∧
      t.columns.map Column.storage = ["integer", "varchar (3)", "text(140)"] ∧
      t.columns.map Column.collation = [none, some "nocase", none] :=
    ⟨_, by rfl, by rfl, by rfl, by rfl, by rfl, by rfl⟩
  have some_column : t.columns ≠ [] := by
    intro h
    rw [h] at classes
    cases classes
  have some_key : t.keys ≠ [] := by
    intro h
    rw [h] at keys
    cases keys
  have stored : ∀ s ∈ t.columns.map Column.storage, IsStorageClass s := by
    rw [classes]
    simp only [List.forall_mem_cons]
    exact ⟨⟨"integer", by decide, .inl rfl⟩,
      ⟨"varchar", by decide, .inr ⟨1, "3", by simp [isPlain], rfl⟩⟩,
      ⟨"text", by decide, .inr ⟨0, "140", by simp [isPlain], rfl⟩⟩, by simp⟩
  have collated : ∀ o ∈ t.columns.map Column.collation, ∀ s ∈ o, IsWord s := by
    rw [collations]
    decide
  have read := createTable_describes ht some_column (List.forall_mem_map.1 stored)
    (List.forall_mem_map.1 collated)
  rw [if_neg some_key, keys, name, lines] at read
  exact ⟨t, ht, read⟩

end Tabular
