import Tabular.Proofs.Sql.Lexing
import Tabular.Schema.Statement

namespace Tabular

open Text.Delimited (SelfDelimiting selfDelimiting_of_encode scan)

theorem selfDelimiting_quoteIdentifier : SelfDelimiting '"' "" "" quoteIdentifier :=
  selfDelimiting_of_encode fun name => by simp [quoteIdentifier]

theorem selfDelimiting_quoteLiteral : SelfDelimiting '\x27' "" "" quoteLiteral :=
  selfDelimiting_of_encode fun s => by simp [quoteLiteral]

namespace Column

theorem declaration_default (c : Column) (s : String) :
    { c with default := some s }.declaration =
      { c with default := none }.declaration ++ "default(" ++ (quoteLiteral s ++ ")") := by
  simp only [declaration, quotedName, String.intercalate_cons_cons, String.intercalate_singleton,
    String.append_assoc, String.empty_append]

theorem selfDelimiting_declaration (c : Column) :
    SelfDelimiting '\x27' ({ c with default := none }.declaration ++ "default(") ")"
      fun s => { c with default := some s }.declaration :=
  selfDelimiting_of_encode fun s => declaration_default c s

end Column

theorem quotations_delimit_themselves :
    SelfDelimiting '"' "" "" quoteIdentifier ∧
    SelfDelimiting '\x27' "" "" quoteLiteral ∧
    (∀ c : Column, SelfDelimiting '\x27' ({ c with default := none }.declaration ++ "default(") ")"
      fun s => { c with default := some s }.declaration) ∧
    ∀ q cs, q = '"' ∨ q = '\x27' → Sql.Lexer.read? (q :: cs) =
      (scan q (q :: cs)).bind fun p =>
        (Sql.Lexer.read? p.2).map (Sql.Lexer.quoted q p.1.reverse :: ·) :=
  ⟨selfDelimiting_quoteIdentifier, selfDelimiting_quoteLiteral, Column.selfDelimiting_declaration,
    fun _ cs hq => Sql.Lexer.read?_quotation hq cs⟩

theorem quotations_delimit_themselves_tags :
    let name := "\"\"a\"b\""
    let text := "'a''b''"
    let c : Column := {
      name := name
      property := "tag"
      memberIndex := 1
      kind := .text
      storage := "text"
      nullable := true
      primaryKey := false
      autoIncrement := false
      collation := some "binary default('"
      maxLength := none
      default := none }
    (∃ quotation, quoteIdentifier name ++ " = ?" = "" ++ quotation ∧
      scan '"' quotation.toList = some (name.toList, " = ?".toList)) ∧
    (∃ quotation, quoteLiteral text ++ ", " = "" ++ quotation ∧
      scan '\x27' quotation.toList = some (text.toList, ", ".toList)) ∧
    (∃ quotation, { c with default := some text }.declaration ++ ", " =
        c.declaration ++ "default(" ++ quotation ∧
      scan '\x27' quotation.toList = some (text.toList, "), ".toList)) ∧
    Sql.Lexer.read? (quoteIdentifier name ++ " = ?").toList =
      some [.name name, .eq, .placeholder] := by
  intro name text c
  obtain ⟨names, literals, defaults, lexed⟩ := quotations_delimit_themselves
  have opened : (quoteIdentifier name ++ " = ?").toList =
      '"' :: "\"\"\"\"a\"\"b\"\"\" = ?".toList := by decide +kernel
  refine ⟨names.scans name " = ?" (by decide), literals.scans text ", " (by decide),
    (defaults c).scans text ", " (by decide), ?_⟩
  rw [opened, lexed '"' _ (.inl rfl)]
  decide +kernel

end Tabular
