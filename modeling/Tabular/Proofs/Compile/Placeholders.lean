import Tabular.Proofs.Compile.Functions

namespace Tabular

open Marked (ofString IsNeutral Whole whole_ofString)

namespace Clause

theorem whole_separated {texts : List Marked} (h : ∀ ms ∈ texts, Whole ms) :
    Whole (separated texts) := by
  have comma : Whole (ofString ",") := by decide
  exact comma.intercalate h

theorem whole_operator (op : Sql.Operator) : Whole (ofString (" " ++ op.text ++ " ")) := by
  cases op <;> decide

theorem whole_write {c : Clause} (h : c.CallsOnly fun g => ∀ d ∈ g.toList, IsNeutral d) :
    Whole c.write := by
  have opening : Whole (ofString "(") := by decide
  have closing : Whole (ofString ")") := by decide
  induction c using Clause.induction with
  | datum d => exact rfl
  | list ds =>
    have items : Whole (separated (ds.map fun d => [.datum d])) :=
      whole_separated fun ms hms => by obtain ⟨d, _, rfl⟩ := List.mem_map.1 hms; rfl
    exact (opening.append items).append closing
  | column name => exact Marked.whole_quoteIdentifier name
  | literal s => exact Marked.whole_quoteLiteral s
  | brackets c ih => exact (opening.append (ih h)).append closing
  | infixed op left right ihl ihr =>
    have front := (opening.append (ihl h.1)).append (whole_operator op)
    exact (front.append (ihr h.2)).append closing
  | anywhere part ih =>
    have front : Whole (ofString "('%' || ") := by decide
    have back : Whole (ofString " || '%')") := by decide
    exact (front.append (ih h)).append back
  | apply function args ih =>
    have items : Whole (separated (writeAll args)) :=
      whole_separated fun ms hms => by
        rw [writeAll_eq_map] at hms
        obtain ⟨c, hc, rfl⟩ := List.mem_map.1 hms
        exact ih c hc (callOnly_iff.1 h.2 c hc)
    exact (((whole_ofString h.1).append opening).append items).append closing
  | isFalse c ih =>
    have zero : Whole (ofString " = 0") := by decide
    exact (ih h).append zero
  | negated c ih => rw [Whole, write, Marked.scan_negated]; exact ih h

end Clause

namespace TableMapping

/-- The text of an expression with every argument written where it is used. -/
def inPlace (t : TableMapping) (e : Expr) : Option Marked := (t.clause e).map Clause.write

theorem compile_fills (t : TableMapping) (e : Expr) (params : List Datum)
    (h : ∀ m ∈ e.methods, Sql.isPlainName m) :
    match t.compile e params with
    | (.ok f, params') => ∃ args text, params' = params ++ args ∧ t.inPlace e = some text ∧
        countPlaceholders .outside f.sql.toList = args.length ∧
        fill .outside f.sql.toList args = some text
    | (.error _, params') => params' = params := by
  rw [compile]
  cases hf : t.fragment e with
  | error fault => rfl
  | ok f =>
    obtain ⟨c, hc, hp⟩ := fragment_prints hf
    have neutral (s : String) (hs : Sql.isPlainName s) : ∀ d ∈ s.toList, IsNeutral d :=
      fun d hd => Sql.isNeutral_of_isPlainName hs hd
    have lower : ∀ d ∈ "lower".toList, IsNeutral d := by simp [IsNeutral]
    have methods (m : String) (hm : m ∈ e.methods) : ∀ d ∈ (Text.lower m).toList, IsNeutral d :=
      neutral _ (Sql.isPlainName_lower (h m hm))
    have whole : Whole c.write := Clause.whole_write (clause_callsOnly lower methods hc)
    refine ⟨f.args, c.write, rfl, by rw [inPlace, hc]; rfl, ?_, ?_⟩
    · rw [hp.text, hp.args]
      exact Marked.countPlaceholders_text whole
    · rw [hp.text, hp.args]
      exact Marked.fill_text whole

theorem compile_fills_notes :
    let e : Expr := .binary .and (.binary .eq (.constant .null) (.field "Title"))
      (.not (.call "contains" [.captured "ids" (.list [.int 1, .int 2]), .field "Id"]))
    (∀ m ∈ e.methods, Sql.isPlainName m) ∧
      ∃ f, notes.compile e [.integer 7] = (.ok f, [.integer 7, .null, .integer 1, .integer 2]) ∧
        f.sql = "((\"title\" is ?) and (\"id\" not in (?,?)))" ∧
        ∃ text, notes.inPlace e = some text ∧ countPlaceholders .outside f.sql.toList = 3 ∧
          fill .outside f.sql.toList [.null, .integer 1, .integer 2] = some text := by
  intro e
  have h : ∀ m ∈ e.methods, Sql.isPlainName m := by decide
  obtain ⟨args, text, hargs, ht, hc, hf⟩ := compile_fills notes e [.integer 7] h
  obtain rfl : args = [.null, .integer 1, .integer 2] := List.append_cancel_left hargs.symm
  exact ⟨h, _, rfl, by decide, text, ht, hc, hf⟩

end TableMapping

end Tabular
