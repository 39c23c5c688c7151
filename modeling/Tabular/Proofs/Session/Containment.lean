import Tabular.Proofs.Database.Pattern
import Tabular.Proofs.Session.Equality

namespace Tabular

open Database (Row Table argument beforeNul greatestPattern matchesPattern)
open Query (meeting)
open Sql (Term)

def Expr.ofText (captured : Option String) (text : String) : Expr :=
  match captured with
  | none => .constant (.text text)
  | some name => .captured name (.text text)

inductive TextTest
  | starts
  | ends
  | contains
  deriving DecidableEq

namespace TextTest

def method : TextTest → String
  | .starts => "starts_with"
  | .ends => "ends_with"
  | .contains => "contains"

def ask (test : TextTest) (property : String) (captured : Option String) (part : String) : Expr :=
  .invoke (.field property) test.method [.ofText captured part]

/-- What the name says, ASCII case aside. -/
def Means (test : TextTest) (part text : List Char) : Prop :=
  match test with
  | .starts => part.map Text.foldChar <+: text.map Text.foldChar
  | .ends => part.map Text.foldChar <:+ text.map Text.foldChar
  | .contains => part.map Text.foldChar <:+: text.map Text.foldChar

instance : ∀ (test : TextTest) (part text : List Char), Decidable (test.Means part text)
  | .starts, _, _ => inferInstanceAs (Decidable (_ <+: _))
  | .ends, _, _ => inferInstanceAs (Decidable (_ <:+ _))
  | .contains, _, _ => inferInstanceAs (Decidable (_ <:+: _))

def tail : TextTest → String
  | .starts => " like (? || '%'))"
  | .ends => " like ('%' || ?))"
  | .contains => " like ('%' || ? || '%'))"

def patternTerm : TextTest → Term
  | .starts => .binary .concat (.placeholder 0) (.literal "%")
  | .ends => .binary .concat (.literal "%") (.placeholder 0)
  | .contains => .binary .concat (.binary .concat (.literal "%") (.placeholder 0)) (.literal "%")

def pattern (test : TextTest) (part : String) : String :=
  match test with
  | .starts => part ++ "%"
  | .ends => "%" ++ part
  | .contains => "%" ++ part ++ "%"

def accepts (test : TextTest) (part text : String) : Bool :=
  matchesPattern (beforeNul (test.pattern part)) (beforeNul text)

/-- No character of the part stands for others or ends the text. -/
def IsLiteral (part : String) : Prop :=
  ∀ c ∈ part.toList, Database.isWildcard c = false ∧ c ≠ '\x00'

instance (part : String) : Decidable (IsLiteral part) :=
  List.decidableBAll (fun c => Database.isWildcard c = false ∧ c ≠ '\x00') part.toList

theorem beforeNul_eq {s : String} (h : '\x00' ∉ s.toList) : beforeNul s = s.toList := by
  refine List.takeWhile_eq_self_iff.2 fun c hc => ?_
  rw [bne_iff_ne]
  rintro rfl
  exact h hc

theorem accepts_iff {part : String} (literal : IsLiteral part) (test : TextTest) (text : String) :
    test.accepts part text ↔ test.Means part.toList (beforeNul text) := by
  have plain : ∀ c ∈ part.toList, Database.isWildcard c = false := fun c hc => (literal c hc).1
  have whole : '\x00' ∉ part.toList := fun h => (literal _ h).2 rfl
  have noNul : '\x00' ∉ (test.pattern part).toList := by
    cases test <;> simpa [pattern] using whole
  rw [accepts, beforeNul_eq noNul]
  cases test with
  | starts =>
    rw [pattern, String.toList_append]
    exact Database.matchesPattern_start plain
  | ends =>
    rw [pattern, String.toList_append]
    exact Database.matchesPattern_end plain
  | contains =>
    rw [pattern, String.toList_append, String.toList_append]
    exact Database.matchesPattern_part plain

theorem Means.within {test : TextTest} {part text : List Char} (h : test.Means part text) :
    part.map Text.foldChar <:+: text.map Text.foldChar := by
  cases test with
  | starts => exact List.IsPrefix.isInfix h
  | ends => exact List.IsSuffix.isInfix h
  | contains => exact h

theorem beforeNul_percent (part : String) : ∃ rest, beforeNul (part ++ "%") =
    beforeNul part ++ rest ∧ matchesPattern rest [] := by
  simp only [beforeNul, String.toList_append]
  rw [List.takeWhile_append]
  split
  · next whole =>
    rw [(List.takeWhile_prefix _).eq_of_length whole]
    exact ⟨['%'], rfl, rfl⟩
  · exact ⟨[], (List.append_nil _).symm, rfl⟩

theorem nul_not_mem_unwild (part : String) :
    '\x00' ∉ (beforeNul part).map Database.unwild := by
  intro h
  obtain ⟨c, hc, nul⟩ := List.mem_map.1 h
  have present : c ≠ '\x00' := by simpa using List.mem_takeWhile_imp hc
  unfold Database.unwild at nul
  split at nul
  · cases nul
  · exact present nul

theorem accepts_unwild (test : TextTest) (part : String) :
    test.accepts part (String.ofList ((beforeNul part).map Database.unwild)) := by
  have whole : beforeNul (String.ofList ((beforeNul part).map Database.unwild)) =
      (beforeNul part).map Database.unwild := by
    rw [beforeNul_eq (by simpa using nul_not_mem_unwild part), String.toList_ofList]
  have spelled {rest : List Char} (h : matchesPattern rest []) :
      matchesPattern (beforeNul part ++ rest) ((beforeNul part).map Database.unwild) := by
    simpa using Database.matchesPattern_unwild (p := beforeNul part) h
  have percent (p t : List Char) (h : matchesPattern p t) : matchesPattern ('%' :: p) t :=
    Database.matchesPattern_percent.2 ⟨t, List.suffix_refl t, h⟩
  obtain ⟨rest, pattern_eq, matched⟩ := beforeNul_percent part
  rw [accepts, whole]
  cases test with
  | starts =>
    rw [pattern, pattern_eq]
    exact spelled matched
  | ends =>
    have pattern_eq : beforeNul ("%" ++ part) = '%' :: beforeNul part := by
      simp [beforeNul]
    rw [pattern, pattern_eq]
    exact percent _ _ (by simpa using @spelled [] rfl)
  | contains =>
    have front : beforeNul ("%" ++ part ++ "%") = '%' :: beforeNul (part ++ "%") := by
      simp [beforeNul]
    rw [pattern, front, pattern_eq]
    exact percent _ _ (spelled matched)

theorem accepts_iff_means (test : TextTest) (part : String) :
    (∀ text : String, '\x00' ∉ text.toList →
      (test.accepts part text ↔ test.Means part.toList text.toList)) ↔ IsLiteral part := by
  constructor
  · intro h
    have noNul := nul_not_mem_unwild part
    have within := ((h (String.ofList ((beforeNul part).map Database.unwild))
      (by rwa [String.toList_ofList])).1 (accepts_unwild test part)).within
    rw [String.toList_ofList] at within
    -- The text is as long as the part up to its end, so the whole part is read.
    have whole : beforeNul part = part.toList := (List.takeWhile_prefix _).eq_of_length
      ((List.takeWhile_prefix _).length_le.antisymm (by simpa [beforeNul] using within.length_le))
    rw [whole] at within
    intro c hc
    refine ⟨Database.not_isWildcard_of_infix within c hc, ?_⟩
    have kept := List.takeWhile_eq_self_iff.1 whole c hc
    exact bne_iff_ne.1 kept
  · intro literal text noNul
    rw [accepts_iff literal, beforeNul_eq noNul]

def term (test : TextTest) (column : String) : Term :=
  .brackets [.binary .like (.name column) (.brackets [test.patternTerm])]

theorem height_term (test : TextTest) (column : String) :
    (test.term column).height ≤ Database.greatestHeight := by
  have low : (test.term column).height ≤ 4 := by
    unfold term
    cases test <;> simp only [patternTerm, Term.height, Term.heightAll] <;> decide
  exact low.trans (by decide)

theorem pruned_term (test : TextTest) (column : String) :
    (test.term column).pruned = .binary .like (.name column) test.patternTerm := by
  unfold term
  cases test <;> simp [patternTerm, Term.pruned, Term.joined]

theorem follows_tail (test : TextTest) : Follows test.tail test.term := by
  cases test <;> exact ⟨⟨_, rfl, by decide, fun _ => rfl⟩, by decide, by decide⟩

def truth (test : TextTest) (part column : String) (t : Table) (r : Row) : Option Bool :=
  (t.valueOf column r).text?.map (test.accepts part)

theorem eval_pattern (test : TextTest) {s : Database.Scope} {part : String}
    (hf : s.fixed = []) (ha : s.args = [.text part]) (r : Row) :
    s.eval r test.patternTerm = .ok (.text (test.pattern part)) := by
  have place : s.eval r (.placeholder 0) = .ok (.text part) := by
    simp [Database.Scope.eval, ha, argument]
  have literal : s.eval r (.literal "%") = .ok (.text "%") := by
    rw [Database.Scope.eval]
  have joined {l m : Term} {a b : String} (single : ∀ x y xs, l ≠ .brackets (x :: y :: xs))
      (hl : s.eval r l = .ok (.text a)) (hm : s.eval r m = .ok (.text b)) :
      s.eval r (.binary .concat l m) = .ok (.text (a ++ b)) :=
    s.eval_binary hf (by decide) single hl hm
  cases test with
  | starts => exact joined (by simp) place literal
  | ends => exact joined (by simp) literal place
  | contains => exact joined (by simp) (joined (by simp) literal place) literal

theorem tests_term (test : TextTest) {part : String}
    (fits : (test.pattern part).utf8ByteSize ≤ greatestPattern) (column : String) :
    Database.Tests (.binary .like (.name column) test.patternTerm) [.text part]
      (test.truth part column) where
  eval := by
    intro s r hf ha
    have small : ¬ greatestPattern < Database.byteCount (.text (test.pattern part)) :=
      Nat.not_lt.2 fits
    rw [s.eval_binary hf (by decide) (by simp) (s.eval_name hf column r)
      (test.eval_pattern hf ha r)]
    simp only [Database.Scope.operate, Database.likeData, if_neg small, truth]
    cases (s.table.valueOf column r).text? <;> rfl
  alone := rfl
  checked db := by cases test <;> rfl

end TextTest

namespace TableMapping

variable {t : TableMapping} {property : String} {c : Column}

theorem fragment_ofText (t : TableMapping) (captured : Option String) (part : String) :
    t.fragment (.ofText captured part) =
      .ok { sql := "?", args := [.text part], value := some (.text part), textual := true } := by
  cases captured <;> rfl

theorem fragment_ask (hc : t.columnOf property = .ok c) (text : c.kind.isTextual)
    (test : TextTest) (captured : Option String) (part : String) :
    ∃ f, t.fragment (test.ask property captured part) = .ok f ∧ f.args = [.text part] ∧
      f.sql = "(" ++ c.quotedName ++ test.tail := by
  rw [TextTest.ask, fragment, fragment_field hc, fragments, fragment_ofText]
  refine ⟨_, rfl, ?_⟩
  cases test with
  | starts =>
    refine ⟨rfl, ?_⟩
    show "(" ++ c.quotedName ++ " like (" ++ "?" ++ " || '%'))" = _
    simp only [String.append_assoc, String.reduceAppend, TextTest.tail]
  | ends =>
    refine ⟨rfl, ?_⟩
    show "(" ++ c.quotedName ++ " like ('%' || " ++ "?" ++ "))" = _
    simp only [String.append_assoc, String.reduceAppend, TextTest.tail]
  | contains =>
    simp only [TextTest.method, Fragment.invoke, text, if_true]
    refine ⟨rfl, ?_⟩
    simp only [Fragment.containsText, String.append_assoc, String.reduceAppend, TextTest.tail]

end TableMapping

namespace Session

variable {s : Session} {t : TableMapping} {property : String} {c : Column}

theorem selects_ask (hc : t.columnOf property = .ok c) (text : c.kind.isTextual) (test : TextTest)
    (captured : Option String) {part : String}
    (fits : (test.pattern part).utf8ByteSize ≤ greatestPattern) :
    s.Selects t c (test.ask property captured part) fun table r =>
      (table.valueOf c.name r).text?.any (test.accepts part) := by
  obtain ⟨f, hf, ha, hs⟩ := TableMapping.fragment_ask hc text test captured part
  have tests := test.tests_term fits c.name
  have selected := selects_test (s := s) hf hs test.follows_tail (test.pruned_term c.name)
    (test.height_term c.name) (by simp [ha, Database.greatestArguments]) (ha ▸ tests)
  refine selected.congr fun table r => ?_
  rw [TextTest.truth]
  cases (table.valueOf c.name r).text? with
  | none => rfl
  | some x => simp

end Session

open Session (toList)

theorem text_tests (s : Session) (t : TableMapping) {property : String} {c : Column}
    (hc : t.columnOf property = .ok c) (text : c.kind.isTextual) (test : TextTest)
    (captured : Option String) (part : String)
    (fits : (test.pattern part).utf8ByteSize ≤ greatestPattern) :
    (s.Selects t c (test.ask property captured part) fun table r =>
      (table.valueOf c.name r).text?.any (test.accepts part)) ∧
    ((∀ x : String, '\x00' ∉ x.toList →
      (test.accepts part x ↔ test.Means part.toList x.toList)) ↔ TextTest.IsLiteral part) ∧
    (TextTest.IsLiteral part → s.Selects t c (test.ask property captured part) fun table r =>
      (table.valueOf c.name r).text?.any fun x => test.Means part.toList (beforeNul x)) := by
  have accepted := Session.selects_ask (s := s) hc text test captured fits
  refine ⟨accepted, test.accepts_iff_means part, fun literal => accepted.congr fun table r => ?_⟩
  refine congrArg (fun f => Option.any f (table.valueOf c.name r).text?) (funext fun x => ?_)
  rw [Bool.eq_iff_iff, decide_eq_true_iff]
  exact TextTest.accepts_iff literal test x

theorem wildcard_finds_others :
    (¬ ∀ (s : Session) (t : TableMapping) (property : String) (c : Column) (test : TextTest)
      (part : String), t.columnOf property = .ok c → c.kind.isTextual →
        s.Selects t c (test.ask property none part) fun table r =>
          (table.valueOf c.name r).text?.any fun x => test.Means part.toList x.toList) ∧
    (toList (meeting .notes (TextTest.starts.ask "Title" none "a%"))).run notebook =
      (.ok [noteRow 1 (.text "a")], notebook) := by
  have hc : TableMapping.notes.columnOf "Title" = .ok TableMapping.notes.columns[1] := rfl
  have reach : notebook.reach "notes" "title" = .ok notebook.database.tables[0] := by rfl
  have fits : (TextTest.starts.pattern "a%").utf8ByteSize ≤ greatestPattern := by decide
  have accepted := Session.selects_ask (s := notebook) hc rfl .starts none fits
  have found := accepted.toList_eq reach (some ⟨1, _⟩) (by rfl) (by rfl)
  refine ⟨fun meant => ?_, found⟩
  have missed := (meant notebook .notes "Title" _ .starts "a%" hc rfl).toList_eq reach none
    (by rfl) (by rfl)
  cases missed.symm.trans found

theorem text_tests_notebook :
    TableMapping.notes.columnOf "Title" = .ok TableMapping.notes.columns[1] ∧
    (TextTest.starts.pattern "A").utf8ByteSize ≤ greatestPattern ∧
    (toList (meeting .notes (TextTest.starts.ask "Title" (some "part") "A"))).run notebook =
      (.ok [noteRow 1 (.text "a")], notebook) := by
  have hc : TableMapping.notes.columnOf "Title" = .ok TableMapping.notes.columns[1] := rfl
  have fits : (TextTest.starts.pattern "A").utf8ByteSize ≤ greatestPattern := by decide
  have reach : notebook.reach "notes" "title" = .ok notebook.database.tables[0] := by rfl
  have literal : TextTest.IsLiteral "A" := by decide
  have meant := (text_tests notebook .notes hc rfl .starts (some "part") "A" fits).2.2 literal
  exact ⟨hc, fits, meant.toList_eq reach (some ⟨1, _⟩) (by rfl) (by rfl)⟩

end Tabular
