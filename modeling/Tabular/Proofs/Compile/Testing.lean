import Tabular.Proofs.Compile.CallNegation
import Tabular.Proofs.Database.Negation

namespace Tabular

open Fragment (IsForeign negations)
open Marked (ofString)
open Sql (Operator Term Token holdsOperator)
open Sql.Lexer (Completes endsToken read?)
open Text (Ends occurs)

/-- A text that has no operator of calls, and gives none to the texts beside it. -/
structure Fragment.IsSealed (s : List Char) : Prop where
  begins : ∃ c ∈ s.head?, IsForeign c
  ends : Ends IsForeign s
  free : ∀ n ∈ negations, occurs n.1.toList s = false

namespace Fragment

variable {s u sep : List Char} {n : String × String}

theorem IsSealed.occurs_join (hs : IsSealed s) (hu : IsSealed u) (hn : n ∈ negations)
    (sep : List Char) : occurs n.1.toList (s ++ (sep ++ u)) = occurs n.1.toList sep := by
  have hne := (length_of_mem_negations n hn).1
  obtain ⟨z, hz, last⟩ := hs.ends
  obtain ⟨c, hc, first⟩ := hu.begins
  obtain ⟨front, rfl⟩ := List.getLast?_eq_some_iff.1 hz
  obtain ⟨back, rfl⟩ := List.head?_eq_some_iff.1 hc
  have cut_last (xs : List Char) := Text.occurs_append_cons hne (last n hn) front xs
  have cut_first (xs : List Char) := Text.occurs_append_cons hne (first n hn) xs back
  have left := hs.free n hn
  have right := hu.free n hn
  rw [cut_last [], Bool.or_eq_false_iff] at left
  rw [← List.nil_append (c :: back), cut_first [], Bool.or_eq_false_iff] at right
  rw [List.append_assoc, List.singleton_append, cut_last, cut_first, left.1, right.2,
    Bool.false_or, Bool.or_false]

theorem IsSealed.join (hs : IsSealed s) (hu : IsSealed u)
    (hsep : ∀ n ∈ negations, occurs n.1.toList sep = false) : IsSealed (s ++ (sep ++ u)) where
  begins := by
    obtain ⟨c, hc, first⟩ := hs.begins
    exact ⟨c, by rw [List.head?_append, Option.mem_def.1 hc]; rfl, first⟩
  ends := (hu.ends.append sep).append s
  free n hn := by rw [hs.occurs_join hu hn, hsep n hn]

theorem IsSealed.append (hs : IsSealed s) (hu : IsSealed u) : IsSealed (s ++ u) := by
  have nothing : ∀ n ∈ negations, occurs n.1.toList [] = false := by decide
  exact hs.join hu nothing

theorem occurs_of_no_blank (h : ' ' ∉ s) (hn : n ∈ negations) : occurs n.1.toList s = false := by
  refine Bool.eq_false_iff.2 fun ho => h ?_
  obtain ⟨x, y, op, new, hop, _⟩ := differ_of_mem_negations hn
  have hne := (length_of_mem_negations n hn).1
  obtain ⟨front, back, rfl, _⟩ := Text.exists_of_occurs hne ho []
  simp [hop]

theorem IsForeign.isSealed {c : Char} (h : IsForeign c) : IsSealed [c] where
  begins := ⟨c, rfl, h⟩
  ends := ⟨c, rfl, h⟩
  free n hn := by
    have blank : ¬ IsForeign ' ' := by decide
    refine occurs_of_no_blank (fun hc => blank ?_) hn
    rwa [List.mem_singleton.1 hc]

theorem IsSealed.enclosed (h : IsSealed s) : IsSealed ('(' :: (s ++ [')'])) :=
  (IsForeign.isSealed (by decide)).append (h.append (IsForeign.isSealed (by decide)))

theorem isSealed_quoteIdentifier {name : String} (h : holdsOperator name = false) :
    IsSealed (quoteIdentifier name).toList := by
  have text : (quoteIdentifier name).toList =
      [] ++ '"' :: (Text.Delimited.double '"' name.toList ++ '"' :: []) := by
    simp [quoteIdentifier, Text.Delimited.encode]
  have quote : IsForeign '"' := by decide
  refine ⟨⟨'"', by rw [text]; rfl, quote⟩, ?_, fun n hn => ?_⟩
  · rw [text]
    exact Text.ends_append_singleton ('"' :: Text.Delimited.double '"' name.toList) quote
  · have hne := (length_of_mem_negations n hn).1
    have nothing : occurs n.1.toList [] = false := by simpa [occurs] using hne
    have named : occurs n.1.toList name.toList = false := by
      simpa using List.any_eq_false.1 h n hn
    rw [text, Text.occurs_append_cons hne (quote n hn), Text.occurs_append_cons hne (quote n hn),
      Text.occurs_double hne (quote n hn), nothing, named]
    rfl

end Fragment

open Fragment (IsSealed)

namespace Clause

structure IsPlain (c : Clause) : Prop where
  tight : c.Tight
  calls {p : String → Prop} : p "lower" → c.CallsOnly p
  sealed : IsSealed c.write.text

variable {a b : Clause}

theorem isPlain_datum (d : Datum) : (Clause.datum d).IsPlain where
  tight := ⟨trivial, rfl⟩
  calls _ := trivial
  sealed := Fragment.IsForeign.isSealed (c := '?') (by decide)

theorem isPlain_list (ds : List Datum) : (Clause.list ds).IsPlain where
  tight := ⟨trivial, rfl⟩
  calls _ := trivial
  sealed := by
    have items : ' ' ∉ (separated (ds.map fun d => [.datum d])).text := by
      rw [text_separated]
      induction ds with
      | nil => simp
      | cons d ds ih => cases ds <;> simp_all [List.intercalate_cons_cons]
    refine ⟨⟨'(', rfl, by decide⟩, ?_, fun n hn => Fragment.occurs_of_no_blank ?_ hn⟩
    · rw [write, Marked.text_append]
      exact Text.ends_append_singleton _ (by decide)
    · simpa using items

theorem isPlain_column {name : String} (h : holdsOperator name = false) :
    (Clause.column name).IsPlain where
  tight := ⟨trivial, rfl⟩
  calls _ := trivial
  sealed := by simpa using Fragment.isSealed_quoteIdentifier h

theorem isPlain_percent : (Clause.literal "%").IsPlain where
  tight := ⟨trivial, rfl⟩
  calls _ := trivial
  sealed := ⟨⟨'\x27', rfl, by decide⟩, ⟨'\x27', rfl, by decide⟩, by decide⟩

theorem IsPlain.brackets (h : a.IsPlain) : (Clause.brackets a).IsPlain where
  tight := h.tight.brackets
  calls := h.calls
  sealed := by simpa using h.sealed.enclosed

theorem IsPlain.concat (ha : a.IsPlain) (hb : b.IsPlain) :
    (Clause.infixed .concat a b).IsPlain where
  tight := ha.tight.infixed hb.tight _
  calls hp := ⟨ha.calls hp, hb.calls hp⟩
  sealed := by
    have joined : IsSealed (a.write.text ++ (" || ".toList ++ b.write.text)) :=
      ha.sealed.join hb.sealed (by decide)
    simpa [Operator.text] using joined.enclosed

theorem IsPlain.anywhere (h : a.IsPlain) : (Clause.anywhere a).IsPlain where
  tight := h.tight.anywhere
  calls := h.calls
  sealed := by
    have percent : IsSealed "'%'".toList := isPlain_percent.sealed
    have tail : IsSealed (a.write.text ++ (" || ".toList ++ "'%'".toList)) :=
      h.sealed.join percent (by decide)
    have whole : IsSealed ("'%'".toList ++ (" || ".toList ++ _)) := percent.join tail (by decide)
    simpa using whole.enclosed

theorem IsPlain.lowerCase (h : a.IsPlain) : (Clause.lowerCase a).IsPlain where
  tight := (Tight.apply (by simpa using h.tight) "lower").brackets
  calls hp := ⟨hp, h.calls hp, trivial⟩
  sealed := by
    have front : IsSealed "(lower(".toList :=
      ⟨⟨'(', rfl, by decide⟩, ⟨'(', rfl, by decide⟩, by decide⟩
    have back : IsSealed "))".toList := ⟨⟨')', rfl, by decide⟩, ⟨')', rfl, by decide⟩, by decide⟩
    simpa [Clause.lowerCase, separated] using front.append (h.sealed.append back)

end Clause

namespace Expr

def isSimple : Expr → Bool
  | .constant _ | .captured .. | .member .. => true
  | .convert operand _ => operand.isSimple
  | .invoke receiver method [] => method == "to_lower" && receiver.isSimple
  | _ => false

end Expr

namespace TableMapping

variable {t : TableMapping} {e : Expr} {c : Clause}

theorem listed_isPlain {v : Value} (h : t.listed v = some c) : c.IsPlain := by
  cases v <;> simp only [listed, Option.map_eq_some_iff] at h <;> obtain ⟨_, _, rfl⟩ := h <;>
    first | exact Clause.isPlain_datum _ | exact Clause.isPlain_list _

theorem clause_isPlain (hn : ∀ c ∈ t.columns, holdsOperator c.name = false) (he : e.isSimple)
    (hc : t.clause e = some c) : c.IsPlain := by
  induction e using Expr.induction generalizing c with
  | constant v =>
    obtain ⟨d, _, rfl⟩ := clause_constant_eq_some.1 hc
    exact Clause.isPlain_datum d
  | captured name v => exact listed_isPlain (by simpa [clause] using hc)
  | column name =>
    obtain ⟨column, hcolumn, rfl⟩ := clause_column_eq_some.1 hc
    exact Clause.isPlain_column (hn column (columnOf_eq_ok hcolumn).1)
  | member target name hparameter =>
    rw [clause_member hparameter, Option.bind_eq_some_iff] at hc
    obtain ⟨v, _, hv⟩ := hc
    exact listed_isPlain hv
  | convert operand kind ih => exact ih he (by simpa [clause] using hc)
  | invoke receiver method args ih =>
    cases args with
    | cons => cases he
    | nil =>
      rw [Expr.isSimple, Bool.and_eq_true, beq_iff_eq] at he
      obtain ⟨rfl, he⟩ := he
      obtain ⟨r, _, hr, ⟨⟩, rfl⟩ := clause_invoke_eq_some.1 hc
      exact (ih he hr).lowerCase
  | _ => cases he

end TableMapping

/-- The text is read as the operator, beside whatever stands before and after it. -/
def Sql.Lexer.Spells (s : String) (op : Operator) : Prop :=
  Completes s.toList op.tokens ∧ s.toList.head?.any endsToken

instance (s : String) (op : Operator) : Decidable (Sql.Lexer.Spells s op) :=
  inferInstanceAs (Decidable (_ ∧ _))

open Sql.Lexer (Spells)

structure Parted.Writes (p : Parted) (op neg : Operator) (a b : Clause) : Prop where
  negation : op.negation? = some neg
  spells : Spells p.operator.1 op
  negated : Spells p.operator.2 neg
  before : p.before.toList = '(' :: a.write.text
  after : p.after.toList = b.write.text ++ [')']
  left : a.IsPlain
  right : b.IsPlain

variable {p : Parted} {op neg : Operator} {a b : Clause}

theorem Setting.parted?_writes {s : Setting} {l r : Fragment} (ha : a.Prints l) (hb : b.Prints r)
    (pa : a.IsPlain) (pb : b.IsPlain) (h : s.parted? l.sql r.sql = some p) :
    ∃ op neg a' b', p.Writes op neg a' b' := by
  have percent : (quoteLiteral "%").toList = "'%'".toList := by decide
  have like : Spells " like " .like ∧ Spells " not like " .notLike := by decide
  have isIn : Spells " in " .isIn ∧ Spells " not in " .notIn := by decide
  have eq : Spells " = " .eq ∧ Spells " <> " .ne := by decide
  induction s generalizing a b l r with
  | swapped s ih => exact ih hb ha pb pa h
  | infixed op =>
    cases op <;> cases h
    · exact ⟨.isIn, _, a, b, rfl, isIn.1, isIn.2, by simp [ha.text], by simp [hb.text], pa, pb⟩
    · exact ⟨.like, _, a, b, rfl, like.1, like.2, by simp [ha.text], by simp [hb.text], pa, pb⟩
  | equals =>
    cases h
    exact ⟨.eq, _, a, .brackets b, rfl, eq.1, eq.2, by simp [ha.text], by simp [hb.text], pa,
      pb.brackets⟩
  | startsWith =>
    cases h
    exact ⟨.like, _, a, .infixed .concat b (.literal "%"), rfl, like.1, like.2, by simp [ha.text],
      by simp [hb.text, Operator.text, percent], pa, pb.concat Clause.isPlain_percent⟩
  | endsWith =>
    cases h
    exact ⟨.like, _, a, .infixed .concat (.literal "%") b, rfl, like.1, like.2, by simp [ha.text],
      by simp [hb.text, Operator.text, percent], pa, Clause.isPlain_percent.concat pb⟩
  | containsText =>
    cases h
    exact ⟨.like, _, a, .anywhere b, rfl, like.1, like.2, by simp [ha.text], by simp [hb.text], pa,
      pb.anywhere⟩
  | apply => cases h

namespace Parted.Writes

theorem alone (h : p.Writes op neg a b) (hp : p.operator ∈ negations) : p.Alone := by
  have opening : IsSealed ['('] := IsForeign.isSealed (by decide)
  have closing : IsSealed [')'] := IsForeign.isSealed (by decide)
  have before : IsSealed p.before.toList := h.before ▸ opening.append h.left.sealed
  have after : IsSealed p.after.toList := h.after ▸ h.right.sealed.append closing
  have apart : ∀ m ∈ negations, ∀ n ∈ negations.takeWhile (· != m),
      n ∈ negations ∧ occurs n.1.toList m.1.toList = false := by decide
  refine ⟨fun n hn => ?_, before.free _ hp, after.free _ hp⟩
  obtain ⟨hn, free⟩ := apart _ hp n hn
  rw [toList_text, before.occurs_join after hn, free]

theorem read?_side (h : p.Writes op neg a b) {s : String} {o : Operator} (hs : Spells s o) :
    read? (p.before.toList ++ (s.toList ++ p.after.toList)) =
      some (Clause.infixed o a b).tokens := by
  have plain {c : Clause} (hc : c.IsPlain) : read? c.write.text = some c.tokens :=
    Clause.read?_write (hc.calls (by decide)) hc.tight.1
  have inner := Sql.Lexer.read?_join hs.1 hs.2 (plain h.left) (plain h.right)
  simpa [h.before, h.after, Clause.tokens] using Sql.Lexer.read?_brackets inner

theorem parse_side (h : p.Writes op neg a b) (o : Operator) :
    Sql.Parser.read? (Clause.infixed o a b).tokens =
      some (.brackets [.binary o (a.term 0) (b.term (0 + a.places))]) := by
  have whole := h.left.tight.infixed h.right.tight o
  exact Clause.parse_tokens ⟨h.left.calls (by decide), h.right.calls (by decide)⟩ whole.1

end Parted.Writes

namespace Database

def condition? (db : Database) (table text : String) (args : List Datum) :
    Option (Scope × Term) := do
  let ks ← Sql.tokens? text
  let t ← Term.ofTokens? ks
  let (s, c) ← (db.prepare table (some t) args).toOption
  return (s, ← c)

variable {db : Database} {table text : String} {args : List Datum} {s : Scope} {w : Term}

theorem condition?_eq_some : db.condition? table text args = some (s, w) ↔
    ∃ ks t, Sql.tokens? text = some ks ∧ Term.ofTokens? ks = some t ∧
      db.prepare table (some t) args = .ok (s, some w) := by
  simp only [condition?, Option.bind_eq_bind, Option.bind_eq_some_iff, toOption_eq_some]
  constructor
  · rintro ⟨ks, hks, t, ht, ⟨s, c⟩, hp, w, rfl, h⟩
    cases h
    exact ⟨ks, t, hks, ht, hp⟩
  · rintro ⟨ks, t, hks, ht, hp⟩
    exact ⟨ks, hks, t, ht, _, hp, w, rfl, rfl⟩

theorem tokens?_eq_some {ks : List Token} : Sql.tokens? text = some ks ↔
    '\x00' ∉ text.toList ∧ read? text.toList = some ks := by
  unfold Sql.tokens?
  split <;> simp_all

theorem ofTokens?_eq_some {ks : List Token} {t : Term} : Term.ofTokens? ks = some t ↔
    Sql.Parser.read? ks = some t ∧ t.wellFormed := by
  simp only [Term.ofTokens?, Option.bind_eq_bind, Option.bind_eq_some_iff]
  constructor
  · rintro ⟨t', ht, h⟩
    split at h <;> cases h
    exact ⟨ht, by assumption⟩
  · rintro ⟨ht, hw⟩
    exact ⟨t, ht, if_pos hw⟩

theorem wellFormed_negation (h : op.negation? = some neg) (left right : Term) :
    (Term.brackets [.binary neg left right]).wellFormed =
      (Term.brackets [.binary op left right]).wellFormed := by
  cases op <;> cases h <;> simp [Term.wellFormed, Term.allWellFormed]

theorem condition?_opposite (h : p.Writes op neg a b) (hp : p.operator ∈ negations)
    (hw : db.condition? table p.negated args = some (s, w)) :
    ∃ u, db.condition? table p.text args = some (s, u) ∧
      ∀ r, Opposite (s.eval r w) (s.eval r u) := by
  obtain ⟨ks, t, hks, ht, prepared⟩ := condition?_eq_some.1 hw
  obtain ⟨whole, hks⟩ := tokens?_eq_some.1 hks
  obtain ⟨ht, formed⟩ := ofTokens?_eq_some.1 ht
  rw [Parted.toList_negated] at whole hks
  cases hks.symm.trans (h.read?_side h.negated)
  cases ht.symm.trans (h.parse_side neg)
  obtain ⟨u, hu, opposite⟩ := prepare_opposite h.negation prepared
  refine ⟨u, condition?_eq_some.2 ⟨_, _, tokens?_eq_some.2 ⟨?_, ?_⟩,
    ofTokens?_eq_some.2 ⟨h.parse_side op, ?_⟩, hu⟩, opposite⟩
  · have free : ∀ n ∈ negations, '\x00' ∉ n.1.toList := by decide
    simp only [Parted.toList_text, List.mem_append, not_or] at whole ⊢
    exact ⟨whole.1, free _ hp, whole.2.2⟩
  · rw [Parted.toList_text]
    exact h.read?_side h.spells
  · exact wellFormed_negation h.negation _ _ ▸ formed

end Database

namespace Dyad

def tests : List Dyad :=
  [.call "like", .call "contains", .invoke "contains", .invoke "starts_with", .invoke "ends_with",
    .invoke "equals"]

variable {t : TableMapping} {o : Dyad} {x y : Expr} {l r : Fragment}

theorem isCall_of_mem_tests (ho : o ∈ tests) : (o.expr x y).isCall := by
  simp only [tests, List.mem_cons, List.not_mem_nil, or_false] at ho
  rcases ho with rfl | rfl | rfl | rfl | rfl | rfl <;> rfl

theorem exists_parted?_of_mem_tests (ho : o ∈ tests) (hx : t.fragment x = .ok l)
    (hy : t.fragment y = .ok r) : ∃ s p, o.setting? t x y = some s ∧
      s.parted? l.sql r.sql = some p ∧ t.parted? (o.expr x y) = some p := by
  have parted {s : Setting} (h : o.setting? t x y = some s) :
      o.parted? t x y = s.parted? l.sql r.sql := by
    simp [Dyad.parted?, h, hx, hy]
  simp only [tests, List.mem_cons, List.not_mem_nil, or_false] at ho
  rcases ho with rfl | rfl | rfl | rfl | rfl | rfl
  · exact ⟨_, _, rfl, rfl, parted rfl⟩
  · exact ⟨_, _, rfl, rfl, parted rfl⟩
  · cases ht : t.isTextual x with
    | false =>
      have setting : setting? t (.invoke "contains") x y = some (.swapped (.infixed .isIn)) := by
        simp [setting?, ht]
      exact ⟨_, _, setting, rfl, parted setting⟩
    | true =>
      have setting : setting? t (.invoke "contains") x y = some .containsText := by
        simp [setting?, ht]
      exact ⟨_, _, setting, rfl, parted setting⟩
  · exact ⟨_, _, rfl, rfl, parted rfl⟩
  · exact ⟨_, _, rfl, rfl, parted rfl⟩
  · exact ⟨_, _, rfl, rfl, parted rfl⟩

end Dyad

namespace TableMapping

open Database (Opposite)

theorem compile_not_test (t : TableMapping) (o : Dyad) (x y : Expr) (params params' : List Datum)
    (f : Fragment) (hn : ∀ c ∈ t.columns, holdsOperator c.name = false) (ho : o ∈ Dyad.tests)
    (hx : x.isSimple) (hy : y.isSimple)
    (h : t.compile (o.expr x y) params = (.ok f, params')) :
    ∃ p g, t.parted? (o.expr x y) = some p ∧ p.operator ∈ negations ∧ p.Alone ∧
      f.sql = p.text ∧ t.compile (.not (o.expr x y)) params = (.ok g, params') ∧
      g.sql = p.negated ∧ g.args = f.args ∧
      ∀ db table args s w, Database.condition? db table g.sql args = some (s, w) →
        ∃ u, db.condition? table f.sql args = some (s, u) ∧
          ∀ r, Opposite (s.eval r w) (s.eval r u) := by
  obtain ⟨hf, rfl⟩ := compile_eq_ok.1 h
  obtain ⟨l, r, hl, hr⟩ := Dyad.operands_of_fragment hf
  obtain ⟨a, ha, pa⟩ := fragment_prints hl
  obtain ⟨b, hb, pb⟩ := fragment_prints hr
  obtain ⟨s, p, hs, hp, parted⟩ := Dyad.exists_parted?_of_mem_tests ho hl hr
  obtain ⟨text, operator, cut⟩ := fragment_parted hf parted
  obtain ⟨op, neg, a', b', writes⟩ := Setting.parted?_writes pa pb (clause_isPlain hn hx ha)
    (clause_isPlain hn hy hb) hp
  have alone : p.Alone := writes.alone operator
  have negated : f.negatedCall.sql = p.negated := by
    rw [← (Parted.negatedText_eq_iff operator cut).2 alone, ← text]
    rfl
  have compiled := fragment_not (Dyad.isCall_of_mem_tests ho) hf
  refine ⟨p, f.negatedCall, parted, operator, alone, text, compile_eq_ok.2 ⟨compiled, rfl⟩,
    negated, rfl, ?_⟩
  · intro db table args s w hw
    rw [negated] at hw
    rw [text]
    exact Database.condition?_opposite writes operator hw

def notesTable : Database.Table where
  name := "notes"
  columns := [
    { name := "id", affinity := .integer, collation := .binary, notNull := true, default := .null
      width := 1 },
    { name := "title", affinity := .text, collation := .binary, notNull := false, default := .null
      width := 5 }]
  rowId := some 0
  key := []
  numbered := false

theorem compile_not_test_notes :
    let o : Dyad := .invoke "starts_with"
    let x : Expr := .invoke (.field "Title") "to_lower" []
    let y : Expr := .captured "s" (.text "a")
    let db : Database := { tables := [notesTable] }
    (∀ c ∈ notes.columns, holdsOperator c.name = false) ∧ o ∈ Dyad.tests ∧ x.isSimple ∧
      y.isSimple ∧ ∃ f, notes.compile (o.expr x y) [] = (.ok f, [.text "a"]) ∧
      ∃ g, notes.compile (.not (o.expr x y)) [] = (.ok g, [.text "a"]) ∧
        g.sql = "((lower(\"title\")) not like (? || '%'))" ∧
        ∃ s w u, db.condition? "notes" g.sql [.text "a"] = some (s, w) ∧
          db.condition? "notes" f.sql [.text "a"] = some (s, u) ∧
            ∀ r, Opposite (s.eval r w) (s.eval r u) := by
  intro o x y db
  have hn : ∀ c ∈ notes.columns, holdsOperator c.name = false := by decide
  have ho : o ∈ Dyad.tests := by simp [Dyad.tests, o]
  obtain ⟨p, g, hp, _, _, _, hg, negated, _, opposite⟩ :=
    compile_not_test notes o x y [] [.text "a"] _ hn ho rfl rfl rfl
  cases hp
  have text : g.sql = "((lower(\"title\")) not like (? || '%'))" := by
    rw [negated]
    decide
  let left : Term := .apply "lower" [.name "title"]
  let right : Term := .binary .concat (.placeholder 0) (.literal "%")
  let w : Term := .binary .notLike left right
  let written : Term := .brackets [.binary .notLike (.brackets [left]) (.brackets [right])]
  have pruned : written.pruned = w := by
    simp [written, w, left, right, Term.pruned, Term.prunedAll, Term.joined]
  have prepared : db.prepare "notes" (some written) [.text "a"] =
      .ok ({ database := db, table := notesTable, args := [.text "a"] }, some w) := by
    simp only [Database.prepare, Option.map_some, pruned]
    rfl
  have hw : db.condition? "notes" g.sql [.text "a"] =
      some ({ database := db, table := notesTable, args := [.text "a"] }, w) := by
    rw [text]
    exact Database.condition?_eq_some.2 ⟨_, written, rfl, rfl, prepared⟩
  obtain ⟨u, hu, both⟩ := opposite db "notes" [.text "a"] _ w hw
  exact ⟨hn, ho, rfl, rfl, _, rfl, g, hg, text, _, w, u, hw, hu, both⟩

end TableMapping

end Tabular
