import Tabular.Proofs.Compile.Carried
import Tabular.Proofs.Sql.Marked
import Tabular.Sql.Term

/-! The SQL of an expression as a tree: which operator stands for which node, and in which order
the operands come. Every argument is in the place where it is used. Writing the tree down gives the
text of the compiled fragment. -/

namespace Tabular

open Sql (Operator)

inductive Clause
  | datum (d : Datum)
  | list (ds : List Datum)
  | column (name : String)
  | literal (s : String)
  | brackets (c : Clause)
  | infixed (op : Operator) (left right : Clause)
  | anywhere (part : Clause)
  | apply (function : String) (args : List Clause)
  | isFalse (c : Clause)
  | negated (c : Clause)

@[elab_as_elim]
theorem Clause.induction {motive : Clause → Prop}
    (datum : ∀ d, motive (.datum d))
    (list : ∀ ds, motive (.list ds))
    (column : ∀ name, motive (.column name))
    (literal : ∀ s, motive (.literal s))
    (brackets : ∀ c, motive c → motive (.brackets c))
    (infixed : ∀ op left right, motive left → motive right → motive (.infixed op left right))
    (anywhere : ∀ part, motive part → motive (.anywhere part))
    (apply : ∀ function args, (∀ a ∈ args, motive a) → motive (.apply function args))
    (isFalse : ∀ c, motive c → motive (.isFalse c))
    (negated : ∀ c, motive c → motive (.negated c))
    (c : Clause) : motive c :=
  have ih (a : Clause) (_ : sizeOf a < sizeOf c) : motive a :=
    a.induction datum list column literal brackets infixed anywhere apply isFalse negated
  match c with
  | .datum d => datum d
  | .list ds => list ds
  | .column name => column name
  | .literal s => literal s
  | .brackets c => brackets c (ih c (by simp))
  | .infixed op left right =>
    infixed op left right (ih left (by rw [Clause.infixed.sizeOf_spec]; omega))
      (ih right (by rw [Clause.infixed.sizeOf_spec]; omega))
  | .anywhere part => anywhere part (ih part (by simp))
  | .apply function args =>
    apply function args fun a ha =>
      ih a (by have := List.sizeOf_lt_of_mem ha; rw [Clause.apply.sizeOf_spec]; omega)
  | .isFalse c => isFalse c (ih c (by simp))
  | .negated c => negated c (ih c (by simp))
termination_by sizeOf c

def Sql.Operator.text : Operator → String
  | .or => "or"
  | .and => "and"
  | .eq => "="
  | .ne => "!="
  | .is => "is"
  | .isNot => "is not"
  | .isIn => "in"
  | .notIn => "not in"
  | .like => "like"
  | .notLike => "not like"
  | .lt => "<"
  | .le => "<="
  | .gt => ">"
  | .ge => ">="
  | .bitAnd => "&"
  | .bitOr => "|"
  | .concat => "||"

def BinaryOp.operator? : BinaryOp → Option Operator
  | .eq => some .eq
  | .ne => some .ne
  | .lt => some .lt
  | .le => some .le
  | .gt => some .gt
  | .ge => some .ge
  | .and => some .and
  | .or => some .or
  | .bitAnd => some .bitAnd
  | .bitOr => some .bitOr
  | .bitXor | .add | .sub | .mul | .div | .mod | .coalesce => none

theorem BinaryOp.token?_eq (op : BinaryOp) : op.token? = op.operator?.map Operator.text := by
  cases op <;> rfl

namespace Clause

open Marked (ofString)

def separated (texts : List Marked) : Marked := (ofString ",").intercalate texts

mutual

@[simp] def write : Clause → Marked
  | .datum d => [.datum d]
  | .list ds => ofString "(" ++ separated (ds.map fun d => [.datum d]) ++ ofString ")"
  | .column name => ofString (quoteIdentifier name)
  | .literal s => ofString (quoteLiteral s)
  | .brackets c => ofString "(" ++ c.write ++ ofString ")"
  | .infixed op left right =>
    ofString "(" ++ left.write ++ ofString (" " ++ op.text ++ " ") ++ right.write ++ ofString ")"
  | .anywhere part => ofString "('%' || " ++ part.write ++ ofString " || '%')"
  | .apply function args =>
    ofString function ++ ofString "(" ++ separated (writeAll args) ++ ofString ")"
  | .isFalse c => c.write ++ ofString " = 0"
  | .negated c => c.write.negated

@[simp] def writeAll : List Clause → List Marked
  | [] => []
  | c :: cs => c.write :: writeAll cs

end

def nullTest (op : BinaryOp) (other null : Clause) : Option Clause :=
  match op with
  | .eq => some (.infixed .is other null)
  | .ne => some (.infixed .isNot other null)
  | _ => none

def startsWith (value start : Clause) : Clause :=
  .infixed .like value (.infixed .concat start (.literal "%"))

def endsWith (value tail : Clause) : Clause :=
  .infixed .like value (.infixed .concat (.literal "%") tail)

def containsText (value part : Clause) : Clause := .infixed .like value (.anywhere part)

def equals (left right : Clause) : Clause := .infixed .eq left (.brackets right)

def lowerCase (value : Clause) : Clause := .brackets (.apply "lower" [value])

def call (method : String) (args : List Clause) : Clause :=
  match args with
  | [a, b] =>
    if method = "like" then .infixed .like a b
    else if method = "contains" then .infixed .isIn b a
    else .apply (Text.lower method) args
  | _ => .apply (Text.lower method) args

def invoke (textual : Bool) (receiver : Clause) (method : String) (args : List Clause) : Clause :=
  match args with
  | [] =>
    if method = "to_lower" then lowerCase receiver
    else .apply (Text.lower method) [receiver]
  | [a] =>
    if method = "contains" then
      if textual then containsText receiver a else .infixed .isIn a receiver
    else if method = "starts_with" then startsWith receiver a
    else if method = "ends_with" then endsWith receiver a
    else if method = "equals" then equals receiver a
    else .apply (Text.lower method) [receiver, a]
  | _ => .apply (Text.lower method) (receiver :: args)

/-- What is written in brackets, perhaps as a negated call. -/
def isEnclosed : Clause → Bool
  | .list _ | .brackets _ | .infixed .. | .anywhere _ | .apply .. => true
  | .negated c => c.isEnclosed
  | .datum _ | .column _ | .literal _ | .isFalse _ => false

def isOperand : Clause → Bool
  | .datum _ | .column _ => true
  | c => c.isEnclosed

structure Prints (c : Clause) (f : Fragment) : Prop where
  text : f.sql.toList = c.write.text
  args : f.args = c.write.args

end Clause

namespace TableMapping

def listed (t : TableMapping) (v : Value) : Option Clause :=
  match v with
  | .list items => (items.mapM t.bind).toOption.map .list
  | v => (t.bind v).toOption.map .datum

mutual

/-- The tree of an expression that compiles. -/
def clause (t : TableMapping) : Expr → Option Clause
  | .constant v => (t.bind v).toOption.map .datum
  | .captured _ v => t.listed v
  | .member .parameter name => (t.columnOf name).toOption.map fun c => .column c.name
  | .member target name => (Expr.carried (.member target name)).bind t.listed
  | .binary op left right => do
    let l ← t.clause left
    let r ← t.clause right
    if left.isNull then Clause.nullTest op r l
    else if right.isNull then Clause.nullTest op l r
    else op.operator?.map fun o => .infixed o l r
  | .not operand =>
    if operand.isRead then (t.clause operand).map .isFalse
    else if operand.isCall then (t.clause operand).map .negated
    else none
  | .convert operand _ => t.clause operand
  | .call method args => (t.clauses args).map (Clause.call method)
  | .invoke receiver method args => do
    let r ← t.clause receiver
    let cs ← t.clauses args
    return Clause.invoke (t.isTextual receiver) r method cs
  | .parameter | .lambda .. => none

def clauses (t : TableMapping) : List Expr → Option (List Clause)
  | [] => some []
  | e :: es => do
    let c ← t.clause e
    let cs ← t.clauses es
    return c :: cs

end

variable {t : TableMapping} {c : Clause}

theorem clauses_eq_some {es : List Expr} {cs : List Clause} :
    t.clauses es = some cs ↔ List.Forall₂ (fun e c => t.clause e = some c) es cs := by
  have mapped : t.clauses es = es.mapM t.clause := by
    induction es with
    | nil => rfl
    | cons e es ih => rw [clauses, List.mapM_cons, ih]
  rw [mapped, mapM_eq_some]

theorem clause_constant_eq_some {v : Value} :
    t.clause (.constant v) = some c ↔ ∃ d, t.bind v = .ok d ∧ c = .datum d := by
  simp only [clause, Option.map_eq_some_iff, toOption_eq_some, @eq_comm _ c]

theorem clause_column_eq_some {name : String} :
    t.clause (.member .parameter name) = some c ↔
      ∃ k, t.columnOf name = .ok k ∧ c = .column k.name := by
  simp only [clause, Option.map_eq_some_iff, toOption_eq_some, @eq_comm _ c]

theorem clause_member {target : Expr} (h : target ≠ .parameter) (name : String) :
    t.clause (.member target name) = (Expr.carried (.member target name)).bind t.listed := by
  cases target <;> first | exact absurd rfl h | simp [clause]

theorem clause_binary_eq_some {op : BinaryOp} {left right : Expr} :
    t.clause (.binary op left right) = some c ↔
      ∃ l r, t.clause left = some l ∧ t.clause right = some r ∧
        ((left.isNull ∧ Clause.nullTest op r l = some c) ∨
        (left.isNull = false ∧ right.isNull ∧ Clause.nullTest op l r = some c) ∨
        (left.isNull = false ∧ right.isNull = false ∧
          ∃ o, op.operator? = some o ∧ c = .infixed o l r)) := by
  simp only [clause, Option.bind_eq_bind, Option.bind_eq_some_iff, exists_and_left]
  cases left.isNull <;> cases right.isNull <;> simp [@eq_comm _ c]

theorem clause_not_eq_some {operand : Expr} :
    t.clause (.not operand) = some c ↔ ∃ d, t.clause operand = some d ∧
      (operand.isRead ∧ c = .isFalse d ∨ operand.isCall ∧ c = .negated d) := by
  rw [clause]
  cases hr : operand.isRead with
  | true => simp [Expr.isCall_of_isRead hr, @eq_comm _ c]
  | false => cases operand.isCall <;> simp [@eq_comm _ c]

theorem clause_call_eq_some {method : String} {args : List Expr} :
    t.clause (.call method args) = some c ↔
      ∃ cs, List.Forall₂ (fun e c => t.clause e = some c) args cs ∧ c = Clause.call method cs := by
  simp only [clause, Option.map_eq_some_iff, clauses_eq_some, @eq_comm _ c]

theorem clause_invoke_eq_some {receiver : Expr} {method : String} {args : List Expr} :
    t.clause (.invoke receiver method args) = some c ↔ ∃ r cs, t.clause receiver = some r ∧
      List.Forall₂ (fun e c => t.clause e = some c) args cs ∧
      c = Clause.invoke (t.isTextual receiver) r method cs := by
  simp only [clause, Option.bind_eq_bind, Option.bind_eq_some_iff, Option.pure_def,
    Option.some.injEq, clauses_eq_some, exists_and_left, @eq_comm _ c]

end TableMapping

namespace Clause

open Marked (ofString)

theorem text_separated (texts : List Marked) :
    (separated texts).text = [','].intercalate (texts.map Marked.text) :=
  Marked.text_intercalate texts

theorem args_separated (texts : List Marked) :
    (separated texts).args = texts.flatMap Marked.args :=
  Marked.args_intercalate texts rfl

theorem writeAll_eq_map (cs : List Clause) : writeAll cs = cs.map write := by
  induction cs with
  | nil => rfl
  | cons c cs ih => rw [writeAll, ih, List.map_cons]

namespace Prints

variable {c d : Clause} {f g : Fragment}

theorem infixed (hc : c.Prints f) (hd : d.Prints g) (op : Operator) :
    (Clause.infixed op c d).Prints (f.infixed op.text g) :=
  ⟨by simp [Fragment.infixed, hc.text, hd.text], by
    simp [Fragment.infixed, hc.args, hd.args]⟩

theorem equals (hc : c.Prints f) (hd : d.Prints g) : (Clause.equals c d).Prints (f.equals g) :=
  ⟨by simp [Clause.equals, Fragment.equals, hc.text, hd.text, Operator.text], by
    simp [Clause.equals, Fragment.equals, hc.args, hd.args]⟩

theorem startsWith (hc : c.Prints f) (hd : d.Prints g) :
    (Clause.startsWith c d).Prints (f.startsWith g) :=
  ⟨by
    simp [Clause.startsWith, Fragment.startsWith, hc.text, hd.text, Operator.text,
      quoteLiteral, Text.Delimited.encode, Text.Delimited.double], by
    simp [Clause.startsWith, Fragment.startsWith, hc.args, hd.args]⟩

theorem endsWith (hc : c.Prints f) (hd : d.Prints g) :
    (Clause.endsWith c d).Prints (f.endsWith g) :=
  ⟨by
    simp [Clause.endsWith, Fragment.endsWith, hc.text, hd.text, Operator.text,
      quoteLiteral, Text.Delimited.encode, Text.Delimited.double], by
    simp [Clause.endsWith, Fragment.endsWith, hc.args, hd.args]⟩

theorem containsText (hc : c.Prints f) (hd : d.Prints g) :
    (Clause.containsText c d).Prints (f.containsText g) :=
  ⟨by simp [Clause.containsText, Fragment.containsText, hc.text, hd.text, Operator.text], by
    simp [Clause.containsText, Fragment.containsText, hc.args, hd.args]⟩

theorem lowerCase (hc : c.Prints f) : (Clause.lowerCase c).Prints f.lowerCase :=
  ⟨by simp [Clause.lowerCase, separated, Fragment.lowerCase, hc.text], by
    simp [Clause.lowerCase, separated, Fragment.lowerCase, hc.args]⟩

theorem isFalse (hc : c.Prints f) : (Clause.isFalse c).Prints f.isFalse :=
  ⟨by simp [Fragment.isFalse, hc.text], by simp [Fragment.isFalse, hc.args]⟩

theorem negated (hc : c.Prints f) : (Clause.negated c).Prints f.negatedCall :=
  ⟨by simp [Fragment.negatedCall, Marked.text_negated, ← hc.text], by
    simp [Fragment.negatedCall, Marked.args_negated, hc.args]⟩

section Calls

variable {cs : List Clause} {fs : List Fragment}

theorem map_text (h : List.Forall₂ Prints cs fs) :
    cs.map (fun c => c.write.text) = fs.map fun f => f.sql.toList := by
  induction h with
  | nil => rfl
  | cons hc _ ih => simp [hc.text, ih]

theorem flatMap_args (h : List.Forall₂ Prints cs fs) :
    cs.flatMap (fun c => c.write.args) = fs.flatMap Fragment.args := by
  induction h with
  | nil => rfl
  | cons hc _ ih => simp [hc.args, ih]

theorem apply (h : List.Forall₂ Prints cs fs) (function : String) :
    (Clause.apply function cs).Prints (Fragment.apply function fs) := by
  constructor
  · simp [Fragment.apply, writeAll_eq_map, text_separated, Function.comp_def, map_text h]
  · simp [Fragment.apply, writeAll_eq_map, args_separated, List.flatMap_map, flatMap_args h]

theorem call (h : List.Forall₂ Prints cs fs) {e : Expr} {method : String}
    (hf : Fragment.call e method fs = .ok f) : (Clause.call method cs).Prints f := by
  have generic := apply h (Text.lower method)
  rcases h with _ | ⟨ha, _ | ⟨hb, _ | ⟨hc, h⟩⟩⟩
  case cons.cons.nil =>
    simp only [Fragment.call] at hf
    simp only [Clause.call]
    split at hf
    · next hm =>
      rw [if_pos hm]
      cases hf
      exact ha.infixed hb .like
    · next hm =>
      rw [if_neg hm]
      split at hf <;> cases hf
      · next hm => rw [if_pos hm]; exact hb.infixed ha .isIn
      · next hm => rw [if_neg hm]; exact generic
  all_goals
    simp only [Fragment.call] at hf
    split at hf
    · cases hf
    · cases hf
      exact generic

theorem invoke (hr : c.Prints f) (h : List.Forall₂ Prints cs fs) (method : String) :
    (Clause.invoke f.textual c method cs).Prints (f.invoke method fs) := by
  have generic := apply (.cons hr h) (Text.lower method)
  rcases h with _ | ⟨ha, _ | ⟨hb, h⟩⟩
  · simp only [Clause.invoke, Fragment.invoke]
    split
    · exact hr.lowerCase
    · exact generic
  · simp only [Clause.invoke, Fragment.invoke]
    split
    · split
      · exact hr.containsText ha
      · exact ha.infixed hr .isIn
    split
    · exact hr.startsWith ha
    split
    · exact hr.endsWith ha
    split
    · exact hr.equals ha
    · exact generic
  · exact generic

end Calls

end Prints

end Clause

namespace TableMapping

variable {t : TableMapping} {f : Fragment}

open Clause (Prints)

theorem placeholder_prints {v : Value} (h : t.placeholder v = .ok f) :
    ∃ d, t.bind v = .ok d ∧ (Clause.datum d).Prints f := by
  obtain ⟨d, hd, rfl⟩ := placeholder_eq_ok.1 h
  exact ⟨d, hd, by simp, by simp⟩

theorem listed_prints {v : Value} (h : t.expand v = .ok f) :
    ∃ c, t.listed v = some c ∧ c.Prints f := by
  rcases expand_eq_ok.1 h with ⟨items, args, rfl, hargs, rfl⟩ | ⟨hn, h⟩
  · refine ⟨.list args, by simp [listed, hargs], ?_, ?_⟩
    · simp [Clause.text_separated, placeholders, Function.comp_def]
    · simp [Clause.args_separated, List.flatMap_map]
  · obtain ⟨d, hd, hp⟩ := placeholder_prints h
    refine ⟨.datum d, ?_, hp⟩
    cases v <;> first | exact absurd rfl (hn _) | simp [listed, hd]

theorem read_cases {e : Expr} {c : Clause} (he : e.isRead) (h : t.clause e = some c) :
    (∃ name, c = .column name) ∨ (∃ d, c = .datum d) ∨ ∃ ds, c = .list ds := by
  have listed {v : Value} (h : t.listed v = some c) : (∃ d, c = .datum d) ∨ ∃ ds, c = .list ds := by
    cases v <;> simp only [TableMapping.listed, Option.map_eq_some_iff] at h <;>
      obtain ⟨_, _, rfl⟩ := h <;> simp
  cases e with
  | captured name v => exact .inr (listed (by simpa [clause] using h))
  | member target name =>
    by_cases ht : target = .parameter
    · subst ht
      obtain ⟨column, _, rfl⟩ := clause_column_eq_some.1 h
      exact .inl ⟨column.name, rfl⟩
    · rw [clause_member ht, Option.bind_eq_some_iff] at h
      obtain ⟨v, _, h⟩ := h
      exact .inr (listed h)
  | _ => cases he

theorem nullTest_prints {e : Expr} {op : BinaryOp} {other null : Fragment} {c d : Clause}
    (hc : c.Prints other) (hd : d.Prints null) (hnull : null.sql = "?")
    (h : Fragment.nullTest e op other null = .ok f) :
    ∃ c', Clause.nullTest op c d = some c' ∧ c'.Prints f := by
  have hd' : d.write.text = ['?'] := by rw [← hd.text, hnull]; rfl
  rcases Fragment.nullTest_eq_ok.1 h with ⟨rfl, rfl⟩ | ⟨rfl, rfl⟩
  · exact ⟨_, rfl, by simp [Operator.text, hc.text, hd'], by
      simp [hc.args, hd.args]⟩
  · exact ⟨_, rfl, by simp [Operator.text, hc.text, hd'], by
      simp [hc.args, hd.args]⟩

theorem fragments_print {es : List Expr} {fs : List Fragment}
    (h : List.Forall₂ (fun e f => t.fragment e = .ok f) es fs)
    (ih : ∀ e ∈ es, ∀ f, t.fragment e = .ok f → ∃ c, t.clause e = some c ∧ c.Prints f) :
    ∃ cs, List.Forall₂ (fun e c => t.clause e = some c) es cs ∧ List.Forall₂ Prints cs fs := by
  induction h with
  | nil => exact ⟨[], .nil, .nil⟩
  | cons hf _ ihs =>
    obtain ⟨c, hc, hp⟩ := ih _ (by simp) _ hf
    obtain ⟨cs, hcs, hps⟩ := ihs fun e he => ih e (by simp [he])
    exact ⟨c :: cs, .cons hc hcs, .cons hp hps⟩

theorem fragment_prints {e : Expr} (h : t.fragment e = .ok f) :
    ∃ c, t.clause e = some c ∧ c.Prints f := by
  induction e using Expr.induction generalizing f with
  | constant v =>
    rw [fragment] at h
    obtain ⟨d, hd, hp⟩ := placeholder_prints h
    exact ⟨.datum d, by simp [clause, hd], hp⟩
  | parameter => simp [fragment] at h
  | captured name v =>
    rw [fragment] at h
    simpa [clause] using listed_prints h
  | column name =>
    obtain ⟨c, hc, rfl⟩ := fragment_column_eq_ok.1 h
    exact ⟨.column c.name, by simp [clause, hc], by simp [Column.quotedName], by
      simp⟩
  | member target name hn =>
    obtain ⟨v, hv, h⟩ := (fragment_member_eq_ok hn name).1 h
    simpa [clause_member hn, hv] using listed_prints h
  | binary op left right ihl ihr =>
    obtain ⟨l, r, hl, hr, h⟩ := fragment_binary_eq_ok.1 h
    obtain ⟨c, hc, hcl⟩ := ihl hl
    obtain ⟨d, hd, hdr⟩ := ihr hr
    -- Fragments are tested for null by their values, and expressions by what they carry.
    have nl : l.isNull = left.isNull := (fragment_carries hl).isNull_eq
    have nr : r.isNull = right.isNull := (fragment_carries hr).isNull_eq
    rcases Fragment.binary_eq_ok.1 h with ⟨hn, h⟩ | ⟨hn, hm, h⟩ | ⟨hn, hm, token, ht, rfl⟩
    · have hsql := (fragment_carries hl).sql_of_null (nl.symm.trans hn)
      obtain ⟨c', hc', hp⟩ := nullTest_prints hdr hcl hsql h
      exact ⟨c', clause_binary_eq_some.2 ⟨c, d, hc, hd, .inl ⟨nl.symm.trans hn, hc'⟩⟩, hp⟩
    · have hsql := (fragment_carries hr).sql_of_null (nr.symm.trans hm)
      obtain ⟨c', hc', hp⟩ := nullTest_prints hcl hdr hsql h
      exact ⟨c', clause_binary_eq_some.2
        ⟨c, d, hc, hd, .inr (.inl ⟨nl.symm.trans hn, nr.symm.trans hm, hc'⟩)⟩, hp⟩
    · obtain ⟨o, ho, rfl⟩ := Option.map_eq_some_iff.1 (BinaryOp.token?_eq op ▸ ht)
      exact ⟨.infixed o c d, clause_binary_eq_some.2 ⟨c, d, hc, hd,
        .inr (.inr ⟨nl.symm.trans hn, nr.symm.trans hm, o, ho, rfl⟩)⟩, hcl.infixed hdr o⟩
  | not operand ih =>
    obtain ⟨g, hg, h⟩ := fragment_not_eq_ok.1 h
    obtain ⟨c, hc, hp⟩ := ih hg
    rcases h with ⟨ho, rfl⟩ | ⟨ho, rfl⟩
    · exact ⟨.isFalse c, clause_not_eq_some.2 ⟨c, hc, .inl ⟨ho, rfl⟩⟩, hp.isFalse⟩
    · exact ⟨.negated c, clause_not_eq_some.2 ⟨c, hc, .inr ⟨ho, rfl⟩⟩, hp.negated⟩
  | convert operand kind ih =>
    obtain ⟨g, hg, h⟩ := fragment_convert_eq_ok.1 h
    obtain ⟨c, hc, hp⟩ := ih hg
    refine ⟨c, by simpa [clause] using hc, ?_⟩
    rcases Fragment.convert_eq_ok.1 h with ⟨_, rfl⟩ | ⟨_, _, _, _, rfl⟩ <;>
      exact ⟨hp.text, hp.args⟩
  | call method args ih =>
    obtain ⟨fs, hfs, h⟩ := fragment_call_eq_ok.1 h
    obtain ⟨cs, hcs, hp⟩ := fragments_print hfs fun a ha _ => ih a ha
    exact ⟨Clause.call method cs, clause_call_eq_some.2 ⟨cs, hcs, rfl⟩, .call hp h⟩
  | invoke receiver method args ihr ih =>
    obtain ⟨r, fs, hr, hfs, rfl⟩ := fragment_invoke_eq_ok.1 h
    obtain ⟨c, hc, hcr⟩ := ihr hr
    obtain ⟨cs, hcs, hp⟩ := fragments_print hfs fun a ha _ => ih a ha
    refine ⟨_, clause_invoke_eq_some.2 ⟨c, cs, hc, hcs, rfl⟩, ?_⟩
    rw [← (fragment_carries hr).textual_eq]
    exact hcr.invoke hp method
  | lambda => simp [fragment] at h

end TableMapping

def Expr.isTest : Expr → Bool
  | .not operand => operand.isRead
  | .convert operand _ => operand.isTest
  | _ => false

namespace Clause

theorem isOperand_of_isEnclosed {c : Clause} (h : c.isEnclosed) : c.isOperand := by
  cases c <;> first | rfl | exact h

theorem nullTest_isEnclosed {op : BinaryOp} {other null c : Clause}
    (h : nullTest op other null = some c) : c.isEnclosed := by
  cases op <;> cases h <;> rfl

theorem call_isEnclosed (method : String) (args : List Clause) :
    (call method args).isEnclosed := by
  unfold call
  (repeat' split) <;> rfl

theorem invoke_isEnclosed (textual : Bool) (receiver : Clause) (method : String)
    (args : List Clause) : (invoke textual receiver method args).isEnclosed := by
  unfold invoke
  (repeat' split) <;> rfl

end Clause

namespace TableMapping

variable {t : TableMapping} {e : Expr} {c : Clause}

theorem clause_isEnclosed (he : e.isCall) (h : t.clause e = some c) : c.isEnclosed := by
  cases e with
  | call method args =>
    obtain ⟨cs, _, rfl⟩ := clause_call_eq_some.1 h
    exact Clause.call_isEnclosed method cs
  | invoke receiver method args =>
    obtain ⟨r, cs, _, _, rfl⟩ := clause_invoke_eq_some.1 h
    exact Clause.invoke_isEnclosed _ r method cs
  | _ => cases he

theorem read_isOperand (he : e.isRead) (h : t.clause e = some c) : c.isOperand := by
  rcases read_cases he h with ⟨name, rfl⟩ | ⟨d, rfl⟩ | ⟨ds, rfl⟩ <;> rfl

theorem clause_isOperand (he : e.isTest = false) (h : t.clause e = some c) : c.isOperand := by
  induction e using Expr.induction generalizing c with
  | constant v =>
    obtain ⟨d, _, rfl⟩ := clause_constant_eq_some.1 h
    rfl
  | parameter => simp [clause] at h
  | captured name v => exact read_isOperand rfl h
  | column name => exact read_isOperand rfl h
  | member target name => exact read_isOperand rfl h
  | binary op left right =>
    refine Clause.isOperand_of_isEnclosed ?_
    obtain ⟨l, r, _, _, ⟨_, h⟩ | ⟨_, _, h⟩ | ⟨_, _, o, _, rfl⟩⟩ := clause_binary_eq_some.1 h
    · exact Clause.nullTest_isEnclosed h
    · exact Clause.nullTest_isEnclosed h
    · rfl
  | not operand =>
    obtain ⟨d, hd, ⟨hr, _⟩ | ⟨hc, rfl⟩⟩ := clause_not_eq_some.1 h
    · exact absurd hr (Bool.eq_false_iff.1 he)
    · have enclosed : d.isEnclosed := clause_isEnclosed hc hd
      exact enclosed
  | convert operand kind ih => exact ih he (by simpa [clause] using h)
  | call method args => exact Clause.isOperand_of_isEnclosed (clause_isEnclosed rfl h)
  | invoke receiver method args =>
    exact Clause.isOperand_of_isEnclosed (clause_isEnclosed rfl h)
  | lambda => simp [clause] at h

theorem clause_isFalse (he : e.isTest) (h : t.clause e = some c) :
    ∃ operand d, operand.isRead ∧ t.clause operand = some d ∧ c = .isFalse d := by
  induction e using Expr.induction generalizing c with
  | not operand =>
    have hr : operand.isRead := he
    obtain ⟨d, hd, ⟨_, rfl⟩ | ⟨call, _⟩⟩ := clause_not_eq_some.1 h
    · exact ⟨operand, d, hr, hd, rfl⟩
    · cases (Expr.isCall_of_isRead hr).symm.trans call
  | convert operand kind ih => exact ih he (by simpa [clause] using h)
  | _ => cases he

end TableMapping

end Tabular
