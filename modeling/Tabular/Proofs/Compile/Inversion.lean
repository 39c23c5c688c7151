import Tabular.Compile.Basic
import Tabular.Proofs.Except

namespace Tabular

/-- Induction over expressions. A member of the row is a case of its own. -/
@[elab_as_elim]
theorem Expr.induction {motive : Expr → Prop}
    (constant : ∀ v, motive (.constant v))
    (parameter : motive .parameter)
    (captured : ∀ name v, motive (.captured name v))
    (column : ∀ name, motive (.member .parameter name))
    (member : ∀ target name, target ≠ .parameter → motive target → motive (.member target name))
    (binary : ∀ op left right, motive left → motive right → motive (.binary op left right))
    (not : ∀ operand, motive operand → motive (.not operand))
    (convert : ∀ operand kind, motive operand → motive (.convert operand kind))
    (call : ∀ method args, (∀ a ∈ args, motive a) → motive (.call method args))
    (invoke : ∀ receiver method args, motive receiver → (∀ a ∈ args, motive a) →
      motive (.invoke receiver method args))
    (lambda : ∀ arity body, motive body → motive (.lambda arity body))
    (e : Expr) : motive e :=
  have ih (a : Expr) (_ : sizeOf a < sizeOf e) : motive a :=
    a.induction constant parameter captured column member binary not convert call invoke lambda
  match e with
  | .constant v => constant v
  | .parameter => parameter
  | .captured name v => captured name v
  | .member target name => by
    by_cases h : target = .parameter
    · exact h ▸ column name
    · exact member target name h (ih target (by rw [Expr.member.sizeOf_spec]; omega))
  | .binary op left right =>
    binary op left right (ih left (by rw [Expr.binary.sizeOf_spec]; omega))
      (ih right (by rw [Expr.binary.sizeOf_spec]; omega))
  | .not operand => not operand (ih operand (by rw [Expr.not.sizeOf_spec]; omega))
  | .convert operand kind =>
    convert operand kind (ih operand (by rw [Expr.convert.sizeOf_spec]; omega))
  | .call method args =>
    call method args fun a ha =>
      ih a (by have := List.sizeOf_lt_of_mem ha; rw [Expr.call.sizeOf_spec]; omega)
  | .invoke receiver method args =>
    invoke receiver method args (ih receiver (by rw [Expr.invoke.sizeOf_spec]; omega))
      fun a ha => ih a (by have := List.sizeOf_lt_of_mem ha; rw [Expr.invoke.sizeOf_spec]; omega)
  | .lambda arity body => lambda arity body (ih body (by rw [Expr.lambda.sizeOf_spec]; omega))
termination_by sizeOf e

namespace Expr

def isRead : Expr → Bool
  | .member .. | .captured .. => true
  | _ => false

def isCall : Expr → Bool
  | .call .. | .invoke .. => true
  | _ => false

theorem isCall_of_isRead {e : Expr} (h : e.isRead) : e.isCall = false := by
  cases e <;> first | rfl | cases h

theorem readMember_eq_ok {target : Expr} {name : String} {base v : Value} :
    readMember target name base = .ok v ↔ base.isNull = false ∧ base.member? name = some v := by
  unfold readMember
  cases base.isNull <;> cases base.member? name <;> simp

theorem evaluate_member {target : Expr} (h : target ≠ .parameter) (name : String) :
    evaluate (.member target name) = (do readMember target name (← target.evaluate)) := by
  cases target <;> first | exact absurd rfl h | rfl

end Expr

namespace TableMapping

def notes : TableMapping where
  typeName := "Note"
  tableName := "notes"
  columns := [
    { name := "id", property := "Id", memberIndex := 0, kind := .int64, storage := "integer"
      nullable := false, primaryKey := true, autoIncrement := false
      collation := none, maxLength := none, default := none },
    { name := "title", property := "Title", memberIndex := 1, kind := .text, storage := "text"
      nullable := true, primaryKey := false, autoIncrement := false
      collation := none, maxLength := none, default := none }]
  indices := []
  ticks := true

variable {t : TableMapping} {f : Fragment}

theorem columnOf_eq_ok {name : String} {c : Column} (h : t.columnOf name = .ok c) :
    c ∈ t.columns ∧ c.property = name := by
  unfold columnOf at h
  split at h
  · next found =>
    cases h
    exact ⟨List.mem_of_find?_eq_some found, by simpa using List.find?_some found⟩
  · cases h

theorem placeholder_eq_ok {v : Value} :
    t.placeholder v = .ok f ↔
      ∃ d, t.bind v = .ok d ∧
        f = { sql := "?", args := [d], value := some v, textual := v.isText } := by
  simp only [placeholder, bind_eq_ok, pure, Except.pure, Except.ok.injEq, @eq_comm _ f]

theorem expand_eq_ok {v : Value} :
    t.expand v = .ok f ↔
      (∃ items args, v = .list items ∧ items.mapM t.bind = .ok args ∧
        f = { sql := "(" ++ placeholders "," args.length ++ ")", args := args, value := some v }) ∨
      ((∀ items, v ≠ .list items) ∧ t.placeholder v = .ok f) := by
  cases v <;> simp [expand, bind_eq_ok, pure, Except.pure, @eq_comm _ f]

theorem fragment_member {target : Expr} (h : target ≠ .parameter) (name : String) :
    t.fragment (.member target name) =
      (do t.expand (← Expr.readMember target name (← target.evaluate))) := by
  cases target <;> first | exact absurd rfl h | simp [fragment]

theorem fragments_eq_mapM (t : TableMapping) (es : List Expr) :
    t.fragments es = es.mapM t.fragment := by
  induction es with
  | nil => rfl
  | cons e es ih => rw [fragments, List.mapM_cons, ih]

theorem fragments_eq_ok {es : List Expr} {fs : List Fragment} :
    t.fragments es = .ok fs ↔ List.Forall₂ (fun e f => t.fragment e = .ok f) es fs := by
  rw [fragments_eq_mapM, mapM_eq_ok]

theorem compile_eq_ok {e : Expr} {params params' : List Datum} :
    t.compile e params = (.ok f, params') ↔ t.fragment e = .ok f ∧ params ++ f.args = params' := by
  unfold compile
  cases t.fragment e with
  | error fault => simp
  | ok g =>
    simp only [Prod.mk.injEq, Except.ok.injEq]
    constructor
    · rintro ⟨rfl, h⟩
      exact ⟨rfl, h⟩
    · rintro ⟨rfl, h⟩
      exact ⟨rfl, h⟩

end TableMapping

namespace Fragment

variable {e : Expr} {f l r : Fragment}

theorem binary_eq_ok {op : BinaryOp} :
    binary e op l r = .ok f ↔
      (l.isNull ∧ nullTest e op r l = .ok f) ∨
      (l.isNull = false ∧ r.isNull ∧ nullTest e op l r = .ok f) ∨
      (l.isNull = false ∧ r.isNull = false ∧
        ∃ token, op.token? = some token ∧ f = l.infixed token r) := by
  unfold binary
  cases l.isNull <;> cases r.isNull <;> cases op.token? <;> simp [eq_comm]

theorem nullTest_eq_ok {op : BinaryOp} {other null : Fragment} :
    nullTest e op other null = .ok f ↔
      (op = .eq ∧ f = { sql := "(" ++ other.sql ++ " is ?)", args := other.args ++ null.args }) ∨
      (op = .ne ∧
        f = { sql := "(" ++ other.sql ++ " is not ?)", args := other.args ++ null.args }) := by
  cases op <;> simp [nullTest, eq_comm]

theorem convert_eq_ok {g : Fragment} {kind : Kind} :
    g.convert kind = .ok f ↔
      (g.value = none ∧ f = { g with textual := g.textual || kind.isTextual }) ∨
      (∃ v w, g.value = some v ∧ v.convert kind = .ok w ∧
        f = { g with value := some w, textual := g.textual || kind.isTextual }) := by
  rcases g with ⟨sql, args, _ | v, textual⟩
  · simp [convert, pure, Except.pure, bind, Except.bind, @eq_comm _ f]
  · cases h : v.convert kind <;>
      simp [convert, pure, Except.pure, bind, Except.bind, Functor.map, Except.map, h, @eq_comm _ f]

theorem negate_eq_ok {operand : Expr} {g : Fragment} :
    negate operand g = .ok f ↔
      (operand.isRead ∧ f = g.isFalse) ∨ (operand.isCall ∧ f = g.negatedCall) := by
  cases operand <;> simp [negate, Expr.isRead, Expr.isCall, eq_comm]

end Fragment

namespace TableMapping

variable {t : TableMapping} {f : Fragment}

theorem fragment_column_eq_ok {name : String} :
    t.fragment (.member .parameter name) = .ok f ↔ ∃ c, t.columnOf name = .ok c ∧
      f = { sql := c.quotedName, args := [], textual := c.kind.isTextual } := by
  simp only [fragment, bind_eq_ok, pure, Except.pure, Except.ok.injEq, @eq_comm _ f]

theorem fragment_binary_eq_ok {op : BinaryOp} {left right : Expr} :
    t.fragment (.binary op left right) = .ok f ↔ ∃ l r, t.fragment left = .ok l ∧
      t.fragment right = .ok r ∧ Fragment.binary (.binary op left right) op l r = .ok f := by
  simp only [fragment, bind_eq_ok, exists_and_left]

theorem fragment_not_eq_ok {operand : Expr} :
    t.fragment (.not operand) = .ok f ↔ ∃ g, t.fragment operand = .ok g ∧
      (operand.isRead ∧ f = g.isFalse ∨ operand.isCall ∧ f = g.negatedCall) := by
  simp only [fragment, bind_eq_ok, Fragment.negate_eq_ok]

theorem fragment_convert_eq_ok {operand : Expr} {kind : Kind} :
    t.fragment (.convert operand kind) = .ok f ↔
      ∃ g, t.fragment operand = .ok g ∧ g.convert kind = .ok f := by
  simp only [fragment, bind_eq_ok]

theorem fragment_call_eq_ok {method : String} {args : List Expr} :
    t.fragment (.call method args) = .ok f ↔
      ∃ fs, List.Forall₂ (fun e f => t.fragment e = .ok f) args fs ∧
        Fragment.call (.call method args) method fs = .ok f := by
  simp only [fragment, bind_eq_ok, fragments_eq_ok]

theorem fragment_invoke_eq_ok {receiver : Expr} {method : String} {args : List Expr} :
    t.fragment (.invoke receiver method args) = .ok f ↔ ∃ r fs, t.fragment receiver = .ok r ∧
      List.Forall₂ (fun e f => t.fragment e = .ok f) args fs ∧ f = r.invoke method fs := by
  simp only [fragment, bind_eq_ok, fragments_eq_ok, pure, Except.pure, Except.ok.injEq,
    exists_and_left, @eq_comm _ f]

end TableMapping

end Tabular
