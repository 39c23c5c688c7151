import Tabular.Proofs.Compile.Nulls

namespace Tabular

namespace Expr

def children : Expr → List Expr
  | .member .parameter _ => []
  | .member target _ => [target]
  | .lambda _ body => [body]
  | e => e.operands

/-- Occurrence at any depth, in targets and in lambdas too. -/
inductive Contains : Expr → Expr → Prop
  | self (e : Expr) : Contains e e
  | within {e a n : Expr} : a ∈ e.children → Contains a n → Contains e n

variable {e a n m : Expr}

theorem Contains.trans (h : e.Contains n) (h' : n.Contains m) : e.Contains m := by
  induction h with
  | self => exact h'
  | within child _ ih => exact .within child (ih h')

theorem mem_children_of_mem_operands (h : a ∈ e.operands) : a ∈ e.children := by
  cases e with
  | member | lambda => cases h
  | _ => exact h

theorem mem_children (h : a ∈ e.children) : a ∈ e.operands ∨
    (∃ name, a ≠ .parameter ∧ e = .member a name) ∨ ∃ arity, e = .lambda arity a := by
  unfold children at h
  split at h
  · cases h
  · next target name hn =>
    rw [List.mem_singleton.1 h]
    exact .inr (.inl ⟨name, hn, rfl⟩)
  · rw [List.mem_singleton.1 h]
    exact .inr (.inr ⟨_, rfl⟩)
  · exact .inl h

theorem exists_evaluate_of_mem_children {v : Value} (h : e.evaluate = .ok v)
    (ha : a ∈ e.children) : ∃ w, a.evaluate = .ok w := by
  rcases mem_children ha with ha | ⟨name, hn, rfl⟩ | ⟨arity, rfl⟩
  · cases e with
    | convert operand kind =>
      obtain ⟨w, hw, _⟩ := bind_eq_ok.1 h
      rw [List.mem_singleton.1 ha]
      exact ⟨w, hw⟩
    | constant | captured | member => cases ha
    | _ => cases h
  · rw [evaluate_member hn, bind_eq_ok] at h
    obtain ⟨w, hw, _⟩ := h
    exact ⟨w, hw⟩
  · cases h

theorem exists_evaluate_of_contains (h : e.Contains n) {v : Value} (hv : e.evaluate = .ok v) :
    ∃ w, n.evaluate = .ok w := by
  induction h generalizing v with
  | self => exact ⟨v, hv⟩
  | within child _ ih =>
    obtain ⟨w, hw⟩ := exists_evaluate_of_mem_children hv child
    exact ih hw

end Expr

namespace Fragment

variable {e : Expr} {op : BinaryOp} {l r : Fragment}

theorem exists_nullTest_iff {other null : Fragment} :
    (∃ f, nullTest e op other null = .ok f) ↔ op = .eq ∨ op = .ne := by
  cases op <;> simp [nullTest]

theorem exists_binary_iff : (∃ f, binary e op l r = .ok f) ↔
    op.token?.isSome ∧ (l.isNull ∨ r.isNull → op = .eq ∨ op = .ne) := by
  have written (h : op = .eq ∨ op = .ne) : op.token?.isSome := by
    rcases h with rfl | rfl <;> rfl
  constructor
  · rintro ⟨f, hf⟩
    rcases binary_eq_ok.1 hf with ⟨_, h⟩ | ⟨_, _, h⟩ | ⟨hl, hr, token, ht, _⟩
    · have test := exists_nullTest_iff.1 ⟨f, h⟩
      exact ⟨written test, fun _ => test⟩
    · have test := exists_nullTest_iff.1 ⟨f, h⟩
      exact ⟨written test, fun _ => test⟩
    · exact ⟨Option.isSome_iff_exists.2 ⟨token, ht⟩, by simp [hl, hr]⟩
  · rintro ⟨known, null⟩
    obtain ⟨token, ht⟩ := Option.isSome_iff_exists.1 known
    unfold binary
    split
    · next hl => exact exists_nullTest_iff.2 (null (.inl hl))
    split
    · next hr => exact exists_nullTest_iff.2 (null (.inr hr))
    · rw [ht]
      exact ⟨_, rfl⟩

theorem exists_call_iff {method : String} {args : List Fragment} :
    (∃ f, call e method args = .ok f) ↔ needsReceiver method args.length = false := by
  unfold call
  split
  · refine iff_of_true ?_ (by simp [needsReceiver])
    split_ifs <;> exact ⟨_, rfl⟩
  · split
    · next needed => simp [needed]
    · next free => simp [free]

end Fragment

namespace TableMapping

variable {t : TableMapping} {e a n : Expr}

/-- The constructs that have no SQL wherever they occur. -/
inductive Unsupported (t : TableMapping) : Expr → Prop
  | lambda (arity : Nat) (body : Expr) : t.Unsupported (.lambda arity body)
  | row : t.Unsupported .parameter
  | column {name : String} : (∀ c ∈ t.columns, c.property ≠ name) → t.Unsupported (.field name)
  | belowMember {target : Expr} {inner name : String} :
    target.Contains (.field inner) → t.Unsupported (.member target name)
  | operator {op : BinaryOp} (left right : Expr) :
    op.token? = none → t.Unsupported (.binary op left right)
  | negation {operand : Expr} :
    operand.isRead = false → operand.isCall = false → t.Unsupported (.not operand)

def Handles (t : TableMapping) (e : Expr) : Prop :=
  (∃ f, t.fragment e = .ok f) ∨ ∃ v, e.evaluate = .ok v

theorem Handles.child (h : t.Handles e) (ha : a ∈ e.children) : t.Handles a := by
  rcases h with ⟨f, hf⟩ | ⟨v, hv⟩
  · rcases Expr.mem_children ha with ha | ⟨name, hn, rfl⟩ | ⟨arity, rfl⟩
    · exact .inl (exists_fragment_of_mem_operands hf ha)
    · rw [fragment_member hn, bind_eq_ok] at hf
      obtain ⟨v, hv, _⟩ := hf
      exact .inr ⟨v, hv⟩
    · simp [fragment] at hf
  · exact .inr (Expr.exists_evaluate_of_mem_children hv ha)

theorem Handles.of_contains (h : t.Handles e) (hn : e.Contains n) : t.Handles n := by
  induction hn with
  | self => exact h
  | within child _ ih => exact ih (h.child child)

theorem exists_columnOf {name : String} (h : ∃ c ∈ t.columns, c.property = name) :
    ∃ c, t.columnOf name = .ok c := by
  obtain ⟨c, hc, same⟩ := h
  have found : (t.columns.find? fun c => c.property == name).isSome :=
    List.find?_isSome.2 ⟨c, hc, by simp [same]⟩
  obtain ⟨d, hd⟩ := Option.isSome_iff_exists.1 found
  exact ⟨d, by rw [columnOf, hd]⟩

theorem not_evaluates_of_contains_field {name : String} (h : e.Contains (.field name)) (v : Value) :
    e.evaluate ≠ .ok v := by
  intro hv
  obtain ⟨w, hw⟩ := Expr.exists_evaluate_of_contains h hv
  cases hw

theorem Unsupported.not_handles (h : t.Unsupported n) : ¬ t.Handles n := by
  cases h with
  | lambda | row =>
    rintro (⟨f, hf⟩ | ⟨v, hv⟩)
    · simp [fragment] at hf
    · cases hv
  | column none =>
    rintro (⟨f, hf⟩ | ⟨v, hv⟩)
    · obtain ⟨c, hc, _⟩ := fragment_column_eq_ok.1 hf
      obtain ⟨present, same⟩ := columnOf_eq_ok hc
      exact none c present same
    · cases hv
  | @belowMember target inner name inside =>
    have hn : target ≠ .parameter := by
      rintro rfl
      cases inside with
      | within child => cases child
    rintro (⟨f, hf⟩ | ⟨v, hv⟩)
    · rw [fragment_member hn, bind_eq_ok] at hf
      obtain ⟨v, hv, _⟩ := hf
      exact not_evaluates_of_contains_field inside v hv
    · rw [Expr.evaluate_member hn, bind_eq_ok] at hv
      obtain ⟨v, hv, _⟩ := hv
      exact not_evaluates_of_contains_field inside v hv
  | operator left right none =>
    rintro (⟨f, hf⟩ | ⟨v, hv⟩)
    · obtain ⟨l, r, _, _, hf⟩ := fragment_binary_eq_ok.1 hf
      have known := (Fragment.exists_binary_iff.1 ⟨f, hf⟩).1
      rw [none] at known
      cases known
    · cases hv
  | negation read call =>
    rintro (⟨f, hf⟩ | ⟨v, hv⟩)
    · obtain ⟨g, _, ⟨is, _⟩ | ⟨is, _⟩⟩ := fragment_not_eq_ok.1 hf
      · exact Bool.false_ne_true (read.symm.trans is)
      · exact Bool.false_ne_true (call.symm.trans is)
    · cases hv

theorem fragment_of_unsupported (hn : e.Contains n) (h : t.Unsupported n) :
    ∃ fault, t.fragment e = .error fault := by
  cases he : t.fragment e with
  | error fault => exact ⟨fault, rfl⟩
  | ok f =>
    have handles : t.Handles e := .inl ⟨f, he⟩
    exact absurd (handles.of_contains hn) h.not_handles

def Binds (t : TableMapping) : Value → Prop
  | .list items => ∀ v ∈ items, ∃ d, t.bind v = .ok d
  | v => ∃ d, t.bind v = .ok d

/-- What is asked of a node that is written, beside being supported: its value can be read, cast and
bound, a comparison with null is one that SQL has, and a method has something to be called on. -/
def Settles (t : TableMapping) : Expr → Prop
  | .constant v => ∃ d, t.bind v = .ok d
  | .captured _ v => t.Binds v
  | .member target name =>
    target = .parameter ∨ ∃ v, (Expr.member target name).evaluate = .ok v ∧ t.Binds v
  | .binary op left right =>
    left.evaluate = .ok .null ∨ right.evaluate = .ok .null → op = .eq ∨ op = .ne
  | .convert operand kind => ∀ v, operand.evaluate = .ok v → ∃ w, v.convert kind = .ok w
  | .call method args => Fragment.needsReceiver method args.length = false
  | _ => True

theorem exists_expand_iff {v : Value} : (∃ f, t.expand v = .ok f) ↔ t.Binds v := by
  have single (v : Value) : (∃ f, t.placeholder v = .ok f) ↔ ∃ d, t.bind v = .ok d := by
    simp only [placeholder_eq_ok]
    exact ⟨fun ⟨_, d, hd, _⟩ => ⟨d, hd⟩, fun ⟨d, hd⟩ => ⟨_, d, hd, rfl⟩⟩
  cases v with
  | list items =>
    constructor
    · rintro ⟨f, hf⟩ v hv
      rcases expand_eq_ok.1 hf with ⟨items, args, h, hargs, _⟩ | ⟨ne, _⟩
      · cases h
        obtain ⟨d, _, hd⟩ := exists_of_mapM_eq_ok hargs v hv
        exact ⟨d, hd⟩
      · exact absurd rfl (ne items)
    · intro binds
      obtain ⟨args, hargs⟩ := exists_mapM_eq_ok binds
      exact ⟨_, expand_eq_ok.2 (.inl ⟨items, args, rfl, hargs, rfl⟩)⟩
  | _ => exact single _

section Carried

variable {f : Fragment} (h : t.fragment e = .ok f)

include h

theorem value_eq_some_iff {v : Value} : f.value = some v ↔ e.evaluate = .ok v := by
  rw [(fragment_carries h).value_eq, Expr.carried_eq_evaluate, toOption_eq_some]

theorem isNull_fragment_iff : f.isNull ↔ e.evaluate = .ok .null := by
  rw [(fragment_carries h).isNull_eq]
  exact isNull_iff

end Carried

theorem settles_of_fragment {f : Fragment} (h : t.fragment e = .ok f) : t.Settles e := by
  cases e with
  | constant v =>
    obtain ⟨d, hd, _⟩ := placeholder_eq_ok.1 (by simpa [fragment] using h)
    exact ⟨d, hd⟩
  | captured name v => exact exists_expand_iff.1 ⟨f, by simpa [fragment] using h⟩
  | member target name =>
    by_cases hn : target = .parameter
    · exact .inl hn
    · simp only [fragment_member hn, bind_eq_ok] at h
      obtain ⟨base, hb, v, hv, h⟩ := h
      refine .inr ⟨v, ?_, exists_expand_iff.1 ⟨f, h⟩⟩
      rw [Expr.evaluate_member hn]
      exact bind_eq_ok.2 ⟨base, hb, hv⟩
  | binary op left right =>
    obtain ⟨l, r, hl, hr, h⟩ := fragment_binary_eq_ok.1 h
    rw [Settles, ← isNull_fragment_iff hl, ← isNull_fragment_iff hr]
    exact (Fragment.exists_binary_iff.1 ⟨f, h⟩).2
  | convert operand kind =>
    obtain ⟨g, hg, h⟩ := fragment_convert_eq_ok.1 h
    intro v hv
    rw [← value_eq_some_iff hg] at hv
    rcases Fragment.convert_eq_ok.1 h with ⟨none, _⟩ | ⟨u, w, some, cast, _⟩
    · cases none.symm.trans hv
    · cases some.symm.trans hv
      exact ⟨w, cast⟩
  | call method args =>
    obtain ⟨fs, hfs, h⟩ := fragment_call_eq_ok.1 h
    rw [Settles, hfs.length_eq]
    exact Fragment.exists_call_iff.1 ⟨f, h⟩
  | parameter | not | invoke | lambda => trivial

theorem exists_fragment_of_operands (supported : ¬ t.Unsupported e) (settles : t.Settles e)
    (operands : ∀ a ∈ e.operands, ∃ f, t.fragment a = .ok f) : ∃ f, t.fragment e = .ok f := by
  cases e with
  | constant v =>
    obtain ⟨d, hd⟩ := settles
    exact ⟨_, by rw [fragment, placeholder_eq_ok]; exact ⟨d, hd, rfl⟩⟩
  | parameter => exact absurd .row supported
  | captured name v =>
    rw [fragment]
    exact exists_expand_iff.2 settles
  | member target name =>
    rcases settles with rfl | ⟨v, hv, binds⟩
    · have declared : ∃ c ∈ t.columns, c.property = name := by
        by_contra none
        exact supported (.column fun c hc same => none ⟨c, hc, same⟩)
      obtain ⟨c, hc⟩ := exists_columnOf declared
      exact ⟨_, fragment_column_eq_ok.2 ⟨c, hc, rfl⟩⟩
    · have hn : target ≠ .parameter := by
        rintro rfl
        cases hv
      obtain ⟨f, hf⟩ := exists_expand_iff.2 binds
      refine ⟨f, (fragment_member_eq_ok hn name).2 ⟨v, ?_, hf⟩⟩
      rw [Expr.carried_eq_evaluate, hv]
      rfl
  | binary op left right =>
    obtain ⟨l, hl⟩ := operands left (by simp [Expr.operands])
    obtain ⟨r, hr⟩ := operands right (by simp [Expr.operands])
    rw [Settles, ← isNull_fragment_iff hl, ← isNull_fragment_iff hr] at settles
    have known : op.token?.isSome := by
      by_contra none
      exact supported (.operator left right (by simpa using none))
    obtain ⟨f, hf⟩ := Fragment.exists_binary_iff.2 ⟨known, settles⟩
    exact ⟨f, fragment_binary_eq_ok.2 ⟨l, r, hl, hr, hf⟩⟩
  | not operand =>
    obtain ⟨g, hg⟩ := operands operand (by simp [Expr.operands])
    by_cases read : operand.isRead
    · exact ⟨_, fragment_not_eq_ok.2 ⟨g, hg, .inl ⟨read, rfl⟩⟩⟩
    · refine ⟨_, fragment_not_eq_ok.2 ⟨g, hg, .inr ⟨?_, rfl⟩⟩⟩
      by_contra call
      exact supported (.negation (by simpa using read) (by simpa using call))
  | convert operand kind =>
    obtain ⟨g, hg⟩ := operands operand (by simp [Expr.operands])
    cases hv : g.value with
    | none => exact ⟨_, fragment_convert_eq_ok.2 ⟨g, hg, Fragment.convert_eq_ok.2 (.inl ⟨hv, rfl⟩)⟩⟩
    | some v =>
      obtain ⟨w, cast⟩ := settles v ((value_eq_some_iff hg).1 hv)
      exact ⟨_, fragment_convert_eq_ok.2
        ⟨g, hg, Fragment.convert_eq_ok.2 (.inr ⟨v, w, hv, cast, rfl⟩)⟩⟩
  | call method args =>
    have each : ∀ a ∈ args, ∃ f, t.fragment a = .ok f := operands
    obtain ⟨fs, hfs⟩ := exists_forall₂ each
    rw [Settles, hfs.length_eq] at settles
    obtain ⟨f, hf⟩ := Fragment.exists_call_iff.2 settles
    exact ⟨f, fragment_call_eq_ok.2 ⟨fs, hfs, hf⟩⟩
  | invoke receiver method args =>
    obtain ⟨r, hr⟩ := operands receiver (by simp [Expr.operands])
    have each : ∀ a ∈ args, ∃ f, t.fragment a = .ok f := fun a ha =>
      operands a (by simp [Expr.operands, ha])
    obtain ⟨fs, hfs⟩ := exists_forall₂ each
    exact ⟨_, fragment_invoke_eq_ok.2 ⟨r, fs, hr, hfs, rfl⟩⟩
  | lambda arity body => exact absurd (.lambda arity body) supported

theorem exists_fragment_iff : (∃ f, t.fragment e = .ok f) ↔
    (∀ n, e.Contains n → ¬ t.Unsupported n) ∧ ∀ n ∈ e.nodes, t.Settles n := by
  constructor
  · rintro ⟨f, hf⟩
    refine ⟨fun n hn h => ?_, fun n hn => ?_⟩
    · obtain ⟨fault, he⟩ := fragment_of_unsupported hn h
      cases hf.symm.trans he
    · obtain ⟨g, hg⟩ := exists_fragment_of_mem_nodes hf hn
      exact settles_of_fragment hg
  · rintro ⟨supported, settles⟩
    induction e using Expr.operandInduction with
    | node e ih =>
      refine exists_fragment_of_operands (supported e (.self e)) (settles e e.mem_nodes_self) ?_
      intro a ha
      refine ih a ha (fun n hn => supported n ?_) fun n hn => settles n ?_
      · exact .within (Expr.mem_children_of_mem_operands ha) hn
      · exact Expr.mem_nodes.2 (.inr ⟨a, ha, hn⟩)

end TableMapping

end Tabular
