import Tabular.Proofs.Compile.Balancing
import Tabular.Proofs.Compile.Chaining

/-! Operations on two expressions. What is written in brackets stays whole beside any operator. The
comparison with zero that negates a member has no brackets, so that an operator beside it may take
one side of the comparison alone. -/

namespace Tabular

open Sql (Operand Operator Token isFunctionName isPlainName)

/-- How an operation is written with its two operands. -/
inductive Setting
  | infixed (op : Operator)
  | equals
  | startsWith
  | endsWith
  | containsText
  | apply (function : String)
  | swapped (s : Setting)

namespace Setting

def fragment : Setting → Fragment → Fragment → Fragment
  | .infixed op, l, r => l.infixed op.text r
  | .equals, l, r => l.equals r
  | .startsWith, l, r => l.startsWith r
  | .endsWith, l, r => l.endsWith r
  | .containsText, l, r => l.containsText r
  | .apply function, l, r => Fragment.apply function [l, r]
  | .swapped s, l, r => s.fragment r l

def tree : Setting → Tree → Tree → Tree
  | .infixed op, L, R => .binary op L R
  | .equals, L, R => .binary .eq L R
  | .startsWith, L, R => .binary .like L (.binary .concat R (.literal "%"))
  | .endsWith, L, R => .binary .like L (.binary .concat (.literal "%") R)
  | .containsText, L, R =>
    .binary .like L (.binary .concat (.binary .concat (.literal "%") R) (.literal "%"))
  | .apply function, L, R => .apply function [L, R]
  | .swapped s, L, R => s.tree R L

def keeps : Setting → Bool → Bool → Bool
  | .infixed op, l, r =>
    (!l || decide (op.level ≤ Operator.eq.level)) && (!r || decide (op.level < Operator.eq.level))
  | .equals, _, _ | .apply _, _, _ => true
  | .startsWith, _, r | .endsWith, _, r | .containsText, _, r => !r
  | .swapped s, l, r => s.keeps r l

/-- What the text of the operation is read as. -/
def read : Setting → Chain → Chain → Tree
  | .infixed op, c, d => (c.join op d).value
  | .equals, c, d => (c.join .eq (.single d.value)).value
  | .startsWith, c, d =>
    (c.join .like (.single (d.join .concat (.single (.literal "%"))).value)).value
  | .endsWith, c, d =>
    (c.join .like (.single ((Chain.single (.literal "%")).join .concat d).value)).value
  | .containsText, c, d =>
    (c.join .like (.single ((Chain.single (.literal "%")).join .concat
      (d.join .concat (.single (.literal "%")))).value)).value
  | .apply function, c, d => .apply function [c.value, d.value]
  | .swapped s, c, d => s.read d c

def CallsOnly (p : String → Prop) : Setting → Prop
  | .apply function => p function
  | .swapped s => s.CallsOnly p
  | _ => True

end Setting

namespace Chain

inductive IsOperand : Bool → Chain → Prop
  | alone (T : Tree) : IsOperand false (.single T)
  | test (T : Tree) : IsOperand true ((single T).join .eq (.single (.number 0)))

end Chain

namespace Setting

variable {c d : Chain} {l r : Fragment}

theorem read_eq_iff {left right : Bool} (s : Setting) (hc : c.IsOperand left)
    (hd : d.IsOperand right) : s.read c d = s.tree c.value d.value ↔ s.keeps left right := by
  induction s generalizing c d left right with
  | swapped s ih => exact ih hd hc
  | infixed op =>
    cases hc <;> cases hd <;> cases op <;>
      simp [read, tree, keeps, Chain.value, Chain.join, Chain.single, Tree.shunt, Tree.settle,
        Operator.level]
  | _ =>
    cases hc <;> cases hd <;>
      simp [read, tree, keeps, Chain.value, Chain.join, Chain.single, Tree.shunt, Tree.settle,
        Operator.level]

theorem written (s : Setting) (hp : s.CallsOnly fun f => isPlainName f ∧ f ≠ "not")
    (hc : c.Written l.sql.toList l.args) (hd : d.Written r.sql.toList r.args) :
    (Chain.single (s.read c d)).Written (s.fragment l r).sql.toList (s.fragment l r).args := by
  have percent := Chain.written_literal "%"
  have quoted : (quoteLiteral "%").toList = "'%'".toList := by decide
  rw [quoted] at percent
  induction s generalizing c d l r with
  | swapped s ih => exact ih hp hd hc
  | infixed op => simpa [fragment, Fragment.infixed, read] using (hc.join hd op).brackets
  | equals =>
    have whole := (hc.join hd.brackets .eq).brackets
    simpa [fragment, Fragment.equals, read, Operator.text] using whole
  | startsWith =>
    have whole := (hc.join (hd.join percent .concat).brackets .like).brackets
    simpa [fragment, Fragment.startsWith, read, Operator.text] using whole
  | endsWith =>
    have whole := (hc.join (percent.join hd .concat).brackets .like).brackets
    simpa [fragment, Fragment.endsWith, read, Operator.text] using whole
  | containsText =>
    have pattern := (percent.join (hd.join percent .concat) .concat).brackets
    have whole := (hc.join pattern .like).brackets
    simpa [fragment, Fragment.containsText, read, Operator.text] using whole
  | apply function =>
    have whole := hc.apply hd hp.1 hp.2
    simpa [fragment, Fragment.apply, read, String.toList_intercalate] using whole

end Setting

inductive Dyad
  | binary (op : BinaryOp)
  | invoke (method : String)
  | call (method : String)

namespace Dyad

def expr : Dyad → Expr → Expr → Expr
  | .binary op, x, y => .binary op x y
  | .invoke method, x, y => .invoke x method [y]
  | .call method, x, y => .call method [x, y]

def methods : Dyad → List String
  | .binary _ => []
  | .invoke method | .call method => [method]

def nullTest? : BinaryOp → Option Setting
  | .eq => some (.infixed .is)
  | .ne => some (.infixed .isNot)
  | _ => none

def setting? (t : TableMapping) : Dyad → Expr → Expr → Option Setting
  | .binary op, x, y =>
    if x.isNull then (nullTest? op).map .swapped
    else if y.isNull then nullTest? op
    else op.operator?.map .infixed
  | .invoke method, x, _ => some (
    if method = "contains" then
      if t.isTextual x then .containsText else .swapped (.infixed .isIn)
    else if method = "starts_with" then .startsWith
    else if method = "ends_with" then .endsWith
    else if method = "equals" then .equals
    else .apply (Text.lower method))
  | .call method, _, _ => some (
    if method = "like" then .infixed .like
    else if method = "contains" then .swapped (.infixed .isIn)
    else .apply (Text.lower method))

variable {t : TableMapping} {o : Dyad} {x y : Expr} {l r : Fragment} {s : Setting}

theorem nullTest?_callsOnly {op : BinaryOp} (h : nullTest? op = some s) (p : String → Prop) :
    s.CallsOnly p := by
  cases op <;> cases h <;> trivial

theorem setting?_callsOnly (h : o.setting? t x y = some s) {p : String → Prop}
    (hp : ∀ m ∈ o.methods, p (Text.lower m)) : s.CallsOnly p := by
  cases o with
  | binary op =>
    simp only [setting?] at h
    split_ifs at h
    · obtain ⟨s, hs, rfl⟩ := Option.map_eq_some_iff.1 h
      exact nullTest?_callsOnly hs p
    · exact nullTest?_callsOnly h p
    · obtain ⟨o, _, rfl⟩ := Option.map_eq_some_iff.1 h
      trivial
  | invoke method | call method =>
    have named : p (Text.lower method) := hp method (by simp [methods])
    cases h
    split_ifs <;> first | exact trivial | exact named

theorem nullTest_fragment {e : Expr} {op : BinaryOp} {other null : Fragment}
    (h : nullTest? op = some s) (hn : null.sql = "?") :
    Fragment.nullTest e op other null = .ok (s.fragment other null) := by
  cases op <;> cases h <;>
    simp [Fragment.nullTest, Setting.fragment, Fragment.infixed, hn, Operator.text,
      String.append_assoc]

theorem binary_fragment {e : Expr} {op : BinaryOp} (hx : t.fragment x = .ok l)
    (hy : t.fragment y = .ok r) (h : setting? t (.binary op) x y = some s) :
    Fragment.binary e op l r = .ok (s.fragment l r) := by
  have carries_x := TableMapping.fragment_carries hx
  have carries_y := TableMapping.fragment_carries hy
  have nx : l.isNull = x.isNull := carries_x.isNull_eq
  have ny : r.isNull = y.isNull := carries_y.isNull_eq
  rw [Fragment.binary, nx, ny]
  rw [setting?] at h
  split at h
  · next hn =>
    rw [if_pos hn]
    obtain ⟨s, hs, rfl⟩ := Option.map_eq_some_iff.1 h
    exact nullTest_fragment hs (carries_x.sql_of_null hn)
  next hn =>
  rw [if_neg hn]
  split at h
  · next hm =>
    rw [if_pos hm]
    exact nullTest_fragment h (carries_y.sql_of_null hm)
  · next hm =>
    rw [if_neg hm]
    obtain ⟨o, ho, rfl⟩ := Option.map_eq_some_iff.1 h
    rw [BinaryOp.token?_eq, ho]
    rfl

theorem operands_of_fragment {f : Fragment} (h : t.fragment (o.expr x y) = .ok f) :
    ∃ l r, t.fragment x = .ok l ∧ t.fragment y = .ok r := by
  cases o with
  | binary op =>
    obtain ⟨l, r, hl, hr, _⟩ := TableMapping.fragment_binary_eq_ok.1 h
    exact ⟨l, r, hl, hr⟩
  | invoke method =>
    obtain ⟨l, _, hl, _ | ⟨hr, _⟩, _⟩ := TableMapping.fragment_invoke_eq_ok.1 h
    exact ⟨l, _, hl, hr⟩
  | call method =>
    obtain ⟨_, _ | ⟨hl, _ | ⟨hr, _⟩⟩, _⟩ := TableMapping.fragment_call_eq_ok.1 h
    exact ⟨_, _, hl, hr⟩

theorem fragment_expr (hx : t.fragment x = .ok l) (hy : t.fragment y = .ok r)
    (h : o.setting? t x y = some s) : t.fragment (o.expr x y) = .ok (s.fragment l r) := by
  cases o with
  | binary op =>
    exact TableMapping.fragment_binary_eq_ok.2 ⟨l, r, hx, hy, binary_fragment hx hy h⟩
  | invoke method =>
    have textual : l.textual = t.isTextual x := (TableMapping.fragment_carries hx).textual_eq
    have written : l.invoke method [r] = s.fragment l r := by
      cases h
      rw [Fragment.invoke, textual]
      split_ifs <;> rfl
    exact TableMapping.fragment_invoke_eq_ok.2 ⟨l, [r], hx, .cons hy .nil, written.symm⟩
  | call method =>
    have written (e : Expr) : Fragment.call e method [l, r] = .ok (s.fragment l r) := by
      cases h
      rw [Fragment.call]
      split_ifs <;> rfl
    exact TableMapping.fragment_call_eq_ok.2 ⟨[l, r], .cons hx (.cons hy .nil), written _⟩

end Dyad

namespace TableMapping

variable {t : TableMapping} {o : Dyad} {m e x y : Expr} {f l r : Fragment} {T : Tree}
  {c d : Chain} {s : Setting}

theorem written_isFalse {a : Clause} (hr : m.isRead) (ha : t.clause m = some a)
    (hp : (Clause.isFalse a).Prints f) :
    ((Chain.single a.tree).join .eq (.single (.number 0))).Written f.sql.toList f.args := by
  have grouped : a.Grouped := (read_tight hr ha).1
  have calls (p : String → Prop) : a.CallsOnly p := by
    rcases read_cases hr ha with ⟨name, rfl⟩ | ⟨x, rfl⟩ | ⟨ds, rfl⟩ <;> trivial
  obtain ⟨ks, hk, operand⟩ := Clause.operand_write (calls _) (calls _) (read_isOperand hr ha)
  cases hk.symm.trans (Clause.read?_write (calls _) grouped)
  have spells := Chain.spells_operand operand (Clause.parse_tokens (calls _) grouped)
  have tree : (a.term 0).tree a.write.args = a.tree := by
    simpa using Clause.tree_term a grouped [] []
  have member : (Chain.single a.tree).Written a.write.text a.write.args := ⟨_, hk, tree ▸ spells⟩
  simpa [hp.text, hp.args, Operator.text] using member.join Chain.written_zero .eq

theorem fragment_written (hm : ∀ m ∈ e.methods, isFunctionName m) (hf : t.fragment e = .ok f)
    (hT : f.tree? = some T) :
    ∃ c : Chain, c.IsOperand e.isTest ∧ c.Written f.sql.toList f.args ∧ c.value = T := by
  obtain ⟨a, ha, prints⟩ := fragment_prints hf
  cases he : e.isTest with
  | false =>
    have plain : a.CallsOnly fun f => isPlainName f :=
      clause_callsOnly (by decide) (fun m h => (Sql.isFunctionName_lower (hm m h)).1) ha
    have named : a.CallsOnly fun f => f ≠ "not" :=
      clause_callsOnly (by decide) (fun m h => (Sql.isFunctionName_lower (hm m h)).2) ha
    obtain ⟨ks, hk, operand⟩ := Clause.operand_write plain named (clause_isOperand he ha)
    obtain ⟨_, term, hk', hterm, rfl⟩ := Fragment.tree?_eq_some.1 hT
    rw [← prints.text] at hk
    rw [← prints.args] at operand
    cases hk.symm.trans hk'
    exact ⟨_, .alone _, ⟨ks, hk, Chain.spells_operand operand hterm⟩, rfl⟩
  | true =>
    obtain ⟨m, a, hr, hm, rfl⟩ := clause_isFalse he ha
    have test := written_isFalse hr hm prints
    exact ⟨_, .test _, test, Option.some.inj (test.tree?.symm.trans hT)⟩

theorem operation_reads (hs : o.setting? t x y = some s) (hn : ∀ n ∈ o.methods, isFunctionName n)
    (hx : t.fragment x = .ok l) (hy : t.fragment y = .ok r) (left : c.IsOperand x.isTest)
    (right : d.IsOperand y.isTest) (hc : c.Written l.sql.toList l.args)
    (hd : d.Written r.sql.toList r.args) :
    ∃ f tree, t.fragment (o.expr x y) = .ok f ∧ f.tree? = some tree ∧
      (tree = s.tree c.value d.value ↔ s.keeps x.isTest y.isTest) := by
  have named := Dyad.setting?_callsOnly (p := fun f => isPlainName f ∧ f ≠ "not") hs
    fun n h => Sql.isFunctionName_lower (hn n h)
  exact ⟨_, _, Dyad.fragment_expr hx hy hs, (s.written named hc hd).tree?,
    s.read_eq_iff left right⟩

theorem negated_operand (t : TableMapping) (o : Dyad) (m e : Expr) (k g : Fragment)
    (other : Tree) (hr : m.isRead) (hk : t.fragment m = .ok k) (hg : t.fragment e = .ok g)
    (ho : g.tree? = some other) (hn : ∀ n ∈ o.methods ++ e.methods, isFunctionName n) :
    ∃ T, t.operatorTree m = some T ∧
      (∀ s, o.setting? t (.not m) e = some s → ∃ f tree,
        t.fragment (o.expr (.not m) e) = .ok f ∧ f.tree? = some tree ∧
        (tree = s.tree (.binary .eq T (.number 0)) other ↔ s.keeps true e.isTest)) ∧
      (∀ s, o.setting? t e (.not m) = some s → ∃ f tree,
        t.fragment (o.expr e (.not m)) = .ok f ∧ f.tree? = some tree ∧
        (tree = s.tree other (.binary .eq T (.number 0)) ↔ s.keeps e.isTest true)) := by
  rw [List.forall_mem_append] at hn
  have negated : t.fragment (.not m) = .ok k.isFalse := by
    rw [fragment, hk]
    exact Fragment.negate_eq_ok.2 (.inl ⟨hr, rfl⟩)
  obtain ⟨a, ha, prints⟩ := fragment_prints hk
  have test := written_isFalse hr ha prints.isFalse
  have isTest : (Expr.not m).isTest = true := hr
  have zero : Chain.IsOperand (Expr.not m).isTest
      ((Chain.single a.tree).join .eq (.single (.number 0))) := by
    rw [isTest]
    exact .test a.tree
  obtain ⟨c, operand, written, rfl⟩ := fragment_written hn.2 hg ho
  refine ⟨a.tree, by rw [operatorTree, ha]; rfl, fun s hs => ?_, fun s hs => ?_⟩
  · exact isTest ▸ operation_reads hs hn.1 negated hg zero operand test written
  · exact isTest ▸ operation_reads hs hn.1 hg negated operand zero written test

theorem negated_operand_notes :
    let m : Expr := .field "Id"
    let e : Expr := .not (.invoke (.field "Title") "starts_with" [.captured "s" (.text "a")])
    let o : Dyad := .binary .eq
    let test := Tree.binary .eq (.column "id") (.number 0)
    let other := Tree.binary .notLike (.column "title")
      (.binary .concat (.argument (some (.text "a"))) (.literal "%"))
    m.isRead ∧ (∀ n ∈ o.methods ++ e.methods, isFunctionName n) ∧
      ∃ k g, notes.fragment m = .ok k ∧ notes.fragment e = .ok g ∧ g.tree? = some other ∧
        (∃ f, notes.fragment (.binary .eq (.not m) e) = .ok f ∧
          f.tree? = some (.binary .eq test other)) ∧
        ∃ f, notes.fragment (.binary .eq e (.not m)) = .ok f ∧
          f.tree? ≠ some (.binary .eq other test) := by
  intro m e o test other
  have hn : ∀ n ∈ o.methods ++ e.methods, isFunctionName n := by decide
  obtain ⟨k, hk⟩ : ∃ k, notes.fragment m = .ok k := ⟨_, rfl⟩
  obtain ⟨g, hg⟩ : ∃ g, notes.fragment e = .ok g := ⟨_, rfl⟩
  have ho : g.tree? = some other := by
    cases hg
    rfl
  obtain ⟨T, hT, first, last⟩ := negated_operand notes o m e k g other rfl hk hg ho hn
  cases hT
  obtain ⟨f, tree, hf, htree, whole⟩ := first (.infixed .eq) rfl
  obtain ⟨f', tree', hf', htree', whole'⟩ := last (.infixed .eq) rfl
  refine ⟨rfl, hn, k, g, hk, hg, ho, ⟨f, hf, ?_⟩, f', hf', fun h => ?_⟩
  · rw [htree, whole.2 rfl]
    rfl
  · exact absurd (whole'.1 (Option.some.inj (htree'.symm.trans h))) (by decide)

theorem negated_operand_regrouped :
    let e : Expr := .binary .bitAnd (.not (.field "Id")) (.field "Title")
    let whole := Tree.binary .bitAnd (.binary .eq (.column "id") (.number 0)) (.column "title")
    ∃ f, notes.fragment e = .ok f ∧ f.tree? ≠ some whole ∧ f.tree? =
      some (.binary .eq (.column "id") (.binary .bitAnd (.number 0) (.column "title"))) := by
  intro e whole
  obtain ⟨f, hf⟩ : ∃ f, notes.fragment e = .ok f := ⟨_, rfl⟩
  have read : f.tree? =
      some (.binary .eq (.column "id") (.binary .bitAnd (.number 0) (.column "title"))) := by
    cases hf
    rfl
  exact ⟨f, hf, by simp [read, whole], read⟩

end TableMapping

end Tabular
