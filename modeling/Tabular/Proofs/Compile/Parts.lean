import Tabular.Proofs.Compile.Functions

namespace Tabular

namespace Expr

mutual

/-- An expression with its operands, theirs, and so on. What a member is read from is evaluated and
not written, so it is none of them. -/
def nodes : Expr → List Expr
  | .constant v => [.constant v]
  | .parameter => [.parameter]
  | .captured name v => [.captured name v]
  | .member target name => [.member target name]
  | .binary op left right => .binary op left right :: (left.nodes ++ right.nodes)
  | .not operand => .not operand :: operand.nodes
  | .convert operand kind => .convert operand kind :: operand.nodes
  | .call method args => .call method args :: nodesAll args
  | .invoke receiver method args =>
    .invoke receiver method args :: (receiver.nodes ++ nodesAll args)
  | .lambda arity body => [.lambda arity body]

def nodesAll : List Expr → List Expr
  | [] => []
  | e :: es => e.nodes ++ nodesAll es

end

theorem mem_nodesAll {es : List Expr} {n : Expr} : n ∈ nodesAll es ↔ ∃ e ∈ es, n ∈ e.nodes := by
  induction es with
  | nil => simp [nodesAll]
  | cons e es ih => simp [nodesAll, ih]

def operands : Expr → List Expr
  | .binary _ left right => [left, right]
  | .not operand | .convert operand _ => [operand]
  | .call _ args => args
  | .invoke receiver _ args => receiver :: args
  | _ => []

theorem mem_nodes {e n : Expr} : n ∈ e.nodes ↔ n = e ∨ ∃ a ∈ e.operands, n ∈ a.nodes := by
  cases e <;> simp [nodes, operands, mem_nodesAll]

theorem mem_nodes_self (e : Expr) : e ∈ e.nodes := mem_nodes.2 (.inl rfl)

theorem operandInduction {motive : Expr → Prop}
    (node : ∀ e, (∀ a ∈ e.operands, motive a) → motive e) (e : Expr) : motive e := by
  induction e using Expr.induction with
  | binary op left right ihl ihr => exact node _ (by simp [operands, ihl, ihr])
  | not operand ih => exact node _ (by simp [operands, ih])
  | convert operand kind ih => exact node _ (by simp [operands, ih])
  | call method args ih => exact node _ ih
  | invoke receiver method args ihr ih => exact node _ (by simpa [operands] using ⟨ihr, ih⟩)
  | _ => exact node _ (by simp [operands])

theorem mem_nodes_trans {e n m : Expr} (hn : n ∈ e.nodes) (hm : m ∈ n.nodes) : m ∈ e.nodes := by
  induction e using operandInduction with
  | node e ih =>
    rcases mem_nodes.1 hn with rfl | ⟨a, ha, hn⟩
    · exact hm
    · exact mem_nodes.2 (.inr ⟨a, ha, ih a ha hn⟩)

end Expr

namespace Clause

mutual

def parts : Clause → List Clause
  | .datum d => [.datum d]
  | .list ds => [.list ds]
  | .column name => [.column name]
  | .literal s => [.literal s]
  | .brackets c => .brackets c :: c.parts
  | .infixed op left right => .infixed op left right :: (left.parts ++ right.parts)
  | .anywhere part => .anywhere part :: part.parts
  | .apply function args => .apply function args :: partsAll args
  | .isFalse c => .isFalse c :: c.parts
  | .negated c => .negated c :: c.parts

def partsAll : List Clause → List Clause
  | [] => []
  | c :: cs => c.parts ++ partsAll cs

end

theorem mem_partsAll {cs : List Clause} {d : Clause} :
    d ∈ partsAll cs ↔ ∃ c ∈ cs, d ∈ c.parts := by
  induction cs with
  | nil => simp [partsAll]
  | cons c cs ih => simp [partsAll, ih]

theorem mem_parts_self (c : Clause) : c ∈ c.parts := by
  cases c <;> simp [parts]

/-- What only belongs to the way in which an operation is written. -/
def isAuxiliary : Clause → Bool
  | .literal _ | .brackets _ | .anywhere _ | .apply .. | .infixed .concat _ _ => true
  | _ => false

theorem mem_parts_call {method : String} {cs : List Clause} {d : Clause} :
    d ∈ (call method cs).parts ↔ d = call method cs ∨ ∃ c ∈ cs, d ∈ c.parts := by
  unfold call
  split
  · split
    · simp [parts]
    split
    · simp [parts, or_comm]
    · simp [parts, mem_partsAll]
  · simp [parts, mem_partsAll]

section Invoke

variable {textual : Bool} {r d : Clause} {method : String} {cs : List Clause}

theorem mem_parts_invoke (h : d ∈ (invoke textual r method cs).parts) :
    d = invoke textual r method cs ∨ d.isAuxiliary ∨ d ∈ r.parts ∨ ∃ c ∈ cs, d ∈ c.parts := by
  unfold invoke at h ⊢
  split
  · dsimp only at h
    split_ifs at h ⊢ <;> simp [lowerCase, parts, partsAll] at h ⊢ <;>
      grind [isAuxiliary]
  · dsimp only at h
    split_ifs at h ⊢ <;>
      simp [containsText, startsWith, endsWith, equals, parts, partsAll] at h ⊢ <;>
      grind [isAuxiliary]
  · simp only [parts, partsAll, mem_partsAll, List.mem_cons, List.mem_append] at h ⊢
    exact h.imp_right .inr

theorem mem_parts_invoke_of_mem (h : d ∈ r.parts ∨ ∃ c ∈ cs, d ∈ c.parts) :
    d ∈ (invoke textual r method cs).parts := by
  unfold invoke
  split
  · split <;> simp [lowerCase, parts, partsAll] <;> grind
  · split_ifs <;>
      simp only [containsText, startsWith, endsWith, equals, parts, partsAll, List.mem_cons,
        List.mem_append] <;> grind
  · simp only [parts, partsAll, mem_partsAll, List.mem_cons, List.mem_append]
    exact .inr h

end Invoke

end Clause

namespace TableMapping

variable {t : TableMapping} {e n a : Expr} {c d : Clause} {f : Fragment}

theorem exists_fragment_of_mem_operands (h : t.fragment e = .ok f) (ha : a ∈ e.operands) :
    ∃ g, t.fragment a = .ok g := by
  cases e <;> simp only [Expr.operands, List.mem_cons, List.not_mem_nil, or_false] at ha
  case binary =>
    obtain ⟨l, r, hl, hr, _⟩ := fragment_binary_eq_ok.1 h
    rcases ha with rfl | rfl
    · exact ⟨l, hl⟩
    · exact ⟨r, hr⟩
  case not =>
    obtain ⟨g, hg, _⟩ := fragment_not_eq_ok.1 h
    exact ⟨g, ha ▸ hg⟩
  case convert =>
    obtain ⟨g, hg, _⟩ := fragment_convert_eq_ok.1 h
    exact ⟨g, ha ▸ hg⟩
  case call =>
    obtain ⟨fs, hfs, _⟩ := fragment_call_eq_ok.1 h
    obtain ⟨g, _, hg⟩ := exists_of_forall₂ hfs.flip ha
    exact ⟨g, hg⟩
  case invoke =>
    obtain ⟨r, fs, hr, hfs, _⟩ := fragment_invoke_eq_ok.1 h
    rcases ha with rfl | ha
    · exact ⟨r, hr⟩
    · obtain ⟨g, _, hg⟩ := exists_of_forall₂ hfs.flip ha
      exact ⟨g, hg⟩

theorem exists_fragment_of_mem_nodes (h : t.fragment e = .ok f) (hn : n ∈ e.nodes) :
    ∃ g, t.fragment n = .ok g := by
  induction e using Expr.operandInduction generalizing f with
  | node e ih =>
    rcases Expr.mem_nodes.1 hn with rfl | ⟨a, ha, hn⟩
    · exact ⟨f, h⟩
    · obtain ⟨g, hg⟩ := exists_fragment_of_mem_operands h ha
      exact ih a ha hg hn

theorem nullTest_eq_some {op : BinaryOp} {other null : Clause} :
    Clause.nullTest op other null = some c ↔
      (op = .eq ∧ c = .infixed .is other null) ∨ (op = .ne ∧ c = .infixed .isNot other null) := by
  cases op <;> simp [Clause.nullTest, eq_comm]

theorem clause_binary {op : BinaryOp} {left right : Expr}
    (h : t.clause (.binary op left right) = some c) : ∃ l r o, t.clause left = some l ∧
      t.clause right = some r ∧ (c = .infixed o l r ∨ c = .infixed o r l) ∧
      (o = .is ∨ o = .isNot ∨ op.operator? = some o) := by
  obtain ⟨l, r, hl, hr, ⟨_, h⟩ | ⟨_, _, h⟩ | ⟨_, _, o, ho, rfl⟩⟩ := clause_binary_eq_some.1 h
  · rcases nullTest_eq_some.1 h with ⟨_, rfl⟩ | ⟨_, rfl⟩
    · exact ⟨l, r, .is, hl, hr, .inr rfl, .inl rfl⟩
    · exact ⟨l, r, .isNot, hl, hr, .inr rfl, .inr (.inl rfl)⟩
  · rcases nullTest_eq_some.1 h with ⟨_, rfl⟩ | ⟨_, rfl⟩
    · exact ⟨l, r, .is, hl, hr, .inl rfl, .inl rfl⟩
    · exact ⟨l, r, .isNot, hl, hr, .inl rfl, .inr (.inl rfl)⟩
  · exact ⟨l, r, o, hl, hr, .inl rfl, .inr (.inr ho)⟩

theorem clause_of_mem_operands (h : t.clause e = some c) (ha : a ∈ e.operands) :
    ∃ b, t.clause a = some b ∧ ∀ d ∈ b.parts, d ∈ c.parts := by
  cases e <;> simp only [Expr.operands, List.mem_cons, List.not_mem_nil, or_false] at ha
  case binary op left right =>
    obtain ⟨l, r, o, hl, hr, rfl | rfl, _⟩ := clause_binary h <;> rcases ha with rfl | rfl
    · exact ⟨l, hl, fun d hd => by simp [Clause.parts, hd]⟩
    · exact ⟨r, hr, fun d hd => by simp [Clause.parts, hd]⟩
    · exact ⟨l, hl, fun d hd => by simp [Clause.parts, hd]⟩
    · exact ⟨r, hr, fun d hd => by simp [Clause.parts, hd]⟩
  case not operand =>
    obtain ⟨b, hb, ⟨_, rfl⟩ | ⟨_, rfl⟩⟩ := clause_not_eq_some.1 h
    · exact ⟨b, ha ▸ hb, fun d hd => by simp [Clause.parts, hd]⟩
    · exact ⟨b, ha ▸ hb, fun d hd => by simp [Clause.parts, hd]⟩
  case convert operand kind =>
    rw [clause, ← ha] at h
    exact ⟨c, h, fun d hd => hd⟩
  case call method args =>
    obtain ⟨cs, hcs, rfl⟩ := clause_call_eq_some.1 h
    obtain ⟨b, hb, hc⟩ := exists_of_forall₂ hcs.flip ha
    exact ⟨b, hc, fun d hd => Clause.mem_parts_call.2 (.inr ⟨b, hb, hd⟩)⟩
  case invoke receiver method args =>
    obtain ⟨r, cs, hr, hcs, rfl⟩ := clause_invoke_eq_some.1 h
    rcases ha with rfl | ha
    · exact ⟨r, hr, fun d hd => Clause.mem_parts_invoke_of_mem (.inl hd)⟩
    · obtain ⟨b, hb, hc⟩ := exists_of_forall₂ hcs.flip ha
      exact ⟨b, hc, fun d hd => Clause.mem_parts_invoke_of_mem (.inr ⟨b, hb, hd⟩)⟩

theorem clause_of_mem_nodes (h : t.clause e = some c) (hn : n ∈ e.nodes) :
    ∃ d ∈ c.parts, t.clause n = some d := by
  induction e using Expr.operandInduction generalizing c with
  | node e ih =>
    rcases Expr.mem_nodes.1 hn with rfl | ⟨a, ha, hn⟩
    · exact ⟨c, c.mem_parts_self, h⟩
    · obtain ⟨b, hb, parts⟩ := clause_of_mem_operands h ha
      obtain ⟨d, hd, hc⟩ := ih a ha hb hn
      exact ⟨d, parts d hd, hc⟩

theorem mem_parts_cases (h : t.clause e = some c) (hd : d ∈ c.parts) :
    d = c ∨ d.isAuxiliary ∨ ∃ a ∈ e.operands, ∃ b, t.clause a = some b ∧ d ∈ b.parts := by
  have alone (hc : c.parts = [c]) : d = c := by simpa [hc] using hd
  have read (he : e.isRead) : c.parts = [c] := by
    rcases read_cases he h with ⟨name, rfl⟩ | ⟨x, rfl⟩ | ⟨ds, rfl⟩ <;> rfl
  cases e with
  | constant v =>
    obtain ⟨x, _, rfl⟩ := clause_constant_eq_some.1 h
    exact .inl (alone rfl)
  | captured | member => exact .inl (alone (read rfl))
  | parameter | lambda => simp [clause] at h
  | binary op left right =>
    obtain ⟨l, r, o, hl, hr, rfl | rfl, _⟩ := clause_binary h <;>
      simp only [Clause.parts, List.mem_cons, List.mem_append] at hd <;>
      rcases hd with rfl | hd | hd
    · exact .inl rfl
    · exact .inr (.inr ⟨left, by simp [Expr.operands], l, hl, hd⟩)
    · exact .inr (.inr ⟨right, by simp [Expr.operands], r, hr, hd⟩)
    · exact .inl rfl
    · exact .inr (.inr ⟨right, by simp [Expr.operands], r, hr, hd⟩)
    · exact .inr (.inr ⟨left, by simp [Expr.operands], l, hl, hd⟩)
  | not operand =>
    obtain ⟨b, hb, ⟨_, rfl⟩ | ⟨_, rfl⟩⟩ := clause_not_eq_some.1 h <;>
      rcases List.mem_cons.1 hd with rfl | hd
    · exact .inl rfl
    · exact .inr (.inr ⟨operand, by simp [Expr.operands], b, hb, hd⟩)
    · exact .inl rfl
    · exact .inr (.inr ⟨operand, by simp [Expr.operands], b, hb, hd⟩)
  | convert operand kind =>
    rw [clause] at h
    exact .inr (.inr ⟨operand, by simp [Expr.operands], c, h, hd⟩)
  | call method args =>
    obtain ⟨cs, hcs, rfl⟩ := clause_call_eq_some.1 h
    rcases Clause.mem_parts_call.1 hd with rfl | ⟨b, hb, hd⟩
    · exact .inl rfl
    · obtain ⟨a, ha, hc⟩ := exists_of_forall₂ hcs hb
      exact .inr (.inr ⟨a, ha, b, hc, hd⟩)
  | invoke receiver method args =>
    obtain ⟨r, cs, hr, hcs, rfl⟩ := clause_invoke_eq_some.1 h
    rcases Clause.mem_parts_invoke hd with rfl | aux | hd | ⟨b, hb, hd⟩
    · exact .inl rfl
    · exact .inr (.inl aux)
    · exact .inr (.inr ⟨receiver, by simp [Expr.operands], r, hr, hd⟩)
    · obtain ⟨a, ha, hc⟩ := exists_of_forall₂ hcs hb
      exact .inr (.inr ⟨a, by simp [Expr.operands, ha], b, hc, hd⟩)

theorem node_of_mem_parts (h : t.clause e = some c) (hd : d ∈ c.parts) :
    d.isAuxiliary ∨ ∃ n ∈ e.nodes, t.clause n = some d := by
  induction e using Expr.operandInduction generalizing c with
  | node e ih =>
    rcases mem_parts_cases h hd with rfl | haux | ⟨a, ha, b, hb, hd⟩
    · exact .inr ⟨e, e.mem_nodes_self, h⟩
    · exact .inl haux
    · refine (ih a ha hb hd).imp_right fun ⟨n, hn, hc⟩ => ⟨n, ?_, hc⟩
      exact Expr.mem_nodes.2 (.inr ⟨a, ha, hn⟩)

end TableMapping

end Tabular
