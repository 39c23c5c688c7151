import Tabular.Proofs.Compile.Parts
import Tabular.Proofs.Compile.Placeholders

namespace Tabular

open Marked (ofString)

/-- What a reader of the text has passed last. Of all operators only those that test for null end
with `s` or `t`. -/
inductive Passed
  | other
  | letter
  | word
  deriving DecidableEq

namespace Passed

def next : Passed → Char → Passed
  | .letter, ' ' => .word
  | _, c => if c = 's' ∨ c = 't' then .letter else .other

def behind (q : Passed) (ms : Marked) : Passed := ms.foldl (fun q m => q.next m.written) q

theorem behind_append (q : Passed) (ms ns : Marked) :
    q.behind (ms ++ ns) = (q.behind ms).behind ns :=
  List.foldl_append

theorem behind_bracket (q : Passed) : q.behind (ofString "(") = .other := by
  cases q <;> decide

theorem behind_comma (q : Passed) : q.behind (ofString ",") = .other := by
  cases q <;> decide

theorem behind_operator (q : Passed) (op : Sql.Operator) :
    q.behind (ofString (" " ++ op.text ++ " ")) = .word ↔ op = .is ∨ op = .isNot := by
  cases op <;> cases q <;> decide

end Passed

namespace Marked

def TestsNulls : Passed → Marked → Prop
  | _, [] => True
  | q, .char c :: ms => TestsNulls (q.next c) ms
  | q, .datum d :: ms => (q = .word → d = .null) ∧ TestsNulls .other ms

theorem testsNulls_append {q : Passed} {ms ns : Marked} :
    TestsNulls q (ms ++ ns) ↔ TestsNulls q ms ∧ TestsNulls (q.behind ms) ns := by
  induction ms generalizing q with
  | nil => simp [TestsNulls, Passed.behind]
  | cons m ms ih =>
    cases m with
    | char c => exact ih
    | datum d =>
      have rest : q.behind (.datum d :: ms) = Passed.behind .other ms := by cases q <;> rfl
      rw [List.cons_append, TestsNulls, TestsNulls, ih, rest, and_assoc]

theorem testsNulls_ofString (q : Passed) (s : String) : TestsNulls q (ofString s) := by
  rw [ofString]
  induction s.toList generalizing q with
  | nil => trivial
  | cons c s ih => exact ih (q.next c)

theorem TestsNulls.negated {q : Passed} {ms : Marked} (h : TestsNulls q ms) :
    TestsNulls q (Marked.negated ms) := by
  have passed : ∀ n ∈ Fragment.negations, ∀ q : Passed,
      q.behind (ofString n.1) = .other ∧ q.behind (ofString n.2) = .other := by
    intro n hn q
    simp only [Fragment.negations, List.mem_cons, List.not_mem_nil, or_false] at hn
    rcases hn with rfl | rfl | rfl <;> cases q <;> decide
  rcases negated_cases ms with he | ⟨n, hn, replaced⟩
  · rwa [he]
  · generalize Marked.negated ms = ns at replaced ⊢
    induction replaced generalizing q with
    | nil => trivial
    | keep m _ ih =>
      cases m with
      | char c => exact ih h
      | datum d => exact ⟨h.1, ih h.2⟩
    | swap _ ih =>
      obtain ⟨hop, hnew⟩ := passed n hn q
      rw [testsNulls_append, hop] at h
      rw [testsNulls_append, hnew]
      exact ⟨testsNulls_ofString q n.2, ih h.2⟩

theorem TestsNulls.eq_null {ms front back : Marked} {d : Datum} (h : TestsNulls .other ms)
    (hms : ms = front ++ .datum d :: back)
    (test : ofString " is " <:+ front ∨ ofString " is not " <:+ front) : d = .null := by
  have word : Passed.behind .other front = .word := by
    rcases test with ⟨before, rfl⟩ | ⟨before, rfl⟩ <;> rw [Passed.behind_append]
    · exact (Passed.behind_operator _ .is).2 (.inl rfl)
    · exact (Passed.behind_operator _ .isNot).2 (.inr rfl)
  rw [hms, testsNulls_append] at h
  exact h.2.1 word

end Marked

namespace Clause

def TestsNulls (c : Clause) : Prop :=
  ∀ o left right, .infixed o left right ∈ c.parts → o = .is ∨ o = .isNot → right = .datum .null

theorem TestsNulls.of_parts {c d : Clause} (h : c.TestsNulls) (hd : ∀ p ∈ d.parts, p ∈ c.parts) :
    d.TestsNulls :=
  fun o left right hp => h o left right (hd _ hp)

theorem testsNulls_separated {texts : List Marked}
    (h : ∀ ms ∈ texts, Marked.TestsNulls .other ms) :
    Marked.TestsNulls .other (separated texts) := by
  induction texts with
  | nil => trivial
  | cons a texts ih =>
    have ha := h a (by simp)
    cases texts with
    | nil => simpa [separated] using ha
    | cons b texts =>
      have rest : Marked.TestsNulls .other (separated (b :: texts)) :=
        ih fun ms hms => h ms (by simp [hms])
      have split : separated (a :: b :: texts) = (a ++ ofString ",") ++ separated (b :: texts) := by
        simp [separated]
      rw [split, Marked.testsNulls_append, Marked.testsNulls_append, Passed.behind_append,
        Passed.behind_comma]
      exact ⟨⟨ha, Marked.testsNulls_ofString _ _⟩, rest⟩

theorem testsNulls_write {c : Clause} (h : c.TestsNulls) {q : Passed}
    (hq : q = .word → c = .datum .null) : Marked.TestsNulls q c.write := by
  have plain (q : Passed) (s : String) : Marked.TestsNulls q (ofString s) :=
    Marked.testsNulls_ofString q s
  have bracketed {ms : Marked} (q : Passed) (hms : Marked.TestsNulls .other ms) :
      Marked.TestsNulls q (ofString "(" ++ ms ++ ofString ")") := by
    rw [Marked.testsNulls_append, Marked.testsNulls_append, Passed.behind_bracket]
    exact ⟨⟨plain _ _, hms⟩, plain _ _⟩
  have inside {c : Clause} (hw : Passed.other = .word) : c = .datum .null :=
    absurd hw (by decide)
  induction c using Clause.induction generalizing q with
  | datum d => exact ⟨fun hw => Clause.datum.inj (hq hw), trivial⟩
  | list ds =>
    refine bracketed q (testsNulls_separated fun ms hms => ?_)
    obtain ⟨d, _, rfl⟩ := List.mem_map.1 hms
    exact ⟨fun hw => absurd hw (by decide), trivial⟩
  | column name => exact plain q _
  | literal s => exact plain q _
  | brackets c ih => exact bracketed q (ih (h.of_parts fun p hp => by simp [parts, hp]) inside)
  | infixed op left right ihl ihr =>
    have hl := ihl (h.of_parts fun p hp => by simp [parts, hp]) inside
    have hr (q : Passed) (hq : q = .word → op = .is ∨ op = .isNot) :
        Marked.TestsNulls q right.write :=
      ihr (h.of_parts fun p hp => by simp [parts, hp])
        fun hw => h op left right (mem_parts_self _) (hq hw)
    simp only [write, Marked.testsNulls_append, Passed.behind_append, Passed.behind_bracket]
    exact ⟨⟨⟨⟨plain _ _, hl⟩, plain _ _⟩, hr _ (Passed.behind_operator _ op).1⟩, plain _ _⟩
  | anywhere part ih =>
    have front : q.behind (ofString "('%' || ") = .other := by cases q <;> decide
    have hp := ih (h.of_parts fun p hp => by simp [parts, hp]) inside
    simp only [write, Marked.testsNulls_append, front]
    exact ⟨⟨plain _ _, hp⟩, plain _ _⟩
  | apply function args ih =>
    have items : Marked.TestsNulls .other (separated (writeAll args)) := by
      refine testsNulls_separated fun ms hms => ?_
      rw [writeAll_eq_map] at hms
      obtain ⟨a, ha, rfl⟩ := List.mem_map.1 hms
      refine ih a ha (h.of_parts fun p hp => ?_) inside
      exact List.mem_cons_of_mem _ (mem_partsAll.2 ⟨a, ha, hp⟩)
    rw [write, List.append_assoc, List.append_assoc, Marked.testsNulls_append, ← List.append_assoc]
    exact ⟨plain _ _, bracketed _ items⟩
  | isFalse c ih =>
    have hc := ih (h.of_parts fun p hp => by simp [parts, hp])
      fun hw => absurd (hq hw) (by simp)
    rw [write, Marked.testsNulls_append]
    exact ⟨hc, plain _ _⟩
  | negated c ih =>
    have hc := ih (h.of_parts fun p hp => by simp [parts, hp])
      fun hw => absurd (hq hw) (by simp)
    exact hc.negated

theorem TestsNulls.write {c : Clause} (h : c.TestsNulls) : Marked.TestsNulls .other c.write :=
  testsNulls_write h fun hw => absurd hw (by decide)

end Clause

namespace TableMapping

variable {t : TableMapping} {e l r z : Expr} {c d : Clause} {f g : Fragment} {op : BinaryOp}

theorem isNull_iff : z.isNull ↔ z.evaluate = .ok .null := by
  rw [Expr.isNull, Expr.carried_eq_evaluate]
  rcases z.evaluate with fault | v
  · simp
  · cases v <;> simp [Value.isNull]

/-- A null is one argument, wherever it is read from and whatever it is cast to. -/
theorem written_of_null (t : TableMapping) (hz : z.evaluate = .ok .null) :
    t.clause z = some (.datum .null) ∧ ∃ textual,
      t.fragment z = .ok { sql := "?", args := [.null], value := some .null, textual } := by
  induction z using Expr.induction with
  | constant v | captured name v =>
    cases hz
    exact ⟨rfl, false, rfl⟩
  | member target name hn =>
    have carried : Expr.carried (.member target name) = some .null := by
      rw [Expr.carried_eq_evaluate, hz]
      rfl
    rw [clause_member hn, carried]
    exact ⟨rfl, false, (fragment_member_eq_ok hn name).2 ⟨.null, carried, rfl⟩⟩
  | convert operand kind ih =>
    obtain ⟨v, hv, cast⟩ := bind_eq_ok.1 hz
    obtain rfl : v = .null := by
      have null := Value.isNull_convert cast
      cases v <;> first | rfl | cases null
    obtain ⟨hc, textual, hf⟩ := ih hv
    refine ⟨by rw [clause, hc], textual || kind.isTextual, ?_⟩
    rw [fragment, hf]
    rfl
  | parameter | column | binary | not | call | invoke | lambda => cases hz

theorem fragment_against_null (he : t.fragment e = .ok f) (hz : z.evaluate = .ok .null)
    (op : BinaryOp) :
    t.fragment (.binary op e z) =
        Fragment.nullTest (.binary op e z) op f { sql := "?", args := [.null] } ∧
      t.fragment (.binary op z e) =
        Fragment.nullTest (.binary op z e) op f { sql := "?", args := [.null] } := by
  obtain ⟨_, textual, hg⟩ := written_of_null t hz
  rw [fragment, fragment, he, hg]
  simp only [Bind.bind, Except.bind]
  by_cases hn : e.evaluate = .ok .null
  · obtain ⟨_, textual', hf⟩ := written_of_null t hn
    cases he.symm.trans hf
    cases op <;> exact ⟨rfl, rfl⟩
  · have other : f.isNull = false := by
      rw [(fragment_carries he).isNull_eq]
      exact Bool.eq_false_iff.2 (mt isNull_iff.1 hn)
    unfold Fragment.binary
    rw [other]
    cases op <;> exact ⟨rfl, rfl⟩

theorem clause_binary_cases (h : t.clause (.binary op l r) = some d) :
    ((l.evaluate = .ok .null ∨ r.evaluate = .ok .null) ∧
      ∃ other, (op = .eq ∧ d = .infixed .is other (.datum .null)) ∨
        (op = .ne ∧ d = .infixed .isNot other (.datum .null))) ∨
    (l.evaluate ≠ .ok .null ∧ r.evaluate ≠ .ok .null ∧
      ∃ o left right, op.operator? = some o ∧ d = .infixed o left right) := by
  obtain ⟨a, b, ha, hb, ⟨hl, h⟩ | ⟨_, hr, h⟩ | ⟨hl, hr, o, ho, rfl⟩⟩ := clause_binary_eq_some.1 h
  · rw [isNull_iff] at hl
    rw [(written_of_null t hl).1] at ha
    cases ha
    exact .inl ⟨.inl hl, b, nullTest_eq_some.1 h⟩
  · rw [isNull_iff] at hr
    rw [(written_of_null t hr).1] at hb
    cases hb
    exact .inl ⟨.inr hr, a, nullTest_eq_some.1 h⟩
  · rw [Bool.eq_false_iff, Ne, isNull_iff] at hl hr
    exact .inr ⟨hl, hr, o, a, b, ho, rfl⟩

theorem eq_null_of_clause {o : Sql.Operator} {left right : Clause}
    (h : t.clause e = some (.infixed o left right)) (ho : o = .is ∨ o = .isNot) :
    right = .datum .null := by
  induction e using Expr.induction with
  | constant v => simp [clause] at h
  | parameter | lambda => simp [clause] at h
  | captured | column | member =>
    rcases read_cases rfl h with ⟨name, hc⟩ | ⟨x, hc⟩ | ⟨ds, hc⟩ <;> cases hc
  | binary op l r =>
    rcases clause_binary_cases h with ⟨_, other, ⟨_, hc⟩ | ⟨_, hc⟩⟩ | ⟨_, _, o', a, b, hop, hc⟩
    · exact (Clause.infixed.inj hc).2.2
    · exact (Clause.infixed.inj hc).2.2
    · obtain ⟨rfl, rfl, rfl⟩ := Clause.infixed.inj hc
      rcases ho with rfl | rfl <;> cases op <;> cases hop
  | not operand =>
    obtain ⟨b, _, ⟨_, hc⟩ | ⟨_, hc⟩⟩ := clause_not_eq_some.1 h <;> cases hc
  | convert operand kind ih => exact ih (by simpa [clause] using h)
  | call method args =>
    obtain ⟨cs, _, hc⟩ := clause_call_eq_some.1 h
    unfold Clause.call at hc
    rcases ho with rfl | rfl <;> split at hc <;> (try split_ifs at hc) <;> cases hc
  | invoke receiver method args =>
    obtain ⟨b, cs, _, _, hc⟩ := clause_invoke_eq_some.1 h
    unfold Clause.invoke at hc
    rcases ho with rfl | rfl <;> split at hc <;> (try split_ifs at hc) <;> cases hc

theorem clause_testsNulls (h : t.clause e = some c) : c.TestsNulls := by
  intro o left right hp ho
  have own : (Clause.infixed o left right).isAuxiliary = false := by
    rcases ho with rfl | rfl <;> rfl
  obtain ⟨n, _, hc⟩ := (node_of_mem_parts h hp).resolve_left (by simp [own])
  exact eq_null_of_clause hc ho

theorem fill_of_prints (h : ∀ m ∈ e.methods, Sql.isPlainName m)
    (hc : t.clause e = some c) (prints : c.Prints f) :
    fill .outside f.sql.toList f.args = some c.write := by
  have lower : ∀ d ∈ "lower".toList, Marked.IsNeutral d := by simp [Marked.IsNeutral]
  have plain : ∀ m ∈ e.methods, ∀ d ∈ (Text.lower m).toList, Marked.IsNeutral d := fun m hm d hd =>
    Sql.isNeutral_of_isPlainName (Sql.isPlainName_lower (h m hm)) hd
  rw [prints.text, prints.args]
  exact Marked.fill_text (Clause.whole_write (clause_callsOnly lower plain hc))

theorem compile_null_tests (t : TableMapping) (e : Expr) (params params' : List Datum)
    (f : Fragment) (h : t.compile e params = (.ok f, params')) :
    (∀ z l r : Expr, z.evaluate = .ok .null → (l = e ∧ r = z ∨ l = z ∧ r = e) →
      t.compile (.binary .eq l r) params =
        (.ok { sql := "(" ++ f.sql ++ " is ?)", args := f.args ++ [.null] }, params' ++ [.null]) ∧
      t.compile (.binary .ne l r) params =
        (.ok { sql := "(" ++ f.sql ++ " is not ?)", args := f.args ++ [.null] },
          params' ++ [.null]) ∧
      ∀ op : BinaryOp, op ≠ .eq → op ≠ .ne → t.compile (.binary op l r) params =
        (.error (.uncompilable (.againstNull op (.binary op l r))), params)) ∧
    ∃ c, t.clause e = some c ∧ c.Prints f ∧
      ((∀ m ∈ e.methods, Sql.isPlainName m) →
        fill .outside f.sql.toList f.args = some c.write) ∧
      (∀ front back d, c.write = front ++ .datum d :: back →
        ofString " is " <:+ front ∨ ofString " is not " <:+ front → d = .null) ∧
      ∀ op l r, .binary op l r ∈ e.nodes → l.evaluate = .ok .null ∨ r.evaluate = .ok .null →
        ∃ other, (op = .eq ∧ .infixed .is other (.datum .null) ∈ c.parts ∧
            t.clause (.binary op l r) = some (.infixed .is other (.datum .null))) ∨
          (op = .ne ∧ .infixed .isNot other (.datum .null) ∈ c.parts ∧
            t.clause (.binary op l r) = some (.infixed .isNot other (.datum .null))) := by
  obtain ⟨hf, rfl⟩ := compile_eq_ok.1 h
  obtain ⟨c, hc, prints⟩ := fragment_prints hf
  refine ⟨fun z l r hz sides => ?_, c, hc, prints, fun plain => fill_of_prints plain hc prints,
    fun front back d => (clause_testsNulls hc).write.eq_null, ?_⟩
  · have against (op : BinaryOp) : t.fragment (.binary op l r) =
        Fragment.nullTest (.binary op l r) op f { sql := "?", args := [.null] } := by
      rcases sides with ⟨rfl, rfl⟩ | ⟨rfl, rfl⟩
      · exact (fragment_against_null hf hz op).1
      · exact (fragment_against_null hf hz op).2
    refine ⟨?_, ?_, fun op heq hne => ?_⟩
    · simp [compile, against, Fragment.nullTest]
    · simp [compile, against, Fragment.nullTest]
    · rw [compile, against]
      cases op <;> first | rfl | contradiction
  · intro op l r hn null
    obtain ⟨d, hd, hb⟩ := clause_of_mem_nodes hc hn
    obtain ⟨_, other, ⟨hop, rfl⟩ | ⟨hop, rfl⟩⟩ | ⟨hl, hr, _⟩ := clause_binary_cases hb
    · exact ⟨other, .inl ⟨hop, hd, hb⟩⟩
    · exact ⟨other, .inr ⟨hop, hd, hb⟩⟩
    · exact absurd null (by simp [hl, hr])

theorem compile_null_tests_notes :
    let null : Expr := .convert (.member (.captured "o" (.record [("x", .null)])) "x") .text
    let e : Expr := .binary .eq null (.field "Title")
    null.evaluate = .ok .null ∧
      (∃ f, notes.compile e [.integer 7] = (.ok f, [.integer 7, .null]) ∧
        f.sql = "(\"title\" is ?)") ∧
      (∃ g, notes.compile (.binary .ne null e) [.integer 7] =
        (.ok g, [.integer 7, .null, .null]) ∧ g.sql = "((\"title\" is ?) is not ?)") ∧
      notes.compile (.binary .lt null e) [.integer 7] =
        (.error (.uncompilable (.againstNull .lt (.binary .lt null e))), [.integer 7]) ∧
      ∃ other, notes.clause e = some (.infixed .is other (.datum .null)) := by
  intro null e
  have hnull : null.evaluate = .ok .null := by rfl
  obtain ⟨sides, c, _, _, _, _, nodes⟩ :=
    compile_null_tests notes e [.integer 7] [.integer 7, .null] _ rfl
  obtain ⟨_, different, others⟩ := sides null null e hnull (.inr ⟨rfl, rfl⟩)
  have compared := others .lt (by decide) (by decide)
  refine ⟨hnull, ⟨_, rfl, by decide⟩, ⟨_, different, by decide⟩, compared, ?_⟩
  obtain ⟨other, ⟨_, _, hc⟩ | ⟨hop, _⟩⟩ :=
    nodes .eq null (.field "Title") e.mem_nodes_self (.inl hnull)
  · exact ⟨other, hc⟩
  · cases hop

end TableMapping

end Tabular
