import Tabular.Proofs.Compile.Parsing

namespace Tabular

open Sql (Operator Term isPlainName isFunctionName)

/-- Operators and their operands, without brackets and with every argument in its place. -/
inductive Tree
  | argument (d : Option Datum)
  | column (name : String)
  | literal (s : String)
  | number (n : Nat)
  | list (items : List Tree)
  | binary (op : Operator) (left right : Tree)
  | apply (function : String) (args : List Tree)

namespace Tree

def group : List Tree → Tree
  | [t] => t
  | ts => .list ts

def negated : Tree → Tree
  | .binary .like left right => .binary .notLike left right
  | .binary .isIn left right => .binary .notIn left right
  | .binary .eq left right => .binary .ne left right
  | t => t

end Tree

mutual

/-- The tree of a term whose placeholders stand for the arguments. -/
def Sql.Term.tree (args : List Datum) : Term → Tree
  | .placeholder i => .argument args[i]?
  | .name s => .column s
  | .literal s => .literal s
  | .number n => .number n
  | .brackets items => Tree.group (trees args items)
  | .binary op left right => .binary op (left.tree args) (right.tree args)
  | .apply function items => .apply function (trees args items)

def Sql.Term.trees (args : List Datum) : List Term → List Tree
  | [] => []
  | t :: ts => t.tree args :: trees args ts

end

namespace Clause

mutual

def tree : Clause → Tree
  | .datum d => .argument (some d)
  | .list ds => Tree.group (ds.map fun d => .argument (some d))
  | .column name => .column name
  | .literal s => .literal s
  | .brackets c => c.tree
  | .infixed op left right => .binary op left.tree right.tree
  | .anywhere part => .binary .concat (.binary .concat (.literal "%") part.tree) (.literal "%")
  | .apply function args => .apply function (treeAll args)
  | .isFalse c => .binary .eq c.tree (.number 0)
  | .negated c => c.tree.negated

def treeAll : List Clause → List Tree
  | [] => []
  | c :: cs => c.tree :: treeAll cs

end

end Clause

def TableMapping.operatorTree (t : TableMapping) (e : Expr) : Option Tree :=
  (t.clause e).map Clause.tree

mutual

/-- Only members and captured values are negated, and only where nothing or a conjunction is
around them. -/
def Expr.negatesReads (free : Bool) : Expr → Bool
  | .not operand => free && operand.isRead
  | .binary op left right =>
    left.negatesReads (op == .and || op == .or) && right.negatesReads (op == .and || op == .or)
  | .convert operand _ => operand.negatesReads false
  | .call _ args => allNegateReads args
  | .invoke receiver _ args => receiver.negatesReads false && allNegateReads args
  | _ => true

def Expr.allNegateReads : List Expr → Bool
  | [] => true
  | e :: es => e.negatesReads false && allNegateReads es

end

theorem Expr.allNegateReads_iff {es : List Expr} :
    allNegateReads es ↔ ∀ e ∈ es, e.negatesReads false := by
  induction es with
  | nil => simp [allNegateReads]
  | cons e es ih => simp [allNegateReads, ih]

namespace Clause

def Tight (c : Clause) : Prop := c.Grouped ∧ c.isLoose = false

theorem Tight.stands {c : Clause} (h : c.Tight) (free : Bool) :
    c.Grouped ∧ (c.isLoose → free) :=
  ⟨h.1, by simp [h.2]⟩

theorem tight_of_bound {c : Clause} (h : c.Grouped ∧ (c.isLoose → false)) : c.Tight :=
  ⟨h.1, by simpa using h.2⟩

theorem Tight.infixed {left right : Clause} (hl : left.Tight) (hr : right.Tight) (op : Operator) :
    (Clause.infixed op left right).Tight :=
  ⟨⟨hl.1, hr.1, by simp [hl.2, hr.2]⟩, rfl⟩

theorem Tight.brackets {c : Clause} (h : c.Tight) : (Clause.brackets c).Tight := ⟨h.1, rfl⟩

theorem Tight.anywhere {c : Clause} (h : c.Tight) : (Clause.anywhere c).Tight := ⟨h, rfl⟩

theorem Tight.nullTest {op : BinaryOp} {other null c : Clause} (ho : other.Tight)
    (hn : null.Tight) (h : Clause.nullTest op other null = some c) : c.Tight := by
  cases op <;> cases h
  · exact ho.infixed hn .is
  · exact ho.infixed hn .isNot

theorem Tight.apply {cs : List Clause} (h : ∀ c ∈ cs, c.Tight) (function : String) :
    (Clause.apply function cs).Tight :=
  ⟨allGrouped_iff.2 fun c hc => (h c hc).1, rfl⟩

theorem Tight.call {cs : List Clause} (h : ∀ c ∈ cs, c.Tight) (method : String) :
    (Clause.call method cs).Tight := by
  unfold Clause.call
  split
  · next a b =>
    have ha : a.Tight := h a (by simp)
    have hb : b.Tight := h b (by simp)
    split
    · exact ha.infixed hb .like
    split
    · exact hb.infixed ha .isIn
    · exact Tight.apply h _
  · exact Tight.apply h _

theorem Tight.invoke {r : Clause} {cs : List Clause} (hr : r.Tight) (h : ∀ c ∈ cs, c.Tight)
    (textual : Bool) (method : String) : (Clause.invoke textual r method cs).Tight := by
  have generic : (Clause.apply (Text.lower method) (r :: cs)).Tight :=
    Tight.apply (by simpa using ⟨hr, h⟩) _
  have literal : (Clause.literal "%").Tight := ⟨trivial, rfl⟩
  unfold Clause.invoke
  split
  · split
    · have alone : ∀ c ∈ [r], c.Tight := by simpa using hr
      exact (Tight.apply alone "lower").brackets
    · exact generic
  · next a =>
    have ha : a.Tight := h a (by simp)
    split
    · split
      · exact hr.infixed ha.anywhere .like
      · exact ha.infixed hr .isIn
    split
    · exact hr.infixed (ha.infixed literal .concat) .like
    split
    · exact hr.infixed (literal.infixed ha .concat) .like
    split
    · exact hr.infixed ha.brackets .eq
    · exact generic
  · exact generic

end Clause

namespace TableMapping

variable {t : TableMapping}

open Clause (Tight)

theorem read_tight {e : Expr} {c : Clause} (he : e.isRead) (h : t.clause e = some c) :
    c.Tight := by
  rcases read_cases he h with ⟨name, rfl⟩ | ⟨d, rfl⟩ | ⟨ds, rfl⟩ <;> exact ⟨trivial, rfl⟩

theorem clauses_tight {es : List Expr} {cs : List Clause}
    (h : List.Forall₂ (fun e c => t.clause e = some c) es cs)
    (ih : ∀ e ∈ es, ∀ c, t.clause e = some c → c.Tight) : ∀ c ∈ cs, c.Tight := by
  intro c hc
  obtain ⟨e, he, h⟩ := exists_of_forall₂ h hc
  exact ih e he c h

theorem clause_grouped {e : Expr} {c : Clause} {free : Bool} (hn : e.negatesReads free)
    (h : t.clause e = some c) : c.Grouped ∧ (c.isLoose → free) := by
  -- A conjunction sets its sides free and everything else binds them, so `free` varies.
  induction e using Expr.induction generalizing c free with
  | constant v =>
    obtain ⟨_, _, rfl⟩ := clause_constant_eq_some.1 h
    exact ⟨trivial, fun h => by cases h⟩
  | parameter => simp [clause] at h
  | captured | column | member => exact (read_tight rfl h).stands free
  | binary op left right ihl ihr =>
    simp only [Expr.negatesReads, Bool.and_eq_true] at hn
    obtain ⟨l, r, hl, hr, h⟩ := clause_binary_eq_some.1 h
    obtain ⟨gl, ll⟩ := ihl hn.1 hl
    obtain ⟨gr, lr⟩ := ihr hn.2 hr
    have tested {other null : Clause} (gother : other.Grouped) (gnull : null.Grouped)
        (lother : other.isLoose → op == .and || op == .or)
        (lnull : null.isLoose → op == .and || op == .or)
        (h : Clause.nullTest op other null = some c) : c.Tight := by
      cases op <;> cases h <;> simp at lother lnull
      · exact .infixed ⟨gother, lother⟩ ⟨gnull, lnull⟩ .is
      · exact .infixed ⟨gother, lother⟩ ⟨gnull, lnull⟩ .isNot
    rcases h with ⟨_, h⟩ | ⟨_, _, h⟩ | ⟨_, _, o, ho, rfl⟩
    · exact (tested gr gl lr ll h).stands free
    · exact (tested gl gr ll lr h).stands free
    · refine ⟨⟨gl, gr, fun hloose => ?_⟩, fun h => by cases h⟩
      have hop : op == .and || op == .or := by
        rcases Bool.or_eq_true_iff.1 hloose with h | h
        · exact ll h
        · exact lr h
      cases op <;> cases ho <;> simp at hop ⊢
  | not operand =>
    simp only [Expr.negatesReads, Bool.and_eq_true] at hn
    obtain ⟨d, hd, ⟨_, rfl⟩ | ⟨call, _⟩⟩ := clause_not_eq_some.1 h
    · exact ⟨read_tight hn.2 hd, fun _ => hn.1⟩
    · cases (Expr.isCall_of_isRead hn.2).symm.trans call
  | convert operand kind ih =>
    rw [clause] at h
    exact (Clause.tight_of_bound (ih (by simpa [Expr.negatesReads] using hn) h)).stands free
  | call method args ih =>
    rw [Expr.negatesReads, Expr.allNegateReads_iff] at hn
    obtain ⟨cs, hcs, rfl⟩ := clause_call_eq_some.1 h
    have tight := clauses_tight hcs fun e he c h => Clause.tight_of_bound (ih e he (hn e he) h)
    exact (Tight.call tight method).stands free
  | invoke receiver method args ihr ih =>
    rw [Expr.negatesReads, Bool.and_eq_true, Expr.allNegateReads_iff] at hn
    obtain ⟨r, cs, hr, hcs, rfl⟩ := clause_invoke_eq_some.1 h
    have tight := clauses_tight hcs fun e he c h => Clause.tight_of_bound (ih e he (hn.2 e he) h)
    have bound : r.Tight := Clause.tight_of_bound (ihr hn.1 hr)
    exact (bound.invoke tight (t.isTextual receiver) method).stands free
  | lambda => simp [clause] at h

end TableMapping

namespace Clause

theorem places_eq (c : Clause) : c.places = c.write.args.length := by
  induction c using Clause.induction with
  | datum d => rfl
  | list ds => simp [places, args_separated, List.flatMap_map]
  | column name => simp [places]
  | literal s => simp [places]
  | brackets c ih => simpa [places] using ih
  | infixed op left right ihl ihr => simp [places, ihl, ihr]
  | anywhere part ih => simpa [places] using ih
  | apply function args ih =>
    have all (cs : List Clause) (h : ∀ c ∈ cs, c.places = c.write.args.length) :
        placesAll cs = (cs.flatMap fun c => c.write.args).length := by
      induction cs with
      | nil => rfl
      | cons c cs ih =>
        simp [placesAll, h c (by simp), ih fun c hc => h c (by simp [hc])]
    simpa [places, writeAll_eq_map, args_separated, List.flatMap_map] using all args ih
  | isFalse c ih => simpa [places] using ih
  | negated c ih => simpa [places, Marked.args_negated] using ih

theorem trees_placeholders (pre ds post : List Datum) :
    Term.trees (pre ++ (ds ++ post)) ((List.range' pre.length ds.length).map .placeholder) =
      ds.map fun d => .argument (some d) := by
  induction ds generalizing pre with
  | nil => rfl
  | cons d ds ih =>
    have ih := ih (pre ++ [d])
    simp only [List.append_assoc, List.singleton_append, List.length_append, List.length_singleton]
      at ih
    simp [List.range'_succ, Term.trees, Term.tree, ih]

theorem tree_term (c : Clause) (hg : c.Grouped) (pre post : List Datum) :
    (c.term pre.length).tree (pre ++ (c.write.args ++ post)) = c.tree := by
  induction c using Clause.induction generalizing pre post with
  | datum d => simp [term, tree, Term.tree]
  | list ds =>
    have := trees_placeholders pre ds post
    simp [term, tree, Term.tree, args_separated, List.flatMap_map, this]
  | column name => simp [term, tree, Term.tree]
  | literal s => simp [term, tree, Term.tree]
  | brackets c ih =>
    simpa [term, tree, Term.tree, Term.trees, Tree.group] using ih hg pre post
  | infixed op left right ihl ihr =>
    have hl := ihl hg.1 pre (right.write.args ++ post)
    have hr := ihr hg.2.1 (pre ++ left.write.args) post
    rw [List.length_append, ← places_eq, List.append_assoc] at hr
    simp [term, tree, Term.tree, Term.trees, Tree.group, hl, hr]
  | anywhere part ih =>
    simp [term, tree, Term.tree, Term.trees, Tree.group, ih hg.1 pre post]
  | apply function args ih =>
    have all (cs : List Clause) (h : ∀ c ∈ cs, ∀ pre post : List Datum,
          (c.term pre.length).tree (pre ++ (c.write.args ++ post)) = c.tree) (pre : List Datum) :
        Term.trees (pre ++ (cs.flatMap (fun c => c.write.args) ++ post)) (terms pre.length cs) =
          treeAll cs := by
      induction cs generalizing pre with
      | nil => rfl
      | cons c cs ih =>
        have hc := h c (by simp) pre (cs.flatMap (fun c => c.write.args) ++ post)
        have ih := ih (fun c hc => h c (by simp [hc])) (pre ++ c.write.args)
        rw [List.length_append, ← places_eq, List.append_assoc] at ih
        simp [terms, Term.trees, treeAll, hc, ih]
    have := all args (fun c hc => ih c hc (allGrouped_iff.1 hg c hc)) pre
    simp [term, tree, Term.tree, writeAll_eq_map, args_separated, List.flatMap_map, this]
  | isFalse c ih => simpa [term, tree, Term.tree] using ih hg.1 pre post
  | negated => exact hg.elim

theorem parse_tokens {c : Clause} (h : c.CallsOnly fun f => f ≠ "not") (hg : c.Grouped) :
    Sql.Parser.read? c.tokens = some (c.term 0) := by
  rw [Sql.Parser.read?, (reads_of_grouped h hg).run_outset [] 0, Option.bind_some]
  exact congrArg some (settleAll_pending c 0)

end Clause

namespace TableMapping

theorem compile_parses (t : TableMapping) (e : Expr) (params params' : List Datum) (f : Fragment)
    (hm : ∀ m ∈ e.methods, isFunctionName m) (hn : e.negatesReads true)
    (h : t.compile e params = (.ok f, params')) :
    ∃ args ks term tree, params' = params ++ args ∧ Sql.Lexer.read? f.sql.toList = some ks ∧
      Sql.Parser.read? ks = some term ∧ t.operatorTree e = some tree ∧ term.tree args = tree := by
  unfold compile at h
  cases hf : t.fragment e <;> rw [hf] at h <;> cases h
  obtain ⟨c, hc, hp⟩ := fragment_prints hf
  have names (m : String) (h : m ∈ e.methods) :
      isPlainName (Text.lower m) ∧ Text.lower m ≠ "not" := by
    have := hm m h
    rw [isFunctionName, Bool.and_eq_true, bne_iff_ne] at this
    exact ⟨Sql.isPlainName_lower this.1, this.2⟩
  have plain : c.CallsOnly fun f => isPlainName f :=
    clause_callsOnly (by decide) (fun m h => (names m h).1) hc
  have notNot : c.CallsOnly fun f => f ≠ "not" :=
    clause_callsOnly (by decide) (fun m h => (names m h).2) hc
  have grouped : c.Grouped := (clause_grouped hn hc).1
  have tree : t.operatorTree e = some c.tree := by rw [operatorTree, hc]; rfl
  refine ⟨_, _, _, _, rfl, ?_, Clause.parse_tokens notNot grouped, tree, ?_⟩
  · rw [hp.text]
    exact Clause.read?_write plain grouped
  · have := Clause.tree_term c grouped [] []
    rwa [List.nil_append, List.append_nil, ← hp.args] at this

def notesNamed (name : String) : TableMapping :=
  { notes with columns := notes.columns.map fun c => { c with name := name } }

theorem compile_parses_quoted :
    let t := notesNamed "done\" = 0) or (\"id"
    let e : Expr := .binary .or (.not (.field "Id"))
      (.invoke (.field "Title") "starts_with" [.captured "s" (.text "a")])
    let column := Tree.column "done\" = 0) or (\"id"
    let tree := Tree.binary .or (.binary .eq column (.number 0))
      (.binary .like column (.binary .concat (.argument (some (.text "a"))) (.literal "%")))
    (∀ m ∈ e.methods, isFunctionName m) ∧ e.negatesReads true ∧
      ∃ f, t.compile e [] = (.ok f, [.text "a"]) ∧
      ∃ ks term, Sql.Lexer.read? f.sql.toList = some ks ∧ Sql.Parser.read? ks = some term ∧
        t.operatorTree e = some tree ∧ term.tree [.text "a"] = tree := by
  intro t e column tree
  have hm : ∀ m ∈ e.methods, isFunctionName m := by decide
  have hn : e.negatesReads true := by decide
  obtain ⟨args, ks, term, tree', hargs, hk, hterm, ht, htree⟩ :=
    compile_parses t e [] [.text "a"] _ hm hn rfl
  obtain rfl : [.text "a"] = args := hargs
  obtain rfl : tree = tree' := Option.some.inj ht
  exact ⟨hm, hn, _, rfl, ks, term, hk, hterm, rfl, htree⟩

end TableMapping

end Tabular
