import Tabular.Proofs.Compile.Negating
import Tabular.Proofs.Compile.Parts

namespace Tabular

namespace Value

theorem convert_ne_list {v : Value} {kind : Kind} {items : List Value} :
    v.convert kind ≠ .ok (.list items) := by
  intro h
  rcases convert_eq_ok.1 h with ⟨_, h⟩ | ⟨_, h⟩
  · cases h
  · cases kind <;> simp only [convert?, Option.map_eq_some_iff] at h
    case uuid | datetime | duration | blob => cases v <;> cases h
    case custom => cases h
    all_goals obtain ⟨_, _, h⟩ := h; cases h

theorem convert_list {items : List Value} {kind : Kind} {w : Value} :
    (Value.list items).convert kind ≠ .ok w := by
  intro h
  rcases convert_eq_ok.1 h with ⟨h, _⟩ | ⟨_, h⟩
  · cases h
  · cases kind <;> simp [convert?, toBool?, toInteger?, toFloat?, toText?] at h

end Value

namespace Clause

variable {item collection r : Clause} {method : String} {cs : List Clause}

theorem call_eq_isIn (h : call method cs = .infixed .isIn item collection) :
    method = "contains" ∧ cs = [collection, item] := by
  unfold call at h
  split at h
  · split_ifs at h with hl hm
    · cases h
    · obtain ⟨_, rfl, rfl⟩ := Clause.infixed.inj h
      exact ⟨hm, rfl⟩
  · cases h

theorem invoke_eq_isIn {textual : Bool}
    (h : invoke textual r method cs = .infixed .isIn item collection) :
    method = "contains" ∧ textual = false ∧ r = collection ∧ cs = [item] := by
  unfold invoke at h
  split at h
  · split_ifs at h
    cases h
  · split_ifs at h with hm textual <;> cases h
    exact ⟨hm, by simpa using textual, rfl, rfl⟩
  · cases h

end Clause

namespace TableMapping

variable {t : TableMapping} {e n x y : Expr} {c item collection : Clause} {f : Fragment}

theorem listed_eq_list {v : Value} {ds : List Datum} :
    t.listed v = some (.list ds) ↔ ∃ items, v = .list items ∧ items.mapM t.bind = .ok ds := by
  cases v <;> simp [listed, toOption_eq_some]

theorem clause_of_evaluate (he : e.isRead) {v : Value} (hv : e.evaluate = .ok v) :
    t.clause e = t.listed v := by
  cases e with
  | captured name w =>
    cases hv
    rw [clause]
  | member target name =>
    by_cases ht : target = .parameter
    · subst ht
      cases hv
    · rw [clause_member ht, Expr.carried_eq_evaluate, hv]
      rfl
  | _ => cases he

theorem evaluate_of_clause_eq_list (he : e.isRead) {ds : List Datum}
    (hc : t.clause e = some (.list ds)) :
    ∃ items, e.evaluate = .ok (.list items) ∧ items.mapM t.bind = .ok ds := by
  cases e with
  | captured name v =>
    obtain ⟨items, rfl, hitems⟩ := listed_eq_list.1 (by simpa [clause] using hc)
    exact ⟨items, rfl, hitems⟩
  | member target name =>
    by_cases ht : target = .parameter
    · subst ht
      simp [clause] at hc
    · rw [clause_member ht, Option.bind_eq_some_iff] at hc
      obtain ⟨v, hv, hc⟩ := hc
      obtain ⟨items, rfl, hitems⟩ := listed_eq_list.1 hc
      rw [Expr.carried_eq_evaluate, toOption_eq_some] at hv
      exact ⟨items, hv, hitems⟩
  | _ => cases he

theorem isRead_of_clause_eq_list {ds : List Datum} (h : t.fragment e = .ok f)
    (hc : t.clause e = some (.list ds)) : e.isRead := by
  induction e using Expr.induction generalizing f with
  | captured | column | member => rfl
  | constant v => simp [clause] at hc
  | parameter | lambda => simp [clause] at hc
  | binary op left right =>
    obtain ⟨l, r, o, _, _, hb | hb, _⟩ := clause_binary hc <;> cases hb
  | not operand =>
    obtain ⟨b, _, ⟨_, hb⟩ | ⟨_, hb⟩⟩ := clause_not_eq_some.1 hc <;> cases hb
  | convert operand kind ih =>
    -- The operand is written as a list, so it stands for one, and there is no cast of that.
    rw [clause] at hc
    obtain ⟨g, hg, h⟩ := fragment_convert_eq_ok.1 h
    obtain ⟨items, hv, _⟩ := evaluate_of_clause_eq_list (ih hg hc) hc
    have carried : g.value = some (.list items) := by
      rw [(fragment_carries hg).value_eq, Expr.carried_eq_evaluate, hv]
      rfl
    rcases Fragment.convert_eq_ok.1 h with ⟨none, _⟩ | ⟨v, w, some, cast, _⟩
    · rw [carried] at none
      cases none
    · rw [carried] at some
      cases some
      exact absurd cast Value.convert_list
  | call method args =>
    obtain ⟨cs, _, hc⟩ := clause_call_eq_some.1 hc
    unfold Clause.call at hc
    split at hc
    · split_ifs at hc
    · cases hc
  | invoke receiver method args =>
    obtain ⟨r, cs, _, _, hc⟩ := clause_invoke_eq_some.1 hc
    unfold Clause.invoke at hc
    split at hc <;> (try split_ifs at hc) <;> cases hc

theorem isRead_of_evaluate_eq_list {items : List Value} (h : t.fragment e = .ok f)
    (hv : e.evaluate = .ok (.list items)) : e.isRead := by
  cases e with
  | captured | member => rfl
  | constant v =>
    cases hv
    obtain ⟨d, hd, _⟩ := placeholder_eq_ok.1 (by simpa [fragment] using h)
    cases hd
  | convert operand kind =>
    obtain ⟨v, _, cast⟩ := bind_eq_ok.1 hv
    exact absurd cast Value.convert_ne_list
  | _ => cases hv

/-- The item and the collection of a test for membership. What text contains are parts of it. -/
def membership? (t : TableMapping) : Expr → Option (Expr × Expr)
  | .call method [y, x] => if method = "contains" then some (x, y) else none
  | .invoke y method [x] => if method = "contains" ∧ ¬ t.isTextual y then some (x, y) else none
  | _ => none

theorem operands_of_membership? (h : t.membership? e = some (x, y)) :
    x ∈ e.operands ∧ y ∈ e.operands := by
  unfold membership? at h
  split at h
  · split at h <;> cases h
    simp [Expr.operands]
  · split at h <;> cases h
    simp [Expr.operands]
  · cases h

theorem clause_of_membership? (h : t.membership? e = some (x, y)) (hx : t.clause x = some item)
    (hy : t.clause y = some collection) :
    t.clause e = some (.infixed .isIn item collection) := by
  unfold membership? at h
  split at h
  · split at h
    · next hm =>
      cases h
      simp [clause, clauses, hx, hy, hm, Clause.call]
    · cases h
  · split at h
    · next hm =>
      cases h
      simp [clause, clauses, hx, hy, hm.1, hm.2, Clause.invoke]
    · cases h
  · cases h

theorem membership?_of_clause (h : t.clause e = some (.infixed .isIn item collection)) :
    ∃ n ∈ e.nodes, ∃ x y, t.membership? n = some (x, y) ∧ t.clause x = some item ∧
      t.clause y = some collection := by
  induction e using Expr.induction with
  | constant v => simp [clause] at h
  | parameter | lambda => simp [clause] at h
  | captured | column | member =>
    rcases read_cases rfl h with ⟨name, hc⟩ | ⟨d, hc⟩ | ⟨ds, hc⟩ <;> cases hc
  | binary op left right =>
    obtain ⟨l, r, o, _, _, hc, ho⟩ := clause_binary h
    obtain rfl : o = .isIn := by rcases hc with hc | hc <;> cases hc <;> rfl
    rcases ho with ho | ho | ho
    · cases ho
    · cases ho
    · cases op <;> cases ho
  | not operand =>
    obtain ⟨b, _, ⟨_, hc⟩ | ⟨_, hc⟩⟩ := clause_not_eq_some.1 h <;> cases hc
  | convert operand kind ih =>
    obtain ⟨n, hn, found⟩ := ih (by simpa [clause] using h)
    exact ⟨n, Expr.mem_nodes.2 (.inr ⟨operand, by simp [Expr.operands], hn⟩), found⟩
  | call method args =>
    obtain ⟨cs, hcs, h⟩ := clause_call_eq_some.1 h
    obtain ⟨rfl, rfl⟩ := Clause.call_eq_isIn h.symm
    obtain _ | ⟨hy, _ | ⟨hx, _ | _⟩⟩ := hcs
    exact ⟨_, Expr.mem_nodes_self _, _, _, rfl, hx, hy⟩
  | invoke receiver method args =>
    obtain ⟨r, cs, hr, hcs, h⟩ := clause_invoke_eq_some.1 h
    obtain ⟨rfl, textual, rfl, rfl⟩ := Clause.invoke_eq_isIn h.symm
    obtain _ | ⟨hx, _ | _⟩ := hcs
    exact ⟨_, Expr.mem_nodes_self _, _, receiver, by simp [membership?, textual], hx, hr⟩

section Compiled

variable (h : t.fragment e = .ok f) (hc : t.clause e = some c)

include h hc

theorem list_mem_parts {ds : List Datum} : .list ds ∈ c.parts ↔ ∃ n ∈ e.nodes, n.isRead ∧
    ∃ items, n.evaluate = .ok (.list items) ∧ items.mapM t.bind = .ok ds := by
  constructor
  · intro hd
    obtain ⟨n, hn, hd⟩ := (node_of_mem_parts hc hd).resolve_left (by simp [Clause.isAuxiliary])
    obtain ⟨g, hg⟩ := exists_fragment_of_mem_nodes h hn
    have read := isRead_of_clause_eq_list hg hd
    exact ⟨n, hn, read, evaluate_of_clause_eq_list read hd⟩
  · rintro ⟨n, hn, read, items, hv, hitems⟩
    obtain ⟨d, hd, hc⟩ := clause_of_mem_nodes hc hn
    have listed : t.clause n = some (.list ds) := by
      rw [clause_of_evaluate read hv]
      exact listed_eq_list.2 ⟨items, rfl, hitems⟩
    cases hc.symm.trans listed
    exact hd

omit h in
theorem isIn_mem_parts : .infixed .isIn item collection ∈ c.parts ↔ ∃ n ∈ e.nodes, ∃ x y,
    t.membership? n = some (x, y) ∧ t.clause x = some item ∧ t.clause y = some collection := by
  constructor
  · intro hd
    obtain ⟨m, hm, hd⟩ := (node_of_mem_parts hc hd).resolve_left (by simp [Clause.isAuxiliary])
    obtain ⟨n, hn, found⟩ := membership?_of_clause hd
    exact ⟨n, Expr.mem_nodes_trans hm hn, found⟩
  · rintro ⟨n, hn, x, y, hxy, hx, hy⟩
    obtain ⟨d, hd, hc⟩ := clause_of_mem_nodes hc hn
    cases hc.symm.trans (clause_of_membership? hxy hx hy)
    exact hd

theorem collection_eq_list (hn : n ∈ e.nodes) (hxy : t.membership? n = some (x, y)) :
    ∃ item collection, t.clause x = some item ∧ t.clause y = some collection ∧
      .infixed .isIn item collection ∈ c.parts ∧
        ((∃ ds, collection = .list ds) ↔ ∃ items, y.evaluate = .ok (.list items)) := by
  obtain ⟨ho, ho'⟩ := operands_of_membership? hxy
  have operand {a : Expr} (ha : a ∈ n.operands) : ∃ g b, t.fragment a = .ok g ∧
      t.clause a = some b := by
    obtain ⟨k, hk⟩ := exists_fragment_of_mem_nodes h hn
    obtain ⟨g, hg⟩ := exists_fragment_of_mem_operands hk ha
    obtain ⟨b, hb, _⟩ := fragment_prints hg
    exact ⟨g, b, hg, hb⟩
  obtain ⟨_, item, _, hx⟩ := operand ho
  obtain ⟨g, collection, hg, hy⟩ := operand ho'
  refine ⟨item, collection, hx, hy, (isIn_mem_parts hc).2 ⟨n, hn, x, y, hxy, hx, hy⟩, ?_⟩
  constructor
  · rintro ⟨ds, rfl⟩
    obtain ⟨items, hv, _⟩ := evaluate_of_clause_eq_list (isRead_of_clause_eq_list hg hy) hy
    exact ⟨items, hv⟩
  · rintro ⟨items, hv⟩
    rw [clause_of_evaluate (isRead_of_evaluate_eq_list hg hv) hv] at hy
    obtain ⟨ds, _, rfl⟩ := Option.map_eq_some_iff.1 hy
    exact ⟨ds, rfl⟩

end Compiled

theorem compile_lists (t : TableMapping) (e : Expr) (params params' : List Datum) (f : Fragment)
    (h : t.compile e params = (.ok f, params')) :
    (∃ c, t.clause e = some c ∧ c.Prints f ∧
      (∀ ds, .list ds ∈ c.parts ↔ ∃ n ∈ e.nodes, n.isRead ∧
        ∃ items, n.evaluate = .ok (.list items) ∧ items.mapM t.bind = .ok ds) ∧
      (∀ item collection, .infixed .isIn item collection ∈ c.parts ↔ ∃ n ∈ e.nodes, ∃ x y,
        t.membership? n = some (x, y) ∧ t.clause x = some item ∧ t.clause y = some collection) ∧
      ∀ n ∈ e.nodes, ∀ x y, t.membership? n = some (x, y) → ∃ item collection,
        t.clause x = some item ∧ t.clause y = some collection ∧
          .infixed .isIn item collection ∈ c.parts ∧
          ((∃ ds, collection = .list ds) ↔ ∃ items, y.evaluate = .ok (.list items))) ∧
    (∀ (o : Dyad) (y : Expr) (g : Fragment), t.fragment y = .ok g →
      ((o.setting? t e y).isSome → ∃ k, t.fragment (o.expr e y) = .ok k) ∧
      ((o.setting? t y e).isSome → ∃ k, t.fragment (o.expr y e) = .ok k)) ∧
    (∀ (r : Expr) (method : String) (args : List Expr), e ∈ r :: args →
      (∀ a ∈ r :: args, ∃ g, t.fragment a = .ok g) →
      ∃ k, t.fragment (.invoke r method args) = .ok k) ∧
    (e.isRead → ∃ k, t.fragment (.not e) = .ok k) := by
  obtain ⟨hf, rfl⟩ := compile_eq_ok.1 h
  obtain ⟨c, hc, prints⟩ := fragment_prints hf
  refine ⟨⟨c, hc, prints, fun ds => list_mem_parts hf hc, fun item collection => isIn_mem_parts hc,
    fun n hn x y hxy => collection_eq_list hf hc hn hxy⟩, fun o y g hg => ⟨?_, ?_⟩,
    fun r method args _ compiled => ?_, fun read => ?_⟩
  · intro written
    obtain ⟨s, hs⟩ := Option.isSome_iff_exists.1 written
    exact ⟨_, Dyad.fragment_expr hf hg hs⟩
  · intro written
    obtain ⟨s, hs⟩ := Option.isSome_iff_exists.1 written
    exact ⟨_, Dyad.fragment_expr hg hf hs⟩
  · obtain ⟨g, hg⟩ := compiled r (by simp)
    obtain ⟨gs, hgs⟩ := exists_mapM_eq_ok fun a ha => compiled a (List.mem_cons_of_mem r ha)
    rw [fragment, hg, fragments_eq_mapM, hgs]
    exact ⟨_, rfl⟩
  · rw [fragment, hf]
    exact ⟨_, Fragment.negate_eq_ok.2 (.inl ⟨read, rfl⟩)⟩

theorem compile_lists_notes :
    let ids : Expr := .captured "ids" (.list [.int 1, .int 2])
    let e : Expr := .invoke ids "contains" [.field "Id"]
    ∃ f, notes.compile e [] = (.ok f, [.integer 1, .integer 2]) ∧ f.sql = "(\"id\" in (?,?))" ∧
      ∃ c, notes.clause e = some c ∧ c.Prints f ∧ .list [.integer 1, .integer 2] ∈ c.parts ∧
        .infixed .isIn (.column "id") (.list [.integer 1, .integer 2]) ∈ c.parts := by
  intro ids e
  obtain ⟨⟨c, hc, prints, lists, tests, _⟩, _⟩ :=
    compile_lists notes e [] [.integer 1, .integer 2] _ rfl
  refine ⟨_, rfl, by decide, c, hc, prints, (lists _).2 ⟨ids, ?_, rfl, _, rfl, rfl⟩,
    (tests _ _).2 ⟨e, e.mem_nodes_self, .field "Id", ids, rfl, rfl, rfl⟩⟩
  simp [e, ids, Expr.nodes]

theorem lists_without_membership :
    let number : Expr := .captured "n" (.int 5)
    let list : Expr := .captured "ns" (.list [.int 1, .int 2])
    let id : Expr := .field "Id"
    (∃ f, notes.compile (.invoke number "contains" [id]) [] = (.ok f, [.integer 5]) ∧
      f.sql = "(\"id\" in ?)") ∧
    (∃ f, notes.compile (.invoke id "contains" [number]) [] = (.ok f, [.integer 5]) ∧
      f.sql = "(? in \"id\")") ∧
    (∃ f, notes.compile (.binary .eq id list) [] = (.ok f, [.integer 1, .integer 2]) ∧
      f.sql = "(\"id\" = (?,?))") ∧
    (∃ f, notes.compile (.invoke (.field "Title") "starts_with" [list]) [] =
        (.ok f, [.integer 1, .integer 2]) ∧ f.sql = "(\"title\" like ((?,?) || '%'))") ∧
    ∃ f, notes.compile (.not list) [] = (.ok f, [.integer 1, .integer 2]) ∧
      f.sql = "(?,?) = 0" := by
  refine ⟨⟨_, rfl, ?_⟩, ⟨_, rfl, ?_⟩, ⟨_, rfl, ?_⟩, ⟨_, rfl, ?_⟩, _, rfl, ?_⟩ <;> decide

end TableMapping

end Tabular
