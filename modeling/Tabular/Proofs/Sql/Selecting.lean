import Tabular.Proofs.Sql.Ending
import Tabular.Sql.Command

namespace Tabular.Sql

variable {ks ps ts : List Token}

def BeginsPage (ps : List Token) : Prop := ∀ k ∈ ps.head?, k = .word "limit"

theorem BeginsPage.eq_cons (h : BeginsPage ps) {k : Token} (hk : k ≠ .word "limit")
    {us : List Token} (hu : ts ++ ps = k :: us) : ∃ vs, ts = k :: vs ∧ vs ++ ps = us := by
  cases ts with
  | nil => exact absurd (h k (by simp [show ps = k :: us from hu])) hk
  | cons t ts =>
    cases hu
    exact ⟨ts, rfl, rfl⟩

theorem takeWhile_append_page (h : BeginsPage ps) (ts : List Token) :
    (ts ++ ps).takeWhile (fun t => !endsCondition t) = ts.takeWhile fun t => !endsCondition t := by
  induction ts with
  | nil =>
    cases ps with
    | nil => rfl
    | cons p ps =>
      obtain rfl := h p rfl
      rfl
  | cons t ts ih => simp [List.takeWhile_cons, ih]

theorem dropWhile_append_page (h : BeginsPage ps) (ts : List Token) :
    (ts ++ ps).dropWhile (fun t => !endsCondition t) =
      (ts.dropWhile fun t => !endsCondition t) ++ ps := by
  induction ts with
  | nil =>
    cases ps with
    | nil => rfl
    | cons p ps =>
      obtain rfl := h p rfl
      rfl
  | cons t ts ih =>
    simp only [List.cons_append, List.dropWhile_cons]
    split
    · exact ih
    · rfl

theorem condition?_append (h : BeginsPage ps) (ts : List Token) :
    condition? (ts ++ ps) = (condition? ts).map fun r => (r.1, r.2 ++ ps) := by
  have where_append (ts : List Token) :
      condition? (.word "where" :: (ts ++ ps)) =
        (condition? (.word "where" :: ts)).map fun r => (r.1, r.2 ++ ps) := by
    simp only [condition?, takeWhile_append_page h, dropWhile_append_page h, Option.map_map,
      Function.comp_def]
  by_cases ht : ∃ us, ts = .word "where" :: us
  · obtain ⟨us, rfl⟩ := ht
    exact where_append us
  · have hn (us : List Token) (hu : ts = .word "where" :: us) : False := ht ⟨us, hu⟩
    have hn' (us : List Token) (hu : ts ++ ps = .word "where" :: us) : False := by
      obtain ⟨vs, hv, _⟩ := h.eq_cons (by decide) hu
      exact hn vs hv
    rw [condition?.eq_2 _ hn, condition?.eq_2 _ hn']
    rfl

theorem sortTerms?_append (h : BeginsPage ps) (ts : List Token) :
    sortTerms? (ts ++ ps) = (sortTerms? ts).map fun r => (r.1, r.2 ++ ps) := by
  induction ts using sortTerms?.induct with
  | case1 n ts ih =>
    simp only [List.cons_append, sortTerms?, ih, Option.map_map, Function.comp_def]
  | case2 n ts ih =>
    simp only [List.cons_append, sortTerms?, ih, Option.map_map, Function.comp_def]
  | case3 n ts hn =>
    have hn' (us : List Token) (hu : ts ++ ps = .comma :: us) : False := by
      obtain ⟨vs, hv, _⟩ := h.eq_cons (by decide) hu
      exact hn vs hv
    rw [List.cons_append, List.cons_append, sortTerms?.eq_3 _ _ hn', sortTerms?.eq_3 _ _ hn]
    rfl
  | case4 n ts h1 h2 h3 =>
    have h2' (us : List Token) (hu : ts ++ ps = .comma :: us) : False := by
      obtain ⟨vs, hv, _⟩ := h.eq_cons (by decide) hu
      exact h2 vs hv
    have h3' (us : List Token) (hu : ts ++ ps = .word "desc" :: us) : False := by
      obtain ⟨vs, hv, _⟩ := h.eq_cons (by decide) hu
      exact h3 vs hv
    rw [List.cons_append, sortTerms?.eq_4 _ _ (fun us => h3' (.comma :: us)) h2' h3',
      sortTerms?.eq_4 _ _ h1 h2 h3]
    rfl
  | case5 ts h1 h2 h3 h4 =>
    have h4' (n : String) (us : List Token) (hu : ts ++ ps = .name n :: us) : False := by
      obtain ⟨vs, hv, _⟩ := h.eq_cons (by simp) hu
      exact h4 n vs hv
    rw [sortTerms?.eq_5 _ (fun n _ => h4' n _) (fun n _ => h4' n _) (fun n _ => h4' n _) h4',
      sortTerms?.eq_5 _ h1 h2 h3 h4]
    rfl

theorem order?_append (h : BeginsPage ps) (ts : List Token) :
    order? (ts ++ ps) = (order? ts).map fun r => (r.1, r.2 ++ ps) := by
  by_cases ht : ∃ us, ts = .word "order" :: .word "by" :: us
  · obtain ⟨us, rfl⟩ := ht
    exact sortTerms?_append h us
  · have hn (us : List Token) (hu : ts = .word "order" :: .word "by" :: us) : False := ht ⟨us, hu⟩
    have hn' (us : List Token) (hu : ts ++ ps = .word "order" :: .word "by" :: us) : False := by
      obtain ⟨vs, rfl, hv⟩ := h.eq_cons (by decide) hu
      obtain ⟨ws, rfl, _⟩ := h.eq_cons (by decide) hv
      exact hn ws rfl
    rw [order?.eq_2 _ hn', order?.eq_2 _ hn]
    rfl

theorem sortTerms?_suffix {us : List Token} {order : List SortTerm}
    (h : sortTerms? ts = some (order, us)) : us <:+ ts := by
  induction ts using sortTerms?.induct generalizing order with
  | case1 n ts ih =>
    simp only [sortTerms?, Option.map_eq_some_iff] at h
    obtain ⟨⟨os, us'⟩, ho, h⟩ := h
    cases h
    exact (ih ho).trans (List.suffix_append [_, _, _] ts)
  | case2 n ts ih =>
    simp only [sortTerms?, Option.map_eq_some_iff] at h
    obtain ⟨⟨os, us'⟩, ho, h⟩ := h
    cases h
    exact (ih ho).trans (List.suffix_append [_, _] ts)
  | case3 n ts hn =>
    rw [sortTerms?.eq_3 _ _ hn] at h
    cases h
    exact List.suffix_append [_, _] _
  | case4 n ts h1 h2 h3 =>
    rw [sortTerms?.eq_4 _ _ h1 h2 h3] at h
    cases h
    exact List.suffix_append [_] _
  | case5 ts h1 h2 h3 h4 =>
    rw [sortTerms?.eq_5 _ h1 h2 h3 h4] at h
    cases h

theorem order?_suffix {us : List Token} {order : List SortTerm}
    (h : order? ts = some (order, us)) : us <:+ ts := by
  unfold order? at h
  split at h
  · exact (sortTerms?_suffix h).trans (List.suffix_append [_, _] _)
  · cases h
    exact List.suffix_refl _

theorem sortTerms?_ends {order : List SortTerm} (h : sortTerms? ts = some (order, [])) :
    ¬ Lexer.EndsClosed ts := by
  induction ts using sortTerms?.induct generalizing order with
  | case1 n ts ih =>
    simp only [sortTerms?, Option.map_eq_some_iff] at h
    obtain ⟨⟨os, us⟩, ho, h⟩ := h
    cases h
    have tail : ts ≠ [] := by
      rintro rfl
      cases ho
    exact fun hc => ih ho (hc.of_suffix (List.suffix_append [_, _, _] ts) tail)
  | case2 n ts ih =>
    simp only [sortTerms?, Option.map_eq_some_iff] at h
    obtain ⟨⟨os, us⟩, ho, h⟩ := h
    cases h
    have tail : ts ≠ [] := by
      rintro rfl
      cases ho
    exact fun hc => ih ho (hc.of_suffix (List.suffix_append [_, _] ts) tail)
  | case3 n ts hn =>
    rw [sortTerms?.eq_3 _ _ hn] at h
    cases h
    simp [Lexer.EndsClosed, Text.Ends]
  | case4 n ts h1 h2 h3 =>
    rw [sortTerms?.eq_4 _ _ h1 h2 h3] at h
    cases h
    simp [Lexer.EndsClosed, Text.Ends]
  | case5 ts h1 h2 h3 h4 =>
    rw [sortTerms?.eq_5 _ h1 h2 h3 h4] at h
    cases h

theorem order?_eq_nil {order : List SortTerm} (h : order? ts = some (order, []))
    (ht : Lexer.EndsClosed ts ∨ Token.word "order" ∉ ts) : order = [] := by
  unfold order? at h
  split at h
  · next us =>
    rcases ht with ht | ht
    · have tail : us ≠ [] := by
        rintro rfl
        cases h
      exact absurd (ht.of_suffix (List.suffix_append [_, _] us) tail) (sortTerms?_ends h)
    · exact absurd (by simp) ht
  · cases h
    rfl

theorem condition?_suffix {us : List Token} {condition : Option Term}
    (h : condition? ts = some (condition, us)) : us <:+ ts := by
  unfold condition? at h
  split at h
  · obtain ⟨_, _, h⟩ := Option.map_eq_some_iff.1 h
    cases h
    exact (List.dropWhile_suffix _).trans (List.suffix_append [_] _)
  · cases h
    exact List.suffix_refl _

theorem offset?_eq_some {o : Option Nat} (h : offset? ts = some o) :
    ts = [] ∨ ∃ n, ts = [.word "offset", .number n] := by
  unfold offset? at h
  split at h
  · exact .inl rfl
  · exact .inr ⟨_, rfl⟩
  · cases h

theorem page?_cons {k : Token} {p : Page} (h : page? (k :: ts) = some p) :
    k = .word "limit" ∧ Token.word "limit" ∉ ts ∧ ¬ Lexer.EndsOtherwise (k :: ts) := by
  unfold page? at h
  split at h
  · next n ts hk =>
    cases hk
    obtain ⟨_, ho, _⟩ := Option.map_eq_some_iff.1 h
    rcases offset?_eq_some ho with rfl | ⟨m, rfl⟩ <;>
      simp [Lexer.EndsOtherwise, Lexer.isNotNumber, Text.Ends]
  · next n ts hk =>
    cases hk
    obtain ⟨_, ho, _⟩ := Option.map_eq_some_iff.1 h
    rcases offset?_eq_some ho with rfl | ⟨m, rfl⟩ <;>
      simp [Lexer.EndsOtherwise, Lexer.isNotNumber, Text.Ends]
  · next hk => cases hk
  · cases h

theorem beginsPage_of_page? {p : Page} (h : page? ps = some p) : BeginsPage ps := by
  intro k hk
  cases ps with
  | nil => cases hk
  | cons l ps =>
    cases hk
    exact (page?_cons h).1

theorem tokens?_eq_some {text : String} :
    tokens? text = some ks ↔ '\x00' ∉ text.toList ∧ Lexer.read? text.toList = some ks := by
  simp [tokens?]

theorem tokens?_append {start : String} (h : Lexer.Completes start.toList ts)
    (hz : '\x00' ∉ start.toList) (text : String) :
    tokens? (start ++ text) = (tokens? text).map fun ks => ts ++ ks := by
  simp only [tokens?, String.toList_append, List.contains_eq_mem, List.mem_append, hz, false_or]
  split
  · rfl
  · rw [Lexer.read?_eq_readFrom, Lexer.read?_eq_readFrom, Lexer.readFrom_append h]

namespace Command

structure Source where
  table : String
  condition : Option Term
  order : List SortTerm
  page : Page

def source? : List Token → Option Source
  | .name table :: ks => do
    let (condition, ks) ← condition? ks
    let (order, ks) ← order? ks
    return ⟨table, condition, order, ← page? ks⟩
  | _ => none

def Source.select (s : Source) (projection : Projection) : Command :=
  .select projection s.table s.condition s.order s.page

theorem select?_eq {projection : Projection}
    (h : projection? ts = some (projection, .word "from" :: ks)) :
    select? ts = (source? ks).map fun s => s.select projection := by
  simp only [select?, h, Option.bind_eq_bind, Option.bind_some]
  cases ks with
  | nil => rfl
  | cons k ks =>
    cases k with
    | name table =>
      cases hc : condition? ks with
      | none => simp [source?, hc]
      | some c =>
        cases ho : order? c.2 with
        | none => simp [source?, hc, ho]
        | some o => cases hp : page? o.2 <;> simp [source?, hc, ho, hp, Source.select]
    | _ => rfl

theorem ofText?_all (text : String) :
    ofText? ("select " ++ "*" ++ " from " ++ text) =
      ((tokens? text).bind source?).map fun s => s.select .all := by
  have start : Lexer.Completes ("select " ++ "*" ++ " from ").toList
      [.word "select", .star, .word "from"] := by decide
  rw [ofText?, tokens?_append start (by decide), Option.map_bind, Option.bind_map]
  congr 1
  funext ks
  exact select?_eq rfl

theorem ofText?_count (text : String) :
    ofText? ("select " ++ "count(*)" ++ " from " ++ text) =
      ((tokens? text).bind source?).map fun s => s.select .count := by
  have start : Lexer.Completes ("select " ++ "count(*)" ++ " from ").toList
      [.word "select", .word "count", .opening, .star, .closing, .word "from"] := by decide
  rw [ofText?, tokens?_append start (by decide), Option.map_bind, Option.bind_map]
  congr 1
  funext ks
  exact select?_eq rfl

theorem source?_eq_some {s : Source} :
    source? ks = some s ↔ ∃ ts us vs, ks = .name s.table :: ts ∧
      condition? ts = some (s.condition, us) ∧ order? us = some (s.order, vs) ∧
      page? vs = some s.page := by
  obtain ⟨table, condition, order, page⟩ := s
  cases ks with
  | nil => simp [source?]
  | cons k ks =>
    cases k with
    | name name =>
      simp only [source?, Option.bind_eq_bind, Option.bind_eq_some_iff, Option.pure_def,
        Prod.exists, Option.some.injEq, Source.mk.injEq, List.cons.injEq, Token.name.injEq]
      constructor
      · rintro ⟨c, us, hc, o, vs, ho, p, hp, rfl, rfl, rfl, rfl⟩
        exact ⟨ks, us, vs, ⟨rfl, rfl⟩, hc, ho, hp⟩
      · rintro ⟨ts, us, vs, ⟨rfl, rfl⟩, hc, ho, hp⟩
        exact ⟨_, us, hc, _, vs, ho, _, hp, rfl, rfl, rfl, rfl⟩
    | _ => simp [source?]

theorem source?_append {p : Page} (hp : page? ps = some p)
    (hk : ps = [] → Lexer.EndsOtherwise ks ∨ Token.word "limit" ∉ ks) {s : Source}
    (h : source? (ks ++ ps) = some s) :
    s.page = p ∧ source? ks = some { s with page := {} } := by
  have begins := beginsPage_of_page? hp
  obtain ⟨ts, us, vs, hks, hc, ho, hv⟩ := source?_eq_some.1 h
  obtain ⟨ts', rfl, rfl⟩ := begins.eq_cons (by simp) hks
  rw [condition?_append begins] at hc
  obtain ⟨⟨c, us'⟩, hc', h⟩ := Option.map_eq_some_iff.1 hc
  obtain ⟨rfl, rfl⟩ : c = s.condition ∧ us' ++ ps = us := Prod.mk.inj h
  rw [order?_append begins] at ho
  obtain ⟨⟨o, vs'⟩, ho', h⟩ := Option.map_eq_some_iff.1 ho
  obtain ⟨rfl, rfl⟩ : o = s.order ∧ vs' ++ ps = vs := Prod.mk.inj h
  have suffix : vs' <:+ .name s.table :: ts' :=
    ((order?_suffix ho').trans (condition?_suffix hc')).trans (List.suffix_append [_] ts')
  -- Tokens left over before the page would begin another page, and that one would either have the
  -- limit of the page in its midst or end what comes before with a number.
  have rest : vs' = [] := by
    cases vs' with
    | nil => rfl
    | cons v vs' =>
      exfalso
      rw [List.cons_append] at hv
      obtain ⟨rfl, hl, he⟩ := page?_cons hv
      cases ps with
      | cons k ps =>
        obtain rfl := begins k rfl
        simp at hl
      | nil =>
        simp only [List.append_nil] at hk he suffix
        rcases hk trivial with hk | hk
        · exact he (Text.Ends.of_suffix hk suffix (by simp))
        · exact hk (suffix.subset (by simp))
  subst rest
  have page_eq : s.page = p := Option.some.inj (hv.symm.trans hp)
  exact ⟨page_eq, source?_eq_some.2 ⟨ts', us', [], rfl, hc', ho', rfl⟩⟩

theorem page?_eq_empty (h : page? ts = some {}) : ts = [] := by
  cases ts with
  | nil => rfl
  | cons k ts =>
    unfold page? at h
    split at h <;> simp_all

theorem source?_page {p : Page} (hp : page? ps = some p) {s : Source}
    (h : source? ks = some { s with page := {} }) :
    source? (ks ++ ps) = some { s with page := p } := by
  have begins := beginsPage_of_page? hp
  obtain ⟨ts, us, vs, rfl, hc, ho, hv⟩ := source?_eq_some.1 h
  obtain rfl := page?_eq_empty hv
  refine source?_eq_some.2 ⟨ts ++ ps, us ++ ps, ps, rfl, ?_, ?_, hp⟩
  · rw [condition?_append begins, hc]
    rfl
  · rw [order?_append begins, ho]
    rfl

theorem source?_order_nil {s : Source} (h : source? ks = some { s with page := {} })
    (hk : Lexer.EndsClosed ks ∨ Token.word "order" ∉ ks) : s.order = [] := by
  obtain ⟨ts, us, vs, rfl, hc, ho, hv⟩ := source?_eq_some.1 h
  obtain rfl := page?_eq_empty hv
  have suffix : us <:+ .name s.table :: ts :=
    (condition?_suffix hc).trans (List.suffix_append [_] ts)
  cases us with
  | nil => exact order?_eq_nil ho (.inr (by simp))
  | cons u us =>
    exact order?_eq_nil ho (hk.imp (fun hk => hk.of_suffix suffix (by simp))
      fun hk hu => hk (suffix.subset hu))

end Command

end Tabular.Sql
