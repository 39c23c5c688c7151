import Tabular.Proofs.Compile.Naming
import Tabular.Proofs.Query.Assembly
import Tabular.Proofs.Query.Parsing
import Tabular.Proofs.Schema.Naming

namespace Tabular.Query

open Sql (Shows holdsOperator isPlainName namesIn? namesIn?_append namesIn?_end namesIn?_front
  namesIn?_join namesIn?_list namesIn?_quoteIdentifier)
open Sql.Lexer (endsToken isNameless)

variable {t : TableMapping} {q : Query} {steps : List Step} {stmt : Statement}
  {picked : List String}

/-- A statement on the rows of a query, and the names of what it asks for. -/
inductive Asks (q : Query) : Statement → List String → Prop
  | rows {stmt : Statement} : q.statement = .ok stmt → Asks q stmt []
  | count {stmt : Statement} : q.count = .ok stmt → Asks q stmt []
  | column {stmt : Statement} {key : Expr} {c : Column} : q.mapping.keyColumn? key = some c →
      q.select key = .ok stmt → Asks q stmt [c.name]

def conditionMembers (steps : List Step) : List (String × Bool) :=
  (steps.filterMap Step.condition?).flatMap (Expr.members false)

def sortedNames (t : TableMapping) (steps : List Step) : List String :=
  (steps.filterMap (Step.sorted? t)).map fun k => k.1.name

theorem conjunction_members {ps : List Expr} {e : Expr} (h : conjunction ps = some e) :
    e.members false = ps.flatMap (Expr.members false) ∧ e.methods = ps.flatMap Expr.methods := by
  induction ps using List.reverseRecOn generalizing e with
  | nil => cases h
  | append_singleton ps p ih =>
    rw [conjunction_append] at h
    cases hc : conjunction ps with
    | none =>
      cases ps with
      | nil => simp_all [conjunction]
      | cons => cases hc
    | some e' =>
      obtain ⟨members, methods⟩ := ih hc
      simp only [hc, Option.elim_some, Option.some.injEq] at h
      subst h
      simp [Expr.members, Expr.methods, members, methods]

theorem order_names {keys : List (Column × Bool)} (h : q.orderings = keys.map sortKey) :
    namesIn? q.orderClause.toList = some (keys.map fun k => k.1.name) ∧
      q.orderClause.toList.head?.all endsToken := by
  have key (k : Column × Bool) : namesIn? (sortKey k).sql.toList = some [k.1.name] := by
    have column : namesIn? k.1.quotedName.toList = some [k.1.name] :=
      namesIn?_quoteIdentifier k.1.name
    have downwards : namesIn? " desc".toList = some [] := by decide
    unfold sortKey SortKey.sql
    split
    · exact column
    · rw [String.toList_append]
      exact namesIn?_append column downwards rfl
  have comma : isNameless ", ".toList := by decide
  have front : isNameless " order by ".toList := by decide
  have items := namesIn?_list ", " comma rfl key keys
  unfold orderClause
  rw [h, List.isEmpty_map, List.map_map]
  split
  · next hk => simp [List.isEmpty_iff.1 hk]; rfl
  · exact ⟨by simpa [Function.comp_def] using namesIn?_front front items, by simp [endsToken]⟩

theorem page_names (q : Query) :
    namesIn? q.pageClause.toList = some [] ∧ q.pageClause.toList.head?.all endsToken := by
  constructor
  · rw [namesIn?, read?_pageClause, Option.map_some]
    unfold pageTokens
    cases q.limit <;> cases q.offset <;> rfl
  · rcases q.pageClause_cases with ⟨h, _⟩ | ⟨cs, h, _⟩ <;> rw [h] <;> rfl

theorem Records.where_names (h : Records t steps q)
    (hm : ∀ e ∈ steps.filterMap Step.condition?, ∀ m ∈ e.methods, isPlainName m)
    {f : Fragment} (hf : q.whereClause = .ok f) : ∃ columns ns,
      t.Covers (conditionMembers steps) columns ∧
      List.Forall₂ Shows columns ns ∧ namesIn? f.sql.toList = some ns ∧
      f.sql.toList.head?.all endsToken := by
  unfold whereClause at hf
  rw [h.predicate] at hf
  cases hc : conjunction (steps.filterMap Step.condition?) with
  | none =>
    rw [hc] at hf
    cases hf
    have none : steps.filterMap Step.condition? = [] := by
      cases hs : steps.filterMap Step.condition? with
      | nil => rfl
      | cons => simp [hs, conjunction] at hc
    rw [conditionMembers, none]
    exact ⟨[], [], .nil, .nil, rfl, rfl⟩
  | some e =>
    rw [hc] at hf
    obtain ⟨g, hg, hf⟩ := bind_eq_ok.1 hf
    cases hf
    rw [h.mapping] at hg
    obtain ⟨members, methods⟩ := conjunction_members hc
    have plain : ∀ m ∈ e.methods, isPlainName m := by
      intro m hmem
      rw [methods] at hmem
      obtain ⟨p, hp, hmem⟩ := List.mem_flatMap.1 hmem
      exact hm p hp m hmem
    obtain ⟨columns, ns, hns, covers, shown⟩ := TableMapping.fragment_names plain hg
    have front : isNameless " where ".toList := by decide
    rw [members] at covers
    refine ⟨columns, ns, covers, shown, ?_, by simp [endsToken]⟩
    simpa using namesIn?_front front hns

theorem Records.body_names (h : Records t steps q)
    (hm : ∀ e ∈ steps.filterMap Step.condition?, ∀ m ∈ e.methods, isPlainName m)
    {f : Fragment} (hf : q.whereClause = .ok f) : ∃ columns ns,
      t.Covers (conditionMembers steps) columns ∧
      List.Forall₂ Shows columns ns ∧
      namesIn? (q.body f ++ q.pageClause).toList = some (t.tableName ::
        (ns ++ sortedNames t steps)) := by
  obtain ⟨columns, ns, covers, shown, hns, hw⟩ := h.where_names hm hf
  obtain ⟨ordered, ho⟩ := order_names h.orderings
  obtain ⟨paged, hp⟩ := q.page_names
  have table : namesIn? q.mapping.quotedName.toList = some [t.tableName] := by
    rw [h.mapping]
    exact namesIn?_quoteIdentifier t.tableName
  have text := namesIn?_append (namesIn?_append (namesIn?_append table hns hw) ordered ho) paged hp
  exact ⟨columns, ns, covers, shown, by simpa [body, sortedNames] using text⟩

theorem Asks.text (h : q.Asks stmt picked) :
    ∃ columns f, q.whereClause = .ok f ∧ namesIn? columns.toList = some picked ∧
      stmt.sql = "select " ++ columns ++ " from " ++ (q.body f ++ q.pageClause) := by
  cases h with
  | rows hs =>
    obtain ⟨f, hf, rfl⟩ := build_eq_ok.1 hs
    exact ⟨"*", f, hf, by decide, rfl⟩
  | count hs =>
    obtain ⟨f, hf, rfl⟩ := build_eq_ok.1 hs
    exact ⟨"count(*)", f, hf, by decide, rfl⟩
  | @column key c hk hs =>
    have column : q.keyColumn (.projectionKey key) key = .ok c.quotedName :=
      keyColumn_eq_ok_iff.2 ⟨c, hk, rfl⟩
    rw [Query.select, column] at hs
    obtain ⟨f, hf, rfl⟩ := build_eq_ok.1 hs
    exact ⟨c.quotedName, f, hf, namesIn?_quoteIdentifier c.name, rfl⟩

theorem declares_columnName {property : String} {c : Column} (h : t.columnOf property = .ok c) :
    t.Declares c.name := by
  unfold TableMapping.columnOf at h
  split at h
  · next hc =>
    cases h
    exact .inr ⟨c, List.mem_of_find?_eq_some hc, rfl⟩
  · cases h

theorem declares_keyColumn {key : Expr} {c : Column} (h : t.keyColumn? key = some c) :
    t.Declares c.name := by
  obtain ⟨_, _, hc⟩ := TableMapping.keyColumn?_eq_some.1 h
  exact declares_columnName hc

theorem declares_sorted : ∀ name ∈ sortedNames t steps, t.Declares name := by
  intro name hn
  obtain ⟨⟨c, ascending⟩, hk, rfl⟩ := List.mem_map.1 hn
  obtain ⟨s, _, hs⟩ := List.mem_filterMap.1 hk
  cases s with
  | orderBy key | orderByDescending key =>
    obtain ⟨_, hc, h⟩ := Option.map_eq_some_iff.1 hs
    cases h
    exact declares_keyColumn hc
  | _ => cases hs

theorem declares_covered {ms columns : List (String × Bool)} (h : t.Covers ms columns) :
    ∀ name ∈ columns.map Prod.fst, t.Declares name := by
  intro name hn
  obtain ⟨k, hk, rfl⟩ := List.mem_map.1 hn
  obtain ⟨m, _, hm⟩ := List.mem_filterMap.1 (h.perm.subset hk)
  obtain ⟨c, hc, rfl⟩ := Option.map_eq_some_iff.1 hm
  cases ho : t.columnOf m.1 with
  | error => simp [ho] at hc
  | ok c' =>
    obtain rfl : c' = c := by simpa [ho] using hc
    exact declares_columnName ho

/-- No column of a call that is negated has something in its name that negation changes. -/
def KeepsNames (t : TableMapping) (steps : List Step) : Prop :=
  ∀ m ∈ t.columnNames (conditionMembers steps), m.2 → holdsOperator m.1 = false

instance (t : TableMapping) (steps : List Step) : Decidable (KeepsNames t steps) :=
  inferInstanceAs (Decidable (∀ m ∈ _, _))

theorem Asks.names (h : ((ofMapping t).after steps).Asks stmt picked)
    (hm : ∀ e ∈ steps.filterMap Step.condition?, ∀ m ∈ e.methods, isPlainName m) :
    ∃ columns ns,
      t.Covers (conditionMembers steps) columns ∧
      List.Forall₂ Shows columns ns ∧
      namesIn? stmt.sql.toList = some (picked ++ t.tableName ::
        (ns ++ sortedNames t steps)) := by
  obtain ⟨asked, f, hf, hpicked, hsql⟩ := h.text
  obtain ⟨columns, ns, covers, shown, hns⟩ := (records_after t steps).body_names hm hf
  have select : isNameless "select ".toList := by decide
  have separator : isNameless " from ".toList := by decide
  have text := namesIn?_front select (namesIn?_join separator rfl hpicked hns)
  exact ⟨columns, ns, covers, shown, by simpa [hsql] using text⟩

theorem Asks.picked_declared (h : ((ofMapping t).after steps).Asks stmt picked) :
    ∀ name ∈ picked, t.Declares name := by
  cases h with
  | rows | count => simp
  | @column key c hk =>
    rw [mapping_after] at hk
    exact List.forall_mem_singleton.2 (declares_keyColumn hk)

theorem names_declared (t : TableMapping) :
    (∀ steps, (∀ e ∈ steps.filterMap Step.condition?, ∀ m ∈ e.methods, isPlainName m) →
      ∀ stmt picked, ((ofMapping t).after steps).Asks stmt picked → ∃ columns ns names,
        t.Covers (conditionMembers steps) columns ∧
        List.Forall₂ Shows columns ns ∧
        names = picked ++ t.tableName ::
          (ns ++ sortedNames t steps) ∧
        namesIn? stmt.sql.toList = some names ∧
        (KeepsNames t steps → ns = columns.map Prod.fst ∧ ∀ name ∈ names, t.Declares name)) ∧
    (∀ stmt, t.Writes stmt →
      ∃ names, namesIn? stmt.sql.toList = some names ∧ ∀ name ∈ names, t.Declares name) := by
  constructor
  · intro steps hm stmt picked h
    obtain ⟨columns, ns, covers, shown, text⟩ := h.names hm
    refine ⟨columns, ns, _, covers, shown, rfl, text, fun keeps => ?_⟩
    obtain rfl : ns = columns.map Prod.fst :=
      Sql.eq_of_shows shown fun m hm => keeps m (covers.perm.subset hm)
    refine ⟨rfl, ?_⟩
    simp only [List.forall_mem_append, List.forall_mem_cons]
    exact ⟨h.picked_declared, .inl rfl, declares_covered covers, declares_sorted⟩
  · intro stmt h
    obtain ⟨cs, hcs, text⟩ := h.names
    exact ⟨_, text, TableMapping.declares_of_columns hcs⟩

def titlesNotStartingWith (start : String) : List Step :=
  let starts : Expr := .invoke (.field "Title") "starts_with" [.captured "s" (.text start)]
  [.filter (.lambda 1 (.not starts)), .orderBy (.lambda 1 (.field "Id"))]

theorem names_declared_notes :
    let t := TableMapping.notes
    let steps := titlesNotStartingWith "a"
    (∀ e ∈ steps.filterMap Step.condition?, ∀ m ∈ e.methods, isPlainName m) ∧
      KeepsNames t steps ∧ ∃ stmt, ((ofMapping t).after steps).Asks stmt [] ∧
        stmt.sql = "select * from \"notes\" where (\"title\" not like (? || '%')) order by \"id\"" ∧
        ∃ names, namesIn? stmt.sql.toList = some names ∧ ∀ name ∈ names, t.Declares name := by
  have hm : ∀ e ∈ (titlesNotStartingWith "a").filterMap Step.condition?, ∀ m ∈ e.methods,
      isPlainName m := by decide
  have keeps : KeepsNames .notes (titlesNotStartingWith "a") := by decide
  have asks : ((ofMapping .notes).after (titlesNotStartingWith "a")).Asks
      ⟨"select * from \"notes\" where (\"title\" not like (? || '%')) order by \"id\"",
        [.text "a"]⟩ [] := .rows rfl
  obtain ⟨columns, ns, names, _, _, _, text, declared⟩ :=
    (names_declared .notes).1 _ hm _ _ asks
  exact ⟨hm, keeps, _, asks, rfl, names, text, (declared keeps).2⟩

def notesTitled (name : String) : TableMapping :=
  { TableMapping.notes with
    columns := TableMapping.notes.columns.map fun c =>
      if c.property = "Title" then { c with name := name } else c }

theorem not_declared_of_negated :
    let t := notesTitled "looks like this"
    let steps := titlesNotStartingWith "a"
    (∀ e ∈ steps.filterMap Step.condition?, ∀ m ∈ e.methods, isPlainName m) ∧
      ∃ stmt, ((ofMapping t).after steps).Asks stmt [] ∧
        stmt.sql = "select * from \"notes\" where (\"looks not like this\" not like (? || '%')) " ++
          "order by \"id\"" ∧
        namesIn? stmt.sql.toList = some ["notes", "looks not like this", "id"] ∧
        ¬ t.Declares "looks not like this" := by
  exact ⟨by decide, _, .rows rfl, rfl, by decide +kernel, by decide⟩

end Tabular.Query
