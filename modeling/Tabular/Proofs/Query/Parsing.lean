import Tabular.Proofs.Compile.Ending
import Tabular.Proofs.Query.Building
import Tabular.Proofs.Sql.Selecting

namespace Tabular

open Sql (Command Page Token tokens? tokens?_eq_some)
open Sql.Command (Source source?)
open Sql.Lexer (Completes EndsOtherwise IsClosing IsSolid read? read?_join read?_digits
  read?_endsOtherwise)
open Text (Ends)

namespace Query

variable {q : Query} {f : Fragment}

def unpaged (q : Query) : Query := { q with limit := none, offset := none }

def page (q : Query) : Page where
  limit := match q.limit with
    | some l => some l
    | none => q.offset.map fun _ => -1
  offset := q.offset

def body (q : Query) (condition : Fragment) : String :=
  q.mapping.quotedName ++ condition.sql ++ q.orderClause

theorem build_eq_ok {columns : String} {stmt : Statement} :
    q.build columns = .ok stmt ↔ ∃ f, q.whereClause = .ok f ∧
      stmt = ⟨"select " ++ columns ++ " from " ++ (q.body f ++ q.pageClause), f.args⟩ := by
  simp only [build, bind_eq_ok, pure, Except.pure, Except.ok.injEq, @eq_comm _ stmt, body,
    String.append_assoc]

def pageTokens (q : Query) : List Token :=
  match q.limit, q.offset with
  | none, none => []
  | some l, none => [.word "limit", .number l]
  | some l, some o => [.word "limit", .number l, .word "offset", .number o]
  | none, some o => [.word "limit", .minus, .number 1, .word "offset", .number o]

theorem page?_pageTokens (q : Query) : Sql.page? q.pageTokens = some q.page := by
  unfold pageTokens page
  cases q.limit <;> cases q.offset <;> rfl

theorem read?_pageClause (q : Query) : read? q.pageClause.toList = some q.pageTokens := by
  have limit : Completes " limit ".toList [.word "limit"] := by decide
  have offset : Completes " offset ".toList [.word "offset"] := by decide
  have unlimited : Completes " limit -1  offset ".toList
      [.word "limit", .minus, .number 1, .word "offset"] := by decide
  unfold pageClause pageTokens number
  cases q.limit with
  | none =>
    cases q.offset with
    | none => rfl
    | some o => simpa using unlimited.read?_append (read?_digits o)
  | some l =>
    cases q.offset with
    | none => simpa using limit.read?_append (read?_digits l)
    | some o =>
      simpa using limit.read?_append (read?_join offset rfl (read?_digits l) (read?_digits o))

theorem pageClause_cases (q : Query) :
    (q.pageClause.toList = [] ∧ q.pageTokens = []) ∨
      ∃ cs, q.pageClause.toList = ' ' :: cs ∧ ∀ c ∈ cs, c ≠ '"' ∧ c ≠ '\x27' := by
  have digits (n : Nat) : ∀ c ∈ Decimal.digits n, c ≠ '"' ∧ c ≠ '\x27' := by
    intro c hc
    have := Decimal.digits_isDigit hc
    constructor <;> rintro rfl <;> revert this <;> decide
  have limit : ∀ c ∈ "limit ".toList, c ≠ '"' ∧ c ≠ '\x27' := by simp
  have offset : ∀ c ∈ " offset ".toList, c ≠ '"' ∧ c ≠ '\x27' := by simp
  have unlimited : ∀ c ∈ "limit -1  offset ".toList, c ≠ '"' ∧ c ≠ '\x27' := by simp
  unfold pageClause pageTokens number
  cases q.limit with
  | none =>
    cases q.offset with
    | none => exact .inl ⟨rfl, rfl⟩
    | some o =>
      refine .inr ⟨"limit -1  offset ".toList ++ Decimal.digits o, by simp, ?_⟩
      exact List.forall_mem_append.2 ⟨unlimited, digits o⟩
  | some l =>
    cases q.offset with
    | none =>
      refine .inr ⟨"limit ".toList ++ Decimal.digits l, by simp, ?_⟩
      exact List.forall_mem_append.2 ⟨limit, digits l⟩
    | some o =>
      refine .inr ⟨"limit ".toList ++ (Decimal.digits l ++ (" offset ".toList ++
        Decimal.digits o)), by simp, ?_⟩
      simp only [List.forall_mem_append]
      exact ⟨limit, digits l, offset, digits o⟩

theorem read?_body {ks : List Token} (h : read? (q.body f ++ q.pageClause).toList = some ks) :
    ∃ us, read? (q.body f).toList = some us ∧ ks = us ++ q.pageTokens := by
  rw [String.toList_append] at h
  rcases q.pageClause_cases with ⟨hp, hk⟩ | ⟨cs, hp, hq⟩
  · rw [hp, List.append_nil] at h
    exact ⟨ks, h, by rw [hk, List.append_nil]⟩
  · rw [hp] at h
    obtain ⟨us, vs, hu, hv, rfl⟩ := Sql.Lexer.read?_split h hq
    have page := q.read?_pageClause
    rw [hp, hv] at page
    exact ⟨us, hu, by rw [Option.some.inj page]⟩

def SortsByNames (q : Query) : Prop := ∀ k ∈ q.orderings, ∃ name, k.column = quoteIdentifier name

theorem sortsByNames_after (t : TableMapping) (steps : List Step) :
    ((ofMapping t).after steps).SortsByNames := by
  refine after_induction (motive := SortsByNames) (by simp [SortsByNames, ofMapping]) ?_ steps
  intro q s q' hq h
  rcases apply_eq_ok h with ⟨_, _, rfl⟩ | ⟨key, ascending, column, hk, rfl⟩ | ⟨_, _, _, rfl⟩
  · exact hq
  · intro k hm
    rcases List.mem_append.1 hm with hm | hm
    · exact hq k hm
    · obtain rfl := List.mem_singleton.1 hm
      obtain ⟨_, c, _, _, rfl⟩ := keyColumn_eq_ok.1 hk
      exact ⟨c.name, rfl⟩
  · exact hq

theorem orderClause_ends (hq : q.SortsByNames) :
    q.orderClause = "" ∨ Ends IsSolid q.orderClause.toList := by
  have key : ∀ k ∈ q.orderings, Ends IsSolid k.sql.toList := by
    intro k hk
    obtain ⟨name, hn⟩ := hq k hk
    unfold SortKey.sql
    split
    · rw [hn]
      exact quoteIdentifier_ends name
    · rw [String.toList_append]
      exact .append _ ⟨'c', rfl, rfl, rfl⟩
  unfold orderClause
  split
  · exact .inl rfl
  · next h =>
    rw [String.toList_append, String.toList_intercalate]
    refine .inr (.append _ (Text.ends_intercalate _ (by simpa using h) ?_))
    intro xs hxs
    simp only [List.map_map, List.mem_map, Function.comp_apply] at hxs
    obtain ⟨k, hk, rfl⟩ := hxs
    exact key k hk

theorem body_unordered (ho : q.orderClause = "") (hf : q.whereClause = .ok f) {us : List Token}
    (h : read? (q.body f).toList = some us) :
    Ends IsClosing (q.body f).toList ∨ ∀ s, Token.word s ∈ us → s = "where" := by
  have table := Sql.Lexer.read?_quoteIdentifier q.mapping.tableName
  unfold whereClause at hf
  cases hp : q.predicate with
  | none =>
    rw [hp] at hf
    cases hf
    have body_eq : (q.body { sql := "", args := [] }).toList =
        (quoteIdentifier q.mapping.tableName).toList := by
      simp [body, ho, TableMapping.quotedName]
    rw [body_eq, table] at h
    cases h
    exact .inr (by simp)
  | some p =>
    simp only [hp, bind_eq_ok] at hf
    obtain ⟨g, hg, hf⟩ := hf
    cases hf
    rcases TableMapping.fragment_ends hg with he | ⟨ks, hk, hw⟩
    · exact .inl (by simpa [body, ho] using (he.append " where ".toList).append _)
    -- The condition is a member or a comparison with zero, and its tokens are known.
    · have sep : Completes " where ".toList [.word "where"] := by decide
      have read := read?_join sep rfl table hk
      have body_eq : (q.body { sql := " where " ++ g.sql, args := g.args }).toList =
          (quoteIdentifier q.mapping.tableName).toList ++ (" where ".toList ++ g.sql.toList) := by
        simp [body, ho, TableMapping.quotedName]
      rw [body_eq, read] at h
      cases h
      exact .inr fun s hs => by simpa [hw] using hs

theorem body_endsOtherwise (hq : q.SortsByNames) (hf : q.whereClause = .ok f) {us : List Token}
    (h : read? (q.body f).toList = some us) : EndsOtherwise us ∨ Token.word "limit" ∉ us := by
  rcases orderClause_ends hq with ho | ho
  · rcases body_unordered ho hf h with he | hw
    · exact .inl (read?_endsOtherwise (he.imp fun _ => .imp_right IsClosing.isSolid) h)
    · exact .inr fun hl => absurd (hw _ hl) (by decide)
  · have he : Ends IsSolid (q.body f).toList := by
      simpa [body] using (ho.append f.sql.toList).append _
    exact .inl (read?_endsOtherwise he h)

theorem source?_body (hq : q.SortsByNames) (hf : q.whereClause = .ok f) {src : Source}
    (h : (tokens? (q.body f ++ q.pageClause)).bind source? = some src) :
    src.page = q.page ∧ (tokens? (q.body f)).bind source? = some { src with page := {} } := by
  obtain ⟨ks, hk, hs⟩ := Option.bind_eq_some_iff.1 h
  obtain ⟨hz, hk⟩ := tokens?_eq_some.1 hk
  obtain ⟨us, hu, rfl⟩ := read?_body hk
  have last (_ : q.pageTokens = []) : EndsOtherwise us ∨ Token.word "limit" ∉ us :=
    body_endsOtherwise hq hf hu
  obtain ⟨page_eq, rest⟩ := Command.source?_append q.page?_pageTokens last hs
  have plain : '\x00' ∉ (q.body f).toList := by
    intro hm
    exact hz (by simp [hm])
  exact ⟨page_eq, Option.bind_eq_some_iff.2 ⟨us, tokens?_eq_some.2 ⟨plain, hu⟩, rest⟩⟩

theorem ofText?_statement (hq : q.SortsByNames) {stmt : Statement} (hs : q.statement = .ok stmt)
    {cmd : Command} (hc : Command.ofText? stmt.sql = some cmd) :
    ∃ (src : Source) (counting listing : Statement),
      q.count = .ok counting ∧ counting.args = stmt.args ∧
      q.unpaged.statement = .ok listing ∧ listing.args = stmt.args ∧ src.page = q.page ∧
      Command.ofText? stmt.sql = some (src.select .all) ∧
      Command.ofText? counting.sql = some (src.select .count) ∧
      Command.ofText? listing.sql = some ({ src with page := {} : Source }.select .all) := by
  obtain ⟨f, hf, rfl⟩ := build_eq_ok.1 hs
  have parsed := hc
  rw [Command.ofText?_all] at parsed
  obtain ⟨src, hsrc, rfl⟩ := Option.map_eq_some_iff.1 parsed
  obtain ⟨page_eq, rest⟩ := source?_body hq hf hsrc
  have unpaged : q.unpaged.body f ++ q.unpaged.pageClause = q.body f := String.append_empty
  refine ⟨src, _, _, build_eq_ok.2 ⟨f, hf, rfl⟩, rfl, build_eq_ok.2 ⟨f, hf, rfl⟩, rfl, page_eq, hc,
    ?_, ?_⟩
  · rw [Command.ofText?_count, hsrc]
    rfl
  · rw [Command.ofText?_all, unpaged, rest]
    rfl

end Query

end Tabular
