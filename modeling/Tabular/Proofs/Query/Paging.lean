import Tabular.Proofs.Query.Parsing

namespace Tabular.Query

open Sql (Command Token tokens? tokens?_eq_some)
open Sql.Command (Source source?)
open Sql.Lexer (endsToken read? read?_append read?_endsClosed)

variable {q : Query} {f : Fragment}

def paged (q : Query) (limit offset : Option Nat) : Query := { q with limit, offset }

theorem nul_notMem_pageClause (q : Query) : '\x00' ∉ q.pageClause.toList := by
  have digits (n : Nat) : '\x00' ∉ Decimal.digits n := by
    intro h
    have := Decimal.digits_isDigit h
    revert this
    decide
  unfold pageClause number
  cases q.limit <;> cases q.offset <;> simp [digits]

theorem read?_page {text : String} {us : List Token} (h : read? text.toList = some us) (q : Query) :
    read? (text ++ q.pageClause).toList = some (us ++ q.pageTokens) := by
  have page := q.read?_pageClause
  rw [String.toList_append]
  rcases q.pageClause_cases with ⟨hp, hk⟩ | ⟨cs, hp, _⟩
  · rw [hp, hk, List.append_nil, List.append_nil, h]
  · rw [hp] at page ⊢
    rw [read?_append h rfl, page, Option.map_some]

theorem source?_paged {text : String} {src : Source}
    (h : (tokens? text).bind source? = some { src with page := {} }) (q : Query) :
    (tokens? (text ++ q.pageClause)).bind source? = some { src with page := q.page } := by
  obtain ⟨us, hu, hs⟩ := Option.bind_eq_some_iff.1 h
  obtain ⟨hz, hu⟩ := tokens?_eq_some.1 hu
  refine Option.bind_eq_some_iff.2 ⟨us ++ q.pageTokens, tokens?_eq_some.2 ⟨?_, read?_page hu q⟩, ?_⟩
  · rw [String.toList_append, List.mem_append]
    exact not_or.2 ⟨hz, q.nul_notMem_pageClause⟩
  · exact Command.source?_page q.page?_pageTokens hs

theorem order_eq_nil (ho : q.orderings = []) (hf : q.whereClause = .ok f) {src : Source}
    (h : (tokens? (q.body f)).bind source? = some { src with page := {} }) : src.order = [] := by
  obtain ⟨us, hu, hs⟩ := Option.bind_eq_some_iff.1 h
  have read := (tokens?_eq_some.1 hu).2
  have unordered : q.orderClause = "" := by
    rw [orderClause, ho]
    rfl
  refine Command.source?_order_nil hs ((body_unordered unordered hf read).imp ?_ ?_)
  · exact fun he => read?_endsClosed he read
  · exact fun hw hl => absurd (hw _ hl) (by decide)

theorem ofText?_paged (hq : q.SortsByNames) {stmt : Statement} (hs : q.statement = .ok stmt)
    {cmd : Command} (hc : Command.ofText? stmt.sql = some cmd) : ∃ src : Source,
      (q.orderings = [] → src.order = []) ∧
      ∀ limit offset, ∃ paged : Statement, (q.paged limit offset).statement = .ok paged ∧
        paged.args = stmt.args ∧ Command.ofText? paged.sql =
          some ({ src with page := (q.paged limit offset).page : Source }.select .all) := by
  obtain ⟨f, hf, rfl⟩ := build_eq_ok.1 hs
  rw [Command.ofText?_all] at hc
  obtain ⟨src, hsrc, _⟩ := Option.map_eq_some_iff.1 hc
  obtain ⟨_, unpaged⟩ := source?_body hq hf hsrc
  refine ⟨src, fun ho => order_eq_nil ho hf unpaged, fun limit offset =>
    ⟨_, build_eq_ok.2 ⟨f, hf, rfl⟩, rfl, ?_⟩⟩
  have body_eq : (q.paged limit offset).body f = q.body f := rfl
  rw [Command.ofText?_all, body_eq, source?_paged unpaged, Option.map_some]

end Tabular.Query
