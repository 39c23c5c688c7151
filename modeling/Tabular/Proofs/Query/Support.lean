import Tabular.Proofs.Compile.Support
import Tabular.Query

namespace Tabular

namespace Query

variable {q : Query} {p n : Expr}

theorem build_of_unsupported (hp : q.predicate = some p) (hn : p.Contains n)
    (h : q.mapping.Unsupported n) (columns : String) : ∃ fault, q.build columns = .error fault := by
  obtain ⟨fault, hf⟩ := TableMapping.fragment_of_unsupported hn h
  refine ⟨fault, ?_⟩
  rw [build, whereClause, hp]
  simp only [hf]
  rfl

theorem select_of_unsupported (hp : q.predicate = some p) (hn : p.Contains n)
    (h : q.mapping.Unsupported n) (key : Expr) : ∃ fault, q.select key = .error fault := by
  rw [select]
  cases q.keyColumn (.projectionKey key) key with
  | error fault => exact ⟨fault, rfl⟩
  | ok column => exact build_of_unsupported hp hn h column

end Query

namespace TableMapping

theorem compile_unsupported (t : TableMapping) (e : Expr) (params : List Datum) :
    ((∃ n, e.Contains n ∧ t.Unsupported n) →
      (∃ fault, t.compile e params = (.error fault, params)) ∧
      ∀ (q : Query) (p : Expr), q.mapping = t → q.predicate = some p → p.Contains e →
        (∃ fault, q.statement = .error fault) ∧ (∃ fault, q.count = .error fault) ∧
        ∀ key, ∃ fault, q.select key = .error fault) ∧
    ((∀ n, e.Contains n → ¬ t.Unsupported n) →
      ((∃ f params', t.compile e params = (.ok f, params')) ↔ ∀ n ∈ e.nodes, t.Settles n)) := by
  refine ⟨?_, fun supported => ?_⟩
  · rintro ⟨n, hn, unsupported⟩
    constructor
    · obtain ⟨fault, hf⟩ := fragment_of_unsupported hn unsupported
      exact ⟨fault, by rw [compile, hf]⟩
    · rintro q p rfl hp inside
      have deep := inside.trans hn
      exact ⟨Query.build_of_unsupported hp deep unsupported "*",
        Query.build_of_unsupported hp deep unsupported "count(*)",
        Query.select_of_unsupported hp deep unsupported⟩
  · simp only [compile_eq_ok]
    constructor
    · rintro ⟨f, _, hf, _⟩
      exact (exists_fragment_iff.1 ⟨f, hf⟩).2
    · intro settles
      obtain ⟨f, hf⟩ := exists_fragment_iff.2 ⟨supported, settles⟩
      exact ⟨f, _, hf, rfl⟩

theorem compile_unsupported_notes :
    let n : Expr := .member (.convert (.field "Title") .text) "len"
    let e : Expr := .not (.call "like" [.field "Title", n])
    let p : Expr := .binary .and (.field "Id") e
    let q : Query := { mapping := notes, predicate := some p }
    let plain : Expr := .binary .eq (.field "Title") (.convert (.constant .null) .uuid)
    ((e.Contains n ∧ notes.Unsupported n) ∧
      ∃ fault, notes.compile e [.integer 1] = (.error fault, [.integer 1])) ∧
    (p.Contains e ∧ (∃ fault, q.statement = .error fault) ∧ (∃ fault, q.count = .error fault) ∧
      ∃ fault, q.select (.lambda 1 (.field "Id")) = .error fault) ∧
    ((∀ m, plain.Contains m → ¬ notes.Unsupported m) ∧ (∀ m ∈ plain.nodes, notes.Settles m) ∧
      ∃ f params', notes.compile plain [] = (.ok f, params')) := by
  intro n e p q plain
  have inside : e.Contains n := .within (.head _) (.within (.tail _ (.head _)) (.self n))
  have unsupported : notes.Unsupported n := .belowMember (.within (.head _) (.self _))
  have part : p.Contains e := .within (.tail _ (.head _)) (.self e)
  obtain ⟨supported, settles⟩ := exists_fragment_iff.1 ⟨_, show notes.fragment plain = .ok _ by rfl⟩
  obtain ⟨refused, queries⟩ := (compile_unsupported notes e [.integer 1]).1 ⟨n, inside, unsupported⟩
  obtain ⟨statement, count, select⟩ := queries q p rfl rfl part
  exact ⟨⟨⟨inside, unsupported⟩, refused⟩, ⟨part, statement, count, select _⟩, supported, settles,
    ((compile_unsupported notes plain []).2 supported).2 settles⟩

end TableMapping

end Tabular
