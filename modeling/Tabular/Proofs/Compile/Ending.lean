import Tabular.Proofs.Compile.Tokens
import Tabular.Proofs.Sql.Ending

namespace Tabular

open Marked (ofString)
open Sql.Lexer (IsClosing IsSolid read?)
open Text (Ends)

def Marked.Closes (ms : Marked) : Prop := Ends IsClosing ms.text

theorem Marked.closes_append (ms : Marked) : (ms ++ ofString ")").Closes := by
  rw [Marked.Closes, Marked.text_append]
  exact Text.ends_append_singleton _ (.inl rfl)

theorem Marked.Closes.negated {ms : Marked} (h : ms.Closes) : ms.negated.Closes := by
  have alike : ∀ n ∈ Fragment.negations, (ofString n.2).getLast? = (ofString n.1).getLast? := by
    decide
  rcases Marked.negated_cases ms with he | ⟨n, hn, hr⟩
  · rwa [he]
  · exact Text.ends_map.2 (hr.ends (alike n hn) (Text.ends_map.1 h))

theorem quoteIdentifier_ends (name : String) : Ends IsSolid (quoteIdentifier name).toList := by
  rw [quoteIdentifier, String.toList_ofList]
  exact Text.ends_append_singleton ('"' :: Text.Delimited.double '"' name.toList) ⟨rfl, rfl⟩

theorem Clause.closes_of_isEnclosed {c : Clause} (h : c.isEnclosed) : c.write.Closes := by
  induction c using Clause.induction with
  | negated c ih => exact (ih h).negated
  | datum | column | literal | isFalse => cases h
  | anywhere part =>
    have last : ofString " || '%')" = ofString " || '%'" ++ ofString ")" := by decide
    rw [write, last, ← List.append_assoc]
    exact Marked.closes_append _
  | list | brackets | infixed | apply => exact Marked.closes_append _

namespace TableMapping

variable {t : TableMapping} {e : Expr} {c : Clause}

theorem clause_closes (h : t.clause e = some c) : c.write.Closes ∨ (∃ name, c = .column name) ∨
    ∃ operand d, operand.isRead ∧ t.clause operand = some d ∧ c = .isFalse d := by
  cases he : e.isTest with
  | true => exact .inr (.inr (clause_isFalse he h))
  | false =>
    have operand := clause_isOperand he h
    cases c with
    | column name => exact .inr (.inl ⟨name, rfl⟩)
    | datum d => exact .inl ⟨'?', rfl, .inr rfl⟩
    | _ => exact .inl (Clause.closes_of_isEnclosed operand)

theorem fragment_ends {f : Fragment} (h : t.fragment e = .ok f) :
    Ends IsClosing f.sql.toList ∨
      ∃ ks, read? f.sql.toList = some ks ∧ ∀ s, Sql.Token.word s ∉ ks := by
  obtain ⟨c, hc, hp⟩ := fragment_prints h
  rw [hp.text]
  rcases clause_closes hc with hc | ⟨name, rfl⟩ | ⟨operand, d, ho, hd, rfl⟩
  · exact .inl hc
  · rw [Clause.write, Marked.text_ofString]
    exact .inr ⟨_, Sql.Lexer.read?_quoteIdentifier name, by simp⟩
  · have grouped : (Clause.isFalse d).Grouped := by
      rcases read_cases ho hd with ⟨name, rfl⟩ | ⟨x, rfl⟩ | ⟨ds, rfl⟩ <;> exact ⟨trivial, rfl⟩
    have plain : (Clause.isFalse d).CallsOnly fun f => Sql.isPlainName f := by
      rcases read_cases ho hd with ⟨name, rfl⟩ | ⟨x, rfl⟩ | ⟨ds, rfl⟩ <;> trivial
    refine .inr ⟨_, Clause.read?_write plain grouped, fun s hs => ?_⟩
    rcases read_cases ho hd with ⟨name, rfl⟩ | ⟨x, rfl⟩ | ⟨ds, rfl⟩
    · simp [Clause.tokens] at hs
    · simp [Clause.tokens] at hs
    · have items : Sql.Token.word s ∈ Clause.commas (ds.map fun _ => [.placeholder]) := by
        simpa [Clause.tokens] using hs
      rcases Clause.mem_commas items with hk | ⟨ks, hks, hk⟩
      · cases hk
      · obtain ⟨_, _, rfl⟩ := List.mem_map.1 hks
        simp at hk

end TableMapping

end Tabular
