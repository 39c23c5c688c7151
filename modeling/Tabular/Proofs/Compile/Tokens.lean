import Tabular.Proofs.Compile.Functions
import Tabular.Proofs.Sql.Lexing

namespace Tabular

open Sql (Token isPlainName)
open Sql.Lexer (Completes read? read?_join isBlank isWordStart isWordPart)

def Sql.isFunctionName (s : String) : Bool := isPlainName s && Text.lower s != "not"

theorem Sql.isFunctionName_lower {m : String} (h : isFunctionName m) :
    isPlainName (Text.lower m) ∧ Text.lower m ≠ "not" := by
  rw [isFunctionName, Bool.and_eq_true, bne_iff_ne] at h
  exact ⟨isPlainName_lower h.1, h.2⟩

def Sql.Operator.tokens : Sql.Operator → List Token
  | .or => [.word "or"]
  | .and => [.word "and"]
  | .eq => [.eq]
  | .ne => [.ne]
  | .is => [.word "is"]
  | .isNot => [.word "is", .word "not"]
  | .isIn => [.word "in"]
  | .notIn => [.word "not", .word "in"]
  | .like => [.word "like"]
  | .notLike => [.word "not", .word "like"]
  | .lt => [.lt]
  | .le => [.le]
  | .gt => [.gt]
  | .ge => [.ge]
  | .bitAnd => [.bitAnd]
  | .bitOr => [.bitOr]
  | .concat => [.concat]

namespace Clause

def isLoose : Clause → Bool
  | .isFalse _ => true
  | _ => false

mutual

def Grouped : Clause → Prop
  | .datum _ | .list _ | .column _ | .literal _ => True
  | .brackets c => c.Grouped
  | .infixed op left right =>
    left.Grouped ∧ right.Grouped ∧ (left.isLoose || right.isLoose → op = .and ∨ op = .or)
  | .anywhere part => part.Grouped ∧ part.isLoose = false
  | .apply _ args => AllGrouped args
  | .isFalse c => c.Grouped ∧ c.isLoose = false
  | .negated _ => False

def AllGrouped : List Clause → Prop
  | [] => True
  | c :: cs => c.Grouped ∧ AllGrouped cs

end

theorem allGrouped_iff {cs : List Clause} : AllGrouped cs ↔ ∀ c ∈ cs, c.Grouped := by
  induction cs with
  | nil => simp [AllGrouped]
  | cons c cs ih => simp [AllGrouped, ih]

def commas (items : List (List Token)) : List Token := [Token.comma].intercalate items

theorem mem_commas {items : List (List Token)} {k : Token} (h : k ∈ commas items) :
    k = .comma ∨ ∃ ks ∈ items, k ∈ ks := by
  induction items with
  | nil => cases h
  | cons a items ih =>
    cases items with
    | nil => exact .inr ⟨a, by simp, by simpa [commas] using h⟩
    | cons b items =>
      rw [commas, List.intercalate_cons_cons, List.mem_append, List.mem_append] at h
      rcases h with (h | h) | h
      · exact .inr ⟨a, by simp, h⟩
      · exact .inl (by simpa using h)
      · rcases ih h with h | ⟨ks, hks, h⟩
        · exact .inl h
        · exact .inr ⟨ks, by simp [hks], h⟩

mutual

def tokens : Clause → List Token
  | .datum _ => [.placeholder]
  | .list ds => .opening :: (commas (ds.map fun _ => [.placeholder]) ++ [.closing])
  | .column name => [.name name]
  | .literal s => [.literal s]
  | .brackets c => .opening :: (c.tokens ++ [.closing])
  | .infixed op left right =>
    .opening :: (left.tokens ++ (op.tokens ++ (right.tokens ++ [.closing])))
  | .anywhere part =>
    [.opening, .literal "%", .concat] ++ (part.tokens ++ [.concat, .literal "%", .closing])
  | .apply function args => .word function :: .opening :: (commas (tokensAll args) ++ [.closing])
  | .isFalse c => c.tokens ++ [.eq, .number 0]
  | .negated c => c.tokens

def tokensAll : List Clause → List (List Token)
  | [] => []
  | c :: cs => c.tokens :: tokensAll cs

end

theorem tokensAll_eq_map (cs : List Clause) : tokensAll cs = cs.map tokens := by
  induction cs with
  | nil => rfl
  | cons c cs ih => rw [tokensAll, ih, List.map_cons]

end Clause

namespace Sql.Lexer

theorem completes_operator (op : Operator) :
    Completes (" " ++ op.text ++ " ").toList op.tokens := by
  cases op <;> decide

theorem endsToken_operator (op : Operator) :
    (" " ++ op.text ++ " ").toList.head?.any endsToken := by
  cases op <;> decide

theorem read?_brackets {cs : List Char} {ks : List Token} (h : read? cs = some ks) :
    read? ('(' :: (cs ++ [')'])) = some (.opening :: (ks ++ [.closing])) := by
  have opening : Completes ['('] [.opening] := by decide
  have closing : Completes [')'] [.closing] := by decide
  exact opening.read?_append (read?_end closing rfl h)

theorem read?_plainName {s : String} (h : isPlainName s) : read? s.toList = some [.word s] := by
  obtain ⟨c, cs, hs, hc, hcs⟩ := isPlainName_iff.1 h
  have hstart : start c = some ([], .word [c]) := start_alpha hc
  have hrun : run (.word [c]) cs = some ([], .word (cs.reverse ++ [c])) :=
    run_word fun d hd => by
      have := hcs d hd
      simp only [Char.isAlphanum, Bool.or_eq_true, beq_iff_eq] at this
      simp only [isWordPart, isWordStart, Bool.or_eq_true, beq_iff_eq]
      tauto
  have hword : wordToken (cs.reverse ++ [c]) = .word s := by
    rw [wordToken, List.reverse_append, List.reverse_reverse, ← String.ofList_toList (s := s), hs]
    rfl
  simp [hs, read?, run, step, hstart, hrun, finish, hword]

end Sql.Lexer

namespace Clause

open Marked (ofString)
open Sql.Lexer (read?_brackets read?_plainName)

theorem read?_separated {texts : List Marked} {items : List (List Token)}
    (h : List.Forall₂ (fun ms ks => read? ms.text = some ks) texts items) :
    read? (separated texts).text = some (commas items) := by
  have comma : Completes [','] [.comma] := by decide
  induction h with
  | nil => rfl
  | @cons a ks texts items ha h ih =>
    cases h with
    | nil => simpa [separated, commas] using ha
    | cons hb h =>
      simpa [separated, commas] using read?_join comma rfl ha ih

theorem read?_write {c : Clause} (h : c.CallsOnly fun f => isPlainName f) (hg : c.Grouped) :
    read? c.write.text = some c.tokens := by
  induction c using Clause.induction with
  | datum d => rfl
  | list ds =>
    have items : List.Forall₂ (fun (ms : Marked) ks => read? ms.text = some ks)
        (ds.map fun d => [.datum d]) (ds.map fun _ => [.placeholder]) := by
      rw [List.forall₂_map_left_iff, List.forall₂_map_right_iff, List.forall₂_same]
      exact fun d _ => rfl
    simpa [tokens] using read?_brackets (read?_separated items)
  | column name => simpa [tokens] using Sql.Lexer.read?_quoteIdentifier name
  | literal s => simpa [tokens] using Sql.Lexer.read?_quoteLiteral s
  | brackets c ih => simpa [tokens] using read?_brackets (ih h hg)
  | infixed op left right ihl ihr =>
    have inner := read?_join (Sql.Lexer.completes_operator op) (Sql.Lexer.endsToken_operator op)
      (ihl h.1 hg.1) (ihr h.2 hg.2.1)
    simpa [tokens] using read?_brackets inner
  | anywhere part ih =>
    have front : Completes "('%' || ".toList [.opening, .literal "%", .concat] := by decide
    have back : Completes " || '%')".toList [.concat, .literal "%", .closing] := by decide
    simpa [tokens] using front.read?_append (Sql.Lexer.read?_end back rfl (ih h hg.1))
  | apply function args ih =>
    have items : List.Forall₂ (fun (ms : Marked) ks => read? ms.text = some ks)
        (args.map write) (args.map tokens) := by
      rw [List.forall₂_map_left_iff, List.forall₂_map_right_iff, List.forall₂_same]
      exact fun c hc => ih c hc (callOnly_iff.1 h.2 c hc) (allGrouped_iff.1 hg c hc)
    have inner := read?_brackets (read?_separated items)
    have ends := Sql.Lexer.read?_append (read?_plainName h.1) (c := '(') rfl
      ((separated (args.map write)).text ++ [')'])
    simpa [tokens, writeAll_eq_map, tokensAll_eq_map, inner] using ends
  | isFalse c ih =>
    have equals : Completes " = ".toList [.eq] := by decide
    have zero : read? "0".toList = some [.number 0] := by decide
    simpa [tokens] using read?_join equals rfl (ih h hg.1) zero
  | negated => exact hg.elim

end Clause

end Tabular
