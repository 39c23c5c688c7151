import Tabular.Proofs.Compile.Framing

namespace Tabular

open Clause (enclosed)
open Sql (Operand Operator Term Token opened)
open Sql.Parser (Bracket Waiting run settle settleAll)

namespace Tree

def settle (level : Nat) : List (Tree × Operator) → Tree → List (Tree × Operator) × Tree
  | [], T => ([], T)
  | (left, op) :: ws, T =>
    if level ≤ op.level then settle level ws (.binary op left T) else ((left, op) :: ws, T)

def enclosed (function : Option String) (trees : List Tree) : Tree :=
  match function with
  | some f => .apply f trees
  | none => group trees

def shunt : List (Tree × Operator) → Tree → List (Operator × Tree) → List (Tree × Operator) × Tree
  | ws, T, [] => (ws, T)
  | ws, T, (op, U) :: rest =>
    shunt (((settle op.level ws T).2, op) :: (settle op.level ws T).1) U rest

end Tree

/-- Operands with operators between them, as they come in a text. -/
structure Chain where
  first : Tree
  rest : List (Operator × Tree)

namespace Chain

def single (T : Tree) : Chain := ⟨T, []⟩

def join (op : Operator) (c d : Chain) : Chain := ⟨c.first, c.rest ++ (op, d.first) :: d.rest⟩

def value (c : Chain) : Tree :=
  (Tree.settle 0 (Tree.shunt [] c.first c.rest).1 (Tree.shunt [] c.first c.rest).2).2

def Spells (c : Chain) (ks : List Token) (args : List Datum) : Prop :=
  ∀ (before after : List Datum) (bs : List Bracket) (ws : List Waiting),
    ∃ ws' t, run ⟨bs, ws, .term, before.length⟩ ks =
        some ⟨bs, ws', .operator t, before.length + args.length⟩ ∧
      (ws'.map fun w => (w.left.tree (before ++ (args ++ after)), w.op),
          t.tree (before ++ (args ++ after))) =
        Tree.shunt (ws.map fun w => (w.left.tree (before ++ (args ++ after)), w.op)) c.first c.rest

variable {c d : Chain} {ks ls : List Token} {as bs : List Datum}

theorem settle_tree (level : Nat) (ws : List Waiting) (t : Term) (args : List Datum) :
    ((settle level ws t).1.map fun w => (w.left.tree args, w.op), (settle level ws t).2.tree args) =
      Tree.settle level (ws.map fun w => (w.left.tree args, w.op)) (t.tree args) := by
  induction ws generalizing t with
  | nil => rfl
  | cons w ws ih =>
    rw [settle, List.map_cons, Tree.settle]
    split
    · rw [ih, Term.tree]
    · rfl

theorem shunt_append (ws : List (Tree × Operator)) (T : Tree)
    (rest rest' : List (Operator × Tree)) :
    Tree.shunt ws T (rest ++ rest') =
      Tree.shunt (Tree.shunt ws T rest).1 (Tree.shunt ws T rest).2 rest' := by
  induction rest generalizing ws T with
  | nil => rfl
  | cons r rest ih => exact ih _ _

/-- An operand is read as it is by itself. -/
theorem spells_operand {t : Term} (h : Operand ks as.length) (hr : Sql.Parser.read? ks = some t) :
    (single (t.tree as)).Spells ks as := by
  intro before after bs ws
  obtain ⟨t', read, same⟩ := Frame.run_operand ⟨before, as, after, ws, bs⟩ h hr
  exact ⟨ws, t', read, by rw [same]; rfl⟩

theorem spells_literal (s : String) : (single (.literal s)).Spells [.literal s] [] :=
  spells_operand (t := .literal s) (.simple rfl rfl) rfl

theorem spells_number (n : Nat) : (single (.number n)).Spells [.number n] [] :=
  spells_operand (t := .number n) (.simple rfl rfl) rfl

theorem Spells.join (hc : c.Spells ks as) (hd : d.Spells ls bs) (op : Operator) :
    (c.join op d).Spells (ks ++ (op.tokens ++ ls)) (as ++ bs) := by
  intro before after brackets ws
  obtain ⟨ws₁, t₁, left, hw₁⟩ := hc before (bs ++ after) brackets ws
  have right := hd (before ++ as) after brackets
    (⟨(settle op.level ws₁ t₁).2, op⟩ :: (settle op.level ws₁ t₁).1)
  obtain ⟨ws₂, t₂, right, hw₂⟩ := right
  refine ⟨ws₂, t₂, ?_, ?_⟩
  · rw [List.length_append] at right
    rw [Sql.Parser.run_append, left, Option.bind_some, Sql.Parser.run_append, Clause.run_operator,
      Option.bind_some, right, List.length_append, Nat.add_assoc]
  · simp only [List.append_assoc] at hw₂ ⊢
    have settled := settle_tree op.level ws₁ t₁ (before ++ (as ++ (bs ++ after)))
    simp only [Prod.ext_iff] at settled hw₁
    rw [hw₂]
    rw [Chain.join, shunt_append, Tree.shunt, List.map_cons, settled.1, settled.2, hw₁.1, hw₁.2]

inductive Lists : List Token → List Datum → List Tree → Prop
  | one {c : Chain} {ks : List Token} {as : List Datum} : c.Spells ks as → Lists ks as [c.value]
  | more {c : Chain} {ks ls : List Token} {as bs : List Datum} {Ts : List Tree} :
      c.Spells ks as → Lists ls bs Ts →
      Lists (ks ++ .comma :: ls) (as ++ bs) (c.value :: Ts)

theorem settleAll_tree {ws : List Waiting} {t : Term} {args : List Datum}
    (h : (ws.map fun w => (w.left.tree args, w.op), t.tree args) = Tree.shunt [] c.first c.rest) :
    (settleAll ws t).tree args = c.value := by
  have settled := settle_tree 0 ws t args
  rw [value, ← h, ← settled]
  rfl

theorem Lists.run {Ts : List Tree} (h : Lists ks as Ts) (before after : List Datum)
    (function : Option String) (outside : List Waiting) (items : List Term)
    (brackets : List Bracket) : ∃ ts,
      run ⟨⟨function, outside, items⟩ :: brackets, [], .term, before.length⟩ (ks ++ [.closing]) =
        some ⟨brackets, outside, .operator (enclosed function (items.reverse ++ ts)),
          before.length + as.length⟩ ∧
      Term.trees (before ++ (as ++ after)) ts = Ts := by
  induction h generalizing before items with
  | @one c ks as hc =>
    obtain ⟨ws, t, read, hw⟩ := hc before after (⟨function, outside, items⟩ :: brackets) []
    refine ⟨[settleAll ws t], ?_, ?_⟩
    · rw [Sql.Parser.run_append, read, Option.bind_some, Clause.run_closing]
    · rw [Term.trees, Term.trees, settleAll_tree hw]
  | @more c ks ls as bs Ts hc _ ih =>
    obtain ⟨ws, t, read, hw⟩ := hc before (bs ++ after) (⟨function, outside, items⟩ :: brackets) []
    obtain ⟨ts, others, hts⟩ := ih (before ++ as) (settleAll ws t :: items)
    refine ⟨settleAll ws t :: ts, ?_, ?_⟩
    · have comma : Sql.Parser.step ⟨⟨function, outside, items⟩ :: brackets, ws, .operator t,
          before.length + as.length⟩ .comma = some _ := (Sql.Parser.Moves.comma ..).step
      rw [List.length_append] at others
      rw [List.append_assoc, Sql.Parser.run_append, read, Option.bind_some, List.cons_append,
        Sql.Parser.run, comma, Option.bind_some, others, List.length_append, Nat.add_assoc,
        List.reverse_cons, List.append_assoc, List.singleton_append]
    · rw [List.append_assoc] at hts ⊢
      rw [Term.trees, settleAll_tree hw, hts]

theorem Lists.enclosed {Ts : List Tree} (h : Lists ks as Ts) {function : Option String}
    (hf : function ≠ some "not") :
    (single (Tree.enclosed function Ts)).Spells (opened function ++ (ks ++ [.closing])) as := by
  intro before after brackets ws
  obtain ⟨ts, read, hts⟩ := h.run before after function ws [] brackets
  refine ⟨ws, Clause.enclosed function ts, ?_, ?_⟩
  · rw [Sql.Parser.run_opened hf, read]
    rfl
  · cases function <;>
      simp [Clause.enclosed, Term.tree, hts, single, Tree.shunt, Tree.enclosed]

theorem Spells.brackets (h : c.Spells ks as) :
    (single c.value).Spells (.opening :: (ks ++ [.closing])) as := by
  have plain : (none : Option String) ≠ some "not" := by simp
  exact (Lists.one h).enclosed plain

theorem Spells.read? (h : c.Spells ks as) :
    ∃ t, Sql.Parser.read? ks = some t ∧ t.tree as = c.value := by
  obtain ⟨ws, t, read, hw⟩ := h [] [] [] []
  rw [List.nil_append, List.append_nil] at hw
  refine ⟨settleAll ws t, ?_, settleAll_tree hw⟩
  have read : Sql.Parser.run {} ks = some _ := read
  rw [Sql.Parser.read?, read]
  rfl

def Written (c : Chain) (cs : List Char) (args : List Datum) : Prop :=
  ∃ ks, Sql.Lexer.read? cs = some ks ∧ c.Spells ks args

variable {cs ds : List Char}

theorem written_literal (s : String) : (single (.literal s)).Written (quoteLiteral s).toList [] :=
  ⟨_, Sql.Lexer.read?_quoteLiteral s, spells_literal s⟩

theorem written_zero : (single (.number 0)).Written "0".toList [] :=
  ⟨[.number 0], by decide, spells_number 0⟩

theorem Written.join (hc : c.Written cs as) (hd : d.Written ds bs) (op : Operator) :
    (c.join op d).Written (cs ++ ((" " ++ op.text ++ " ").toList ++ ds)) (as ++ bs) := by
  obtain ⟨ks, hk, spells⟩ := hc
  obtain ⟨ls, hl, spells'⟩ := hd
  have whole := Sql.Lexer.read?_join (Sql.Lexer.completes_operator op)
    (Sql.Lexer.endsToken_operator op) hk hl
  exact ⟨_, whole, spells.join spells' op⟩

theorem Written.brackets (h : c.Written cs as) :
    (single c.value).Written ('(' :: (cs ++ [')'])) as := by
  obtain ⟨ks, hk, spells⟩ := h
  exact ⟨_, Sql.Lexer.read?_brackets hk, spells.brackets⟩

theorem Written.apply (hc : c.Written cs as) (hd : d.Written ds bs) {function : String}
    (hp : Sql.isPlainName function) (hn : function ≠ "not") :
    (single (.apply function [c.value, d.value])).Written
      (function.toList ++ '(' :: (cs ++ (',' :: ds) ++ [')'])) (as ++ bs) := by
  obtain ⟨ks, hk, spells⟩ := hc
  obtain ⟨ls, hl, spells'⟩ := hd
  have comma : Sql.Lexer.Completes [','] [.comma] := by decide
  have items := Sql.Lexer.read?_brackets (Sql.Lexer.read?_join comma rfl hk hl)
  have whole := Sql.Lexer.read?_append (Sql.Lexer.read?_plainName hp) (c := '(') rfl
    (cs ++ (',' :: ds) ++ [')'])
  have named : some function ≠ some "not" := by simpa using hn
  refine ⟨_, ?_, (Lists.more spells (.one spells')).enclosed named⟩
  rw [whole]
  exact congrArg (Option.map _) items

end Chain

def Fragment.tree? (f : Fragment) : Option Tree := do
  let ks ← Sql.Lexer.read? f.sql.toList
  let t ← Sql.Parser.read? ks
  return t.tree f.args

theorem Chain.Written.tree? {c : Chain} {f : Fragment} (h : c.Written f.sql.toList f.args) :
    f.tree? = some c.value := by
  obtain ⟨ks, hk, spells⟩ := h
  obtain ⟨t, ht, value⟩ := spells.read?
  simp [Fragment.tree?, hk, ht, value]

theorem Fragment.tree?_eq_some {f : Fragment} {T : Tree} :
    f.tree? = some T ↔ ∃ ks t, Sql.Lexer.read? f.sql.toList = some ks ∧
      Sql.Parser.read? ks = some t ∧ t.tree f.args = T := by
  simp [tree?, Option.bind_eq_some_iff]

end Tabular
