import Tabular.Proofs.Compile.Tokens

namespace Tabular

open Sql (Token Term isFunctionName)
open Sql.Parser (State Waiting Bracket run settle settleAll)

namespace Clause

mutual

def places : Clause → Nat
  | .datum _ => 1
  | .list ds => ds.length
  | .column _ | .literal _ => 0
  | .brackets c => c.places
  | .infixed _ left right => left.places + right.places
  | .anywhere part => part.places
  | .apply _ args => placesAll args
  | .isFalse c => c.places
  | .negated c => c.places

def placesAll : List Clause → Nat
  | [] => 0
  | c :: cs => c.places + placesAll cs

end

mutual

def term (p : Nat) : Clause → Term
  | .datum _ => .placeholder p
  | .list ds => .brackets ((List.range' p ds.length).map .placeholder)
  | .column name => .name name
  | .literal s => .literal s
  | .brackets c => .brackets [c.term p]
  | .infixed op left right =>
    .brackets [.binary op (left.term p) (right.term (p + left.places))]
  | .anywhere part =>
    .brackets [.binary .concat (.binary .concat (.literal "%") (part.term p)) (.literal "%")]
  | .apply function args => .apply function (terms p args)
  | .isFalse c => .binary .eq (c.term p) (.number 0)
  | .negated c => c.term p

def terms (p : Nat) : List Clause → List Term
  | [] => []
  | c :: cs => c.term p :: terms (p + c.places) cs

end

theorem terms_datum (p : Nat) (ds : List Datum) :
    terms p (ds.map .datum) = (List.range' p ds.length).map .placeholder := by
  induction ds generalizing p with
  | nil => rfl
  | cons d ds ih => simp [terms, term, places, ih, List.range'_succ]

def pending (p : Nat) : Clause → List Waiting × Term
  | .isFalse c => ([⟨c.term p, .eq⟩], .number 0)
  | c => ([], c.term p)

theorem pending_of_not_loose {c : Clause} (h : c.isLoose = false) (p : Nat) :
    c.pending p = ([], c.term p) := by
  cases c <;> first | rfl | cases h

theorem settle_pending (c : Clause) (p : Nat) {level : Nat}
    (h : c.isLoose → level ≤ Sql.Operator.eq.level) (ws : List Waiting) :
    settle level ((c.pending p).1 ++ ws) (c.pending p).2 = settle level ws (c.term p) := by
  cases c with
  | isFalse c => simp [pending, settle, term, h rfl]
  | _ => rfl

def readInto (s : State) (c : Clause) : State where
  brackets := s.brackets
  waiting := (c.pending s.places).1 ++ s.waiting
  phase := .operator (c.pending s.places).2
  places := s.places + c.places

def Admits (ws : List Waiting) (c : Clause) : Prop :=
  c.isLoose → ∀ w ∈ ws.head?, w.op.level < Sql.Operator.eq.level

def Reads (c : Clause) : Prop :=
  ∀ s : State, s.phase = .term → Admits s.waiting c → run s c.tokens = some (readInto s c)

theorem admits_nil (c : Clause) : Admits [] c := by
  simp [Admits]

def enclosed (function : Option String) (items : List Term) : Term :=
  match function with
  | some f => .apply f items
  | none => .brackets items

theorem run_operator (bs : List Bracket) (ws : List Waiting) (t : Term) (p : Nat)
    (op : Sql.Operator) :
    run ⟨bs, ws, .operator t, p⟩ op.tokens =
      some ⟨bs, ⟨(settle op.level ws t).2, op⟩ :: (settle op.level ws t).1, .term, p⟩ := by
  cases op <;> rfl

theorem run_closing (function : Option String) (outside ws : List Waiting) (items : List Term)
    (bs : List Bracket) (t : Term) (p : Nat) :
    run ⟨⟨function, outside, items⟩ :: bs, ws, .operator t, p⟩ [.closing] =
      some ⟨bs, outside, .operator (enclosed function (items.reverse ++ [settleAll ws t])), p⟩ := by
  cases function <;>
    simp [run, Sql.Parser.step, Sql.Parser.stepOperator, Sql.Parser.closeBracket, enclosed]

theorem settleAll_pending (c : Clause) (p : Nat) :
    settleAll (c.pending p).1 (c.pending p).2 = c.term p := by
  have h := settle_pending c p (fun _ => Nat.zero_le _) []
  rw [List.append_nil] at h
  rw [settleAll, h, settle]

theorem Reads.run_outset {c : Clause} (h : c.Reads) (bs : List Bracket) (p : Nat) :
    run ⟨bs, [], .term, p⟩ c.tokens =
      some ⟨bs, (c.pending p).1, .operator (c.pending p).2, p + c.places⟩ := by
  rw [h _ rfl (admits_nil c), readInto, List.append_nil]

theorem run_items {cs : List Clause} (h : ∀ c ∈ cs, Reads c) {items : List Term}
    (hne : cs ≠ [] ∨ items = []) (function : Option String) (outside : List Waiting)
    (bs : List Bracket) (p : Nat) :
    run ⟨⟨function, outside, items⟩ :: bs, [], .term, p⟩ (commas (cs.map tokens) ++ [.closing]) =
      some ⟨bs, outside, .operator (enclosed function (items.reverse ++ terms p cs)),
        p + placesAll cs⟩ := by
  induction cs generalizing items p with
  | nil =>
    obtain rfl : items = [] := hne.resolve_left (by simp)
    cases function <;> rfl
  | cons c cs ih =>
    have hc := (h c (by simp)).run_outset (⟨function, outside, items⟩ :: bs) p
    cases cs with
    | nil =>
      have ht : terms p [c] = [c.term p] := rfl
      simp only [commas, List.map_cons, List.map_nil, List.intercalate_singleton,
        Sql.Parser.run_append, hc, Option.bind_some, run_closing, settleAll_pending, ht, placesAll,
        Nat.add_zero]
    | cons d cs =>
      -- The comma settles what waits for its item, so that the next one is read from the outset.
      have ih := @ih (fun e he => h e (by simp [he])) (c.term p :: items) (.inl (by simp))
        (p + c.places)
      have comma : run ⟨⟨function, outside, items⟩ :: bs, (c.pending p).1,
          .operator (c.pending p).2, p + c.places⟩ [.comma] =
          some ⟨⟨function, outside, c.term p :: items⟩ :: bs, [], .term, p + c.places⟩ := by
        simp [run, Sql.Parser.step, Sql.Parser.stepOperator, settleAll_pending]
      have ht : items.reverse ++ terms p (c :: d :: cs) =
          (c.term p :: items).reverse ++ terms (p + c.places) (d :: cs) := by
        simp [terms]
      have hk : commas ((c :: d :: cs).map tokens) ++ [.closing] =
          c.tokens ++ ([.comma] ++ (commas ((d :: cs).map tokens) ++ [.closing])) := by
        simp [commas]
      have hp : placesAll (c :: d :: cs) = c.places + placesAll (d :: cs) := rfl
      rw [hk, Sql.Parser.run_append, hc, Option.bind_some, Sql.Parser.run_append, comma,
        Option.bind_some, ih, ht, hp, Nat.add_assoc]

theorem run_enclosed {cs : List Clause} (h : ∀ c ∈ cs, Reads c) (function : Option String)
    (bs : List Bracket) (ws : List Waiting) (p : Nat) :
    run ⟨⟨function, ws, []⟩ :: bs, [], .term, p⟩ (commas (cs.map tokens) ++ [.closing]) =
      some ⟨bs, ws, .operator (enclosed function (terms p cs)), p + placesAll cs⟩ :=
  run_items h (.inr rfl) function ws bs p

theorem placesAll_datum (ds : List Datum) : placesAll (ds.map .datum) = ds.length := by
  induction ds with
  | nil => rfl
  | cons d ds ih => simp [placesAll, places, ih, Nat.add_comm]

theorem reads_datum (d : Datum) : Reads (.datum d) := by
  rintro ⟨bs, ws, _, p⟩ rfl _
  rfl

theorem reads_list (ds : List Datum) : Reads (.list ds) := by
  rintro ⟨bs, ws, _, p⟩ rfl _
  have items : ∀ c ∈ ds.map Clause.datum, Reads c := by
    intro c hc
    obtain ⟨d, _, rfl⟩ := List.mem_map.1 hc
    exact reads_datum d
  have hk : (ds.map Clause.datum).map tokens = ds.map fun _ => [Token.placeholder] := by
    simp [Function.comp_def, tokens]
  have h := run_enclosed items none bs ws p
  rw [hk, terms_datum, placesAll_datum] at h
  exact h

theorem reads_brackets {c : Clause} (h : c.Reads) : Reads (.brackets c) := by
  rintro ⟨bs, ws, _, p⟩ rfl _
  have alone : ∀ d ∈ [c], Reads d := by simpa using h
  have h := run_enclosed alone none bs ws p
  rw [List.map_singleton, commas, List.intercalate_singleton] at h
  exact h

theorem reads_apply {function : String} {args : List Clause} (hf : function ≠ "not")
    (h : ∀ c ∈ args, Reads c) : Reads (.apply function args) := by
  rintro ⟨bs, ws, _, p⟩ rfl _
  have hw : Sql.Parser.step ⟨bs, ws, .term, p⟩ (.word function) =
      some ⟨bs, ws, .arguments function, p⟩ := by
    simp [Sql.Parser.step, Sql.Parser.stepTerm, hf]
  have h := run_enclosed h (some function) bs ws p
  rw [tokens, tokensAll_eq_map, run, hw]
  exact h

theorem level_of_conjunction {op : Sql.Operator} (h : op = .and ∨ op = .or) :
    op.level < Sql.Operator.eq.level := by
  rcases h with rfl | rfl <;> decide

theorem reads_infixed {left right : Clause} (hl : left.Reads) (hr : right.Reads)
    {op : Sql.Operator} (ho : left.isLoose || right.isLoose → op = .and ∨ op = .or) :
    Reads (.infixed op left right) := by
  rintro ⟨bs, ws, _, p⟩ rfl _
  have opened := hl.run_outset (⟨none, ws, []⟩ :: bs) p
  -- A negation on the left still waits, but a conjunction binds less tightly and settles it.
  have settled : settle op.level (left.pending p).1 (left.pending p).2 = ([], left.term p) := by
    have h := settle_pending left p
      (fun h => Nat.le_of_lt (level_of_conjunction (ho (by simp [h])))) []
    rwa [List.append_nil] at h
  have admitted : Admits [⟨left.term p, op⟩] right := by
    intro h w hw
    cases hw
    exact level_of_conjunction (ho (by simp [h]))
  have right_read := hr ⟨⟨none, ws, []⟩ :: bs, [⟨left.term p, op⟩], .term, p + left.places⟩ rfl
    admitted
  have whole : settleAll ((right.pending (p + left.places)).1 ++ [⟨left.term p, op⟩])
      (right.pending (p + left.places)).2 =
      .binary op (left.term p) (right.term (p + left.places)) := by
    rw [settleAll, settle_pending right _ fun _ => Nat.zero_le _]
    rfl
  calc
    run ⟨bs, ws, .term, p⟩ (tokens (.infixed op left right))
      = run ⟨⟨none, ws, []⟩ :: bs, [], .term, p⟩
          (left.tokens ++ (op.tokens ++ (right.tokens ++ [.closing]))) := rfl
    _ = run ⟨⟨none, ws, []⟩ :: bs, [⟨left.term p, op⟩], .term, p + left.places⟩
          (right.tokens ++ [.closing]) := by
      rw [Sql.Parser.run_append, opened, Option.bind_some, Sql.Parser.run_append, run_operator,
        settled, Option.bind_some]
    _ = some (readInto ⟨bs, ws, .term, p⟩ (.infixed op left right)) := by
      rw [Sql.Parser.run_append, right_read, Option.bind_some, readInto, run_closing, whole,
        Nat.add_assoc]
      rfl

theorem reads_anywhere {part : Clause} (h : part.Reads) (hp : part.isLoose = false) :
    Reads (.anywhere part) := by
  rintro ⟨bs, ws, _, p⟩ rfl _
  have admitted : Admits [⟨.literal "%", .concat⟩] part := by
    simp [Admits, hp]
  have part_read := h ⟨⟨none, ws, []⟩ :: bs, [⟨.literal "%", .concat⟩], .term, p⟩ rfl admitted
  calc
    run ⟨bs, ws, .term, p⟩ (tokens (.anywhere part))
      = run ⟨⟨none, ws, []⟩ :: bs, [⟨.literal "%", .concat⟩], .term, p⟩
          (part.tokens ++ [.concat, .literal "%", .closing]) := rfl
    _ = some (readInto ⟨bs, ws, .term, p⟩ (.anywhere part)) := by
      rw [Sql.Parser.run_append, part_read, Option.bind_some, readInto, pending_of_not_loose hp]
      rfl

theorem reads_isFalse {c : Clause} (h : c.Reads) (hc : c.isLoose = false) :
    Reads (.isFalse c) := by
  rintro ⟨bs, ws, _, p⟩ rfl hw
  have read := h ⟨bs, ws, .term, p⟩ rfl (by simp [Admits, hc])
  -- What waits outside binds less tightly than the comparison.
  have kept : settle Sql.Operator.eq.level ws (c.term p) = (ws, c.term p) := by
    cases ws with
    | nil => rfl
    | cons w ws => rw [settle, if_neg (Nat.not_le.2 (hw rfl w rfl))]
  have equals := run_operator bs ws (c.term p) (p + c.places) .eq
  rw [kept] at equals
  calc
    run ⟨bs, ws, .term, p⟩ (tokens (.isFalse c)) =
        run ⟨bs, ws, .operator (c.term p), p + c.places⟩
          (Sql.Operator.eq.tokens ++ [.number 0]) := by
      rw [tokens, Sql.Parser.run_append, read, Option.bind_some, readInto, pending_of_not_loose hc]
      rfl
    _ = some (readInto ⟨bs, ws, .term, p⟩ (.isFalse c)) := by
      rw [Sql.Parser.run_append, equals]
      rfl

theorem reads_of_grouped {c : Clause} (h : c.CallsOnly fun f => f ≠ "not") (hg : c.Grouped) :
    c.Reads := by
  induction c using Clause.induction with
  | datum d => exact reads_datum d
  | list ds => exact reads_list ds
  | column name =>
    rintro ⟨bs, ws, _, p⟩ rfl _
    rfl
  | literal s =>
    rintro ⟨bs, ws, _, p⟩ rfl _
    rfl
  | brackets c ih => exact reads_brackets (ih h hg)
  | infixed op left right ihl ihr =>
    exact reads_infixed (ihl h.1 hg.1) (ihr h.2 hg.2.1) hg.2.2
  | anywhere part ih => exact reads_anywhere (ih h hg.1) hg.2
  | apply function args ih =>
    exact reads_apply h.1 fun c hc => ih c hc (callOnly_iff.1 h.2 c hc) (allGrouped_iff.1 hg c hc)
  | isFalse c ih => exact reads_isFalse (ih h hg.1) hg.2
  | negated => exact hg.elim

end Clause

end Tabular
