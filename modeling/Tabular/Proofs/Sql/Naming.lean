import Mathlib.Data.List.Forall2
import Tabular.Compile.Fragment
import Tabular.Proofs.Sql.Lexing
import Tabular.Proofs.Text.Replace

/-! The names in double quotes in a text. A replacement of blanks and words by others keeps the
tokens apart, but it also changes the names that it occurs in. -/

namespace Tabular.Sql

open Text (Replaced)

def Token.name? : Token → Option String
  | .name s => some s
  | _ => none

def namesOf (ks : List Token) : List String := ks.filterMap Token.name?

@[simp] theorem namesOf_append (ks ls : List Token) :
    namesOf (ks ++ ls) = namesOf ks ++ namesOf ls :=
  List.filterMap_append

def namesIn? (cs : List Char) : Option (List String) := (Lexer.read? cs).map namesOf

namespace Lexer

variable {cs ds : List Char} {ks ls : List Token} {st st' s : State} {c : Char}

def isNameless (cs : List Char) : Bool :=
  (run .between cs).any fun r => r.2 == .between && (namesOf r.1).isEmpty

theorem isNameless_iff : isNameless cs ↔ ∃ ks, Completes cs ks ∧ namesOf ks = [] := by
  unfold isNameless Completes
  cases run .between cs with
  | none => simp
  | some r =>
    obtain ⟨ks, st⟩ := r
    simp [and_comm]

theorem readFrom_of_endsToken (hp : st.IsProper) (hq : ∀ q read, st ≠ .quote q read)
    (hc : endsToken c) (ds : List Char) :
    readFrom st (c :: ds) =
      (finish st).bind fun us => (readFrom .between (c :: ds)).map (us ++ ·) := by
  rw [readFrom_cons, readFrom_cons, step]
  cases hf : finish st with
  | some us =>
    rw [step_of_finish hp hf hc]
    cases start c <;> simp [Option.map_map, Function.comp_def]
  | none =>
    cases st with
    | quote q read => exact absurd rfl (hq q read)
    | operator d =>
      have hd : double? d c = none := by
        simp only [endsToken, Bool.or_eq_true, beq_iff_eq] at hc
        rcases hc with ((rfl | rfl) | rfl) | rfl <;> simp [double?]
      rw [finish, Option.map_eq_none_iff] at hf
      simp [step, hd, hf]
    | _ => cases hf

section Replacement

variable {op new : List Char} {R : List Token → List Token → Prop}

/-- The names of two lists of tokens, one by one, with some occurrences replaced. -/
def Renamed (op new : List Char) (ks ls : List Token) : Prop :=
  List.Forall₂ (fun a b : String => Replaced op new a.toList b.toList) (namesOf ks) (namesOf ls)

theorem Renamed.refl (ks : List Token) : Renamed op new ks ks :=
  List.forall₂_same.2 fun a _ => .refl a.toList

theorem renamed_quoted {read read' : List Char} (h : Replaced op new read.reverse read'.reverse)
    (q : Char) : Renamed op new [quoted q read] [quoted q read'] := by
  by_cases hq : q = '"'
  · simpa [Renamed, namesOf, quoted, hq, Token.name?] using h
  · simp [Renamed, namesOf, quoted, hq, List.filterMap_cons, Token.name?]

/-- A relation between the tokens of a text and those of the text with replacements. -/
structure Survives (op new : List Char) (R : List Token → List Token → Prop) : Prop where
  refl : ∀ ks, R ks ks
  append : ∀ {ks ks' ls ls'}, R ks ks' → R ls ls' → R (ks ++ ls) (ks' ++ ls')
  quoted : ∀ {read read' : List Char} (q : Char), Replaced op new read.reverse read'.reverse →
    R [quoted q read] [quoted q read']
  swapped : ∀ {ops news}, Completes op ops → Completes new news → R ops news

/-- The lexer in the same place of a text and of the text with replacements. -/
inductive Alike (op new : List Char) : State → State → Prop
  | same (st : State) : Alike op new st st
  | quote {read read' : List Char} (q : Char) : Replaced op new read.reverse read'.reverse →
      Alike op new (.quote q read) (.quote q read')
  | quoteEnd {read read' : List Char} (q : Char) : Replaced op new read.reverse read'.reverse →
      Alike op new (.quoteEnd q read) (.quoteEnd q read')

theorem Alike.finish {us : List Token} (hR : Survives op new R) (h : Alike op new st st')
    (hf : finish st = some us) : ∃ us', Lexer.finish st' = some us' ∧ R us us' := by
  cases h with
  | same => exact ⟨us, hf, hR.refl us⟩
  | quote => cases hf
  | quoteEnd q hr =>
    cases hf
    exact ⟨_, rfl, hR.quoted q hr⟩

theorem Alike.step (hR : Survives op new R) (h : Alike op new st st')
    (hs : step st c = some (ks, s)) :
    ∃ ks' s', Lexer.step st' c = some (ks', s') ∧ R ks ks' ∧ Alike op new s s' := by
  have snoc {read read' : List Char} (hr : Replaced op new read.reverse read'.reverse) :
      Replaced op new (c :: read).reverse (c :: read').reverse := by
    simpa using hr.append (.refl [c])
  cases h with
  | same => exact ⟨ks, s, hs, hR.refl ks, .same s⟩
  | quote q hr =>
    simp only [Lexer.step] at hs ⊢
    split at hs <;> rename_i hc <;> cases hs
    · exact ⟨_, _, if_pos hc, hR.refl [], .quoteEnd q hr⟩
    · exact ⟨_, _, if_neg hc, hR.refl [], .quote q (snoc hr)⟩
  | @quoteEnd read read' q hr =>
    simp only [Lexer.step] at hs ⊢
    split at hs
    · next hc =>
      cases hs
      exact ⟨_, _, if_pos hc, hR.refl [], .quote q (snoc hr)⟩
    · next hc =>
      obtain ⟨⟨us, r⟩, hstart, hs⟩ := Option.map_eq_some_iff.1 hs
      cases hs
      refine ⟨quoted q read' :: us, r, by simp [hc, after, hstart], ?_, .same r⟩
      exact hR.append (hR.quoted q hr) (hR.refl us)

/-- What replaces and what is replaced has no quotes, and ends every token that is not quoted. -/
structure Swaps (op new : List Char) : Prop where
  unquoted : ∀ c ∈ op ++ new, c ≠ '"' ∧ c ≠ '\x27'
  front : op.head?.any endsToken ∧ new.head?.any endsToken
  nameless : isNameless op ∧ isNameless new

theorem readFrom_quote_append {q : Char} {read : List Char} (h : ∀ c ∈ cs, c ≠ q) (ds : List Char) :
    readFrom (.quote q read) (cs ++ ds) = readFrom (.quote q (cs.reverse ++ read)) ds := by
  rw [readFrom_append (run_quote h)]
  simp

theorem Alike.quote_cases {q : Char} {read : List Char} (h : Alike op new (.quote q read) st') :
    ∃ read', st' = .quote q read' ∧ Replaced op new read.reverse read'.reverse := by
  cases h with
  | same => exact ⟨read, rfl, .refl read.reverse⟩
  | quote _ hr => exact ⟨_, rfl, hr⟩

theorem Alike.not_quote (h : Alike op new st st') (hq : ∀ q read, st ≠ .quote q read) :
    ∀ q read, st' ≠ .quote q read := by
  cases h with
  | same => exact hq
  | quote q => exact absurd rfl (hq q _)
  | quoteEnd => simp

theorem Alike.isProper (h : Alike op new st st') (hp : st.IsProper) : st'.IsProper := by
  cases h <;> exact hp

theorem readFrom_separated {sep : List Char} {seps : List Token} (hp : st.IsProper)
    (hq : ∀ q read, st ≠ .quote q read) (hs : Completes sep seps) (he : sep.head?.any endsToken)
    (ds : List Char) :
    readFrom st (sep ++ ds) =
      (finish st).bind fun us => (readFrom .between ds).map fun ls => us ++ (seps ++ ls) := by
  cases sep with
  | nil => cases he
  | cons c sep =>
    rw [List.cons_append, readFrom_of_endsToken hp hq he, ← List.cons_append, readFrom_append hs]
    simp [Option.map_map, Function.comp_def]

theorem Swaps.survives_renamed (h : Swaps op new) : Survives op new (Renamed op new) where
  refl := .refl
  append hk hl := by
    rw [Renamed, namesOf_append, namesOf_append]
    exact List.rel_append hk hl
  quoted q hr := renamed_quoted hr q
  swapped ho hn := by
    obtain ⟨_, ho', op_nameless⟩ := isNameless_iff.1 h.nameless.1
    obtain ⟨_, hn', new_nameless⟩ := isNameless_iff.1 h.nameless.2
    cases ho.symm.trans ho'
    cases hn.symm.trans hn'
    simp [Renamed, op_nameless, new_nameless]

theorem readFrom_replaced (h : Swaps op new) (hR : Survives op new R) {u u' : List Char}
    (hr : Replaced op new u u') (ha : Alike op new st st') (hp : st.IsProper)
    (hk : readFrom st u = some ks) : ∃ ks', readFrom st' u' = some ks' ∧ R ks ks' := by
  induction hr generalizing st st' ks with
  | nil =>
    obtain ⟨us, hf, rfl⟩ := Option.map_eq_some_iff.1 hk
    obtain ⟨us', hf', finished⟩ := ha.finish hR hf
    exact ⟨us', by simp [readFrom, run, hf'], finished⟩
  | keep c _ ih =>
    rw [readFrom_cons] at hk
    obtain ⟨⟨us, s⟩, hs, hk⟩ := Option.bind_eq_some_iff.1 hk
    obtain ⟨vs, hv, rfl⟩ := Option.map_eq_some_iff.1 hk
    obtain ⟨us', s', hs', hu, hsame⟩ := ha.step hR hs
    obtain ⟨vs', hv', rest⟩ := ih hsame (isProper_of_step hp hs) hv
    exact ⟨us' ++ vs', by rw [readFrom_cons, hs', Option.bind_some, hv']; rfl, hR.append hu rest⟩
  | @swap u u' _ ih =>
    by_cases hq : ∃ q read, st = .quote q read
    · obtain ⟨q, read, rfl⟩ := hq
      obtain ⟨read', rfl, hr⟩ := ha.quote_cases
      have unquoted : ∀ c ∈ op ++ new, c ≠ q := fun c hc => by
        rcases hp with rfl | rfl
        · exact (h.unquoted c hc).1
        · exact (h.unquoted c hc).2
      rw [List.forall_mem_append] at unquoted
      rw [readFrom_quote_append unquoted.1] at hk
      rw [readFrom_quote_append unquoted.2]
      have swapped :
          Replaced op new (op.reverse ++ read).reverse (new.reverse ++ read').reverse := by
        simpa using hr.append (.swap .nil)
      exact ih (.quote q swapped) hp hk
    · have hq (q : Char) (read : List Char) : st ≠ .quote q read := fun he => hq ⟨q, read, he⟩
      obtain ⟨ops, hop, _⟩ := isNameless_iff.1 h.nameless.1
      obtain ⟨news, hnew, _⟩ := isNameless_iff.1 h.nameless.2
      rw [readFrom_separated hp hq hop h.front.1] at hk
      obtain ⟨us, hf, hk⟩ := Option.bind_eq_some_iff.1 hk
      obtain ⟨ls, hl, rfl⟩ := Option.map_eq_some_iff.1 hk
      obtain ⟨us', hf', finished⟩ := ha.finish hR hf
      obtain ⟨ls', hl', rest⟩ := ih (.same .between) trivial hl
      refine ⟨us' ++ (news ++ ls'), ?_, hR.append finished (hR.append (hR.swapped hop hnew) rest)⟩
      rw [readFrom_separated (ha.isProper hp) (ha.not_quote hq) hnew h.front.2, hf', hl']
      rfl

theorem read?_replaced (h : Swaps op new) (hR : Survives op new R) {u u' : List Char}
    (hr : Replaced op new u u') (hk : read? u = some ks) :
    ∃ ks', read? u' = some ks' ∧ R ks ks' := by
  rw [read?_eq_readFrom] at hk ⊢
  exact readFrom_replaced h hR hr (.same .between) trivial hk

end Replacement

end Lexer

open Lexer (Completes Swaps endsToken isNameless)

section

variable {cs ds sep : List Char} {ns ms : List String}

theorem namesIn?_eq_some :
    namesIn? cs = some ns ↔ ∃ ks, Lexer.read? cs = some ks ∧ namesOf ks = ns :=
  Option.map_eq_some_iff

theorem namesIn?_append (hc : namesIn? cs = some ns) (hd : namesIn? ds = some ms)
    (he : ds.head?.all endsToken) : namesIn? (cs ++ ds) = some (ns ++ ms) := by
  obtain ⟨ks, hk, rfl⟩ := namesIn?_eq_some.1 hc
  obtain ⟨ls, hl, rfl⟩ := namesIn?_eq_some.1 hd
  refine namesIn?_eq_some.2 ⟨ks ++ ls, ?_, namesOf_append ks ls⟩
  cases ds with
  | nil =>
    obtain rfl : [] = ls := Option.some.inj hl
    rw [List.append_nil, List.append_nil, hk]
  | cons d ds => rw [Lexer.read?_append hk he, hl, Option.map_some]

theorem namesIn?_front (hs : isNameless sep) (hd : namesIn? ds = some ms) :
    namesIn? (sep ++ ds) = some ms := by
  obtain ⟨seps, hs, nameless⟩ := Lexer.isNameless_iff.1 hs
  obtain ⟨ls, hl, rfl⟩ := namesIn?_eq_some.1 hd
  exact namesIn?_eq_some.2 ⟨_, hs.read?_append hl, by simp [nameless]⟩

theorem namesIn?_join (hs : isNameless sep) (he : sep.head?.any endsToken)
    (hc : namesIn? cs = some ns) (hd : namesIn? ds = some ms) :
    namesIn? (cs ++ (sep ++ ds)) = some (ns ++ ms) := by
  refine namesIn?_append hc (namesIn?_front hs hd) ?_
  cases sep with
  | nil => cases he
  | cons => exact he

theorem namesIn?_end (hs : isNameless sep) (he : sep.head?.any endsToken)
    (hc : namesIn? cs = some ns) : namesIn? (cs ++ sep) = some ns := by
  have hd : namesIn? [] = some [] := rfl
  simpa using namesIn?_join hs he hc hd

theorem namesIn?_brackets (hc : namesIn? cs = some ns) :
    namesIn? (['('] ++ (cs ++ [')'])) = some ns :=
  namesIn?_front rfl (namesIn?_end rfl rfl hc)

theorem namesIn?_quoteIdentifier (name : String) :
    namesIn? (quoteIdentifier name).toList = some [name] :=
  namesIn?_eq_some.2 ⟨_, Lexer.read?_quoteIdentifier name, rfl⟩

theorem namesIn?_intercalate (hs : isNameless sep) (he : sep.head?.any endsToken)
    {items : List (List Char)} {nss : List (List String)}
    (h : List.Forall₂ (fun cs ns => namesIn? cs = some ns) items nss) :
    namesIn? (sep.intercalate items) = some nss.flatten := by
  induction h with
  | nil => rfl
  | cons ha h ih =>
    cases h with
    | nil => simpa using ha
    | cons => simpa [List.intercalate_cons_cons] using namesIn?_join hs he ha ih

theorem namesIn?_list {α : Type} (sep : String) (hs : isNameless sep.toList)
    (he : sep.toList.head?.any endsToken) {write name : α → String}
    (h : ∀ x, namesIn? (write x).toList = some [name x]) (xs : List α) :
    namesIn? (sep.intercalate (xs.map write)).toList = some (xs.map name) := by
  have items : List.Forall₂ (fun cs ns => namesIn? cs = some ns)
      ((xs.map write).map String.toList) (xs.map fun x => [name x]) := by
    rw [List.map_map, List.forall₂_map_left_iff, List.forall₂_map_right_iff, List.forall₂_same]
    exact fun x _ => h x
  have singles : (xs.map fun x => [name x]).flatten = xs.map name := by
    rw [← List.flatMap_def, ← List.map_eq_flatMap]
  rw [String.toList_intercalate, namesIn?_intercalate hs he items, singles]

theorem namesIn?_placeholders (sep : String) (hs : isNameless sep.toList)
    (he : sep.toList.head?.any endsToken) (n : Nat) :
    namesIn? (placeholders sep n).toList = some [] := by
  have items : List.Forall₂ (fun cs ns => namesIn? cs = some ns)
      ((List.replicate n "?").map String.toList) (List.replicate n []) := by
    rw [List.map_replicate]
    induction n with
    | zero => exact .nil
    | succ n ih => exact .cons rfl ih
  rw [placeholders, String.toList_intercalate, namesIn?_intercalate hs he items]
  simp

theorem namesIn?_replaced {op new s s' : List Char} (h : Swaps op new) (hr : Replaced op new s s')
    (hs : namesIn? s = some ns) :
    ∃ ns', namesIn? s' = some ns' ∧
      List.Forall₂ (fun a b : String => Replaced op new a.toList b.toList) ns ns' := by
  obtain ⟨ks, hk, rfl⟩ := namesIn?_eq_some.1 hs
  obtain ⟨ks', hk', renamed⟩ := Lexer.read?_replaced h h.survives_renamed hr hk
  exact ⟨_, namesIn?_eq_some.2 ⟨ks', hk', rfl⟩, renamed⟩

end

/-- The second name is the first one with operators in it negated, as it comes out under one
negation or under several. -/
inductive Reworded : String → String → Prop
  | refl (name : String) : Reworded name name
  | negate {a b c : String} {n : String × String} : Reworded a b → n ∈ Fragment.negations →
      Replaced n.1.toList n.2.toList b.toList c.toList → Reworded a c

def holdsOperator (name : String) : Bool :=
  Fragment.negations.any fun n => Text.occurs n.1.toList name.toList

theorem Reworded.eq_of_not_holdsOperator {a b : String} (h : Reworded a b)
    (ha : holdsOperator a = false) : b = a := by
  induction h with
  | refl => rfl
  | negate _ hn hr ih =>
    rw [ih] at hr
    exact String.toList_injective (hr.eq_of_not_occurs (by simpa using List.any_eq_false.1 ha _ hn))

theorem swaps_of_mem_negations {n : String × String} (h : n ∈ Fragment.negations) :
    Swaps n.1.toList n.2.toList := by
  have plain : (Fragment.negations.all fun n =>
      (n.1.toList ++ n.2.toList).all fun c => c != '"' && c != '\x27') := by decide
  have unquoted := List.all_eq_true.1 plain n h
  simp only [List.all_eq_true, Bool.and_eq_true, bne_iff_ne] at unquoted
  simp only [Fragment.negations, List.mem_cons, List.not_mem_nil, or_false] at h
  rcases h with rfl | rfl | rfl <;> exact ⟨unquoted, by decide, by decide⟩

end Tabular.Sql
