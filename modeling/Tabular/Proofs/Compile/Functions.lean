import Tabular.Proofs.Compile.Clause
import Tabular.Proofs.Sql.Lexing

namespace Tabular

def Sql.isPlainName (s : String) : Bool :=
  match s.toList with
  | [] => false
  | c :: cs => (c.isAlpha || c == '_') && cs.all fun c => c.isAlphanum || c == '_'

namespace Text

theorem toLower_isPlain {c : Char} (h : (c.isAlphanum || c == '_') = true) :
    (c.toLower.isAlphanum || c.toLower == '_') = true ∧
      ((c.isAlpha || c == '_') = true → (c.toLower.isAlpha || c.toLower == '_') = true) := by
  have small : ∀ n : Fin 128, let c := Char.ofNat n
      (c.isAlphanum || c == '_') = true → (c.toLower.isAlphanum || c.toLower == '_') = true ∧
        ((c.isAlpha || c == '_') = true → (c.toLower.isAlpha || c.toLower == '_') = true) := by
    decide
  have := small ⟨c.toNat, toNat_lt_of_isAlphanum h⟩
  simp only [Char.ofNat_toNat] at this
  exact this h

theorem lowerFrom_plain {cs : List Char} (h : ∀ c ∈ cs, (c.isAlphanum || c == '_') = true)
    (before : List Char) : lowerFrom before cs = cs.map Char.toLower := by
  induction cs generalizing before with
  | nil => rfl
  | cons c cs ih =>
    have hc := toNat_lt_of_isAlphanum (h c (by simp))
    have hs : c ≠ 'Σ' := by rintro rfl; exact absurd hc (by decide)
    simp [lowerFrom, hs, lowerChar, hc, ih fun c hc => h c (by simp [hc])]

end Text

namespace Sql

theorem isPlainName_iff {s : String} :
    isPlainName s ↔ ∃ c cs, s.toList = c :: cs ∧ (c.isAlpha || c == '_') = true ∧
      ∀ d ∈ cs, (d.isAlphanum || d == '_') = true := by
  unfold isPlainName
  split <;> simp_all

theorem isAlphanum_of_mem {s : String} (h : isPlainName s) {c : Char} (hc : c ∈ s.toList) :
    (c.isAlphanum || c == '_') = true := by
  obtain ⟨d, ds, hs, hd, hds⟩ := isPlainName_iff.1 h
  rw [hs, List.mem_cons] at hc
  rcases hc with rfl | hc
  · simp only [Char.isAlphanum, Bool.or_eq_true] at hd ⊢
    exact hd.imp_left .inl
  · exact hds c hc

theorem isPlainName_lower {s : String} (h : isPlainName s) : isPlainName (Text.lower s) := by
  have hall : ∀ c ∈ s.toList, (c.isAlphanum || c == '_') = true := fun c => isAlphanum_of_mem h
  obtain ⟨c, cs, hs, hc, hcs⟩ := isPlainName_iff.1 h
  refine isPlainName_iff.2 ⟨c.toLower, cs.map Char.toLower, ?_, ?_, ?_⟩
  · rw [Text.lower, String.toList_ofList, Text.lowerFrom_plain hall, hs, List.map_cons]
  · exact (Text.toLower_isPlain (hall c (by simp [hs]))).2 hc
  · intro d hd
    obtain ⟨b, hb, rfl⟩ := List.mem_map.1 hd
    exact (Text.toLower_isPlain (hcs b hb)).1

theorem isNeutral_of_isPlainName {s : String} (h : isPlainName s) {c : Char}
    (hc : c ∈ s.toList) : Marked.IsNeutral c := by
  have := isAlphanum_of_mem h hc
  refine ⟨?_, ?_, ?_⟩ <;> rintro rfl <;> exact absurd this (by decide)

end Sql

mutual

def Expr.methods : Expr → List String
  | .member target _ => target.methods
  | .binary _ left right => left.methods ++ right.methods
  | .not operand => operand.methods
  | .convert operand _ => operand.methods
  | .call method args => method :: methodsAll args
  | .invoke receiver method args => method :: (receiver.methods ++ methodsAll args)
  | .lambda _ body => body.methods
  | _ => []

def Expr.methodsAll : List Expr → List String
  | [] => []
  | e :: es => e.methods ++ methodsAll es

end

theorem Expr.mem_methodsAll {es : List Expr} {m : String} :
    m ∈ methodsAll es ↔ ∃ e ∈ es, m ∈ e.methods := by
  induction es with
  | nil => simp [methodsAll]
  | cons e es ih => simp [methodsAll, ih]

namespace Clause

mutual

def CallsOnly (p : String → Prop) : Clause → Prop
  | .datum _ | .list _ | .column _ | .literal _ => True
  | .brackets c => c.CallsOnly p
  | .infixed _ left right => left.CallsOnly p ∧ right.CallsOnly p
  | .anywhere part => part.CallsOnly p
  | .apply function args => p function ∧ CallOnly p args
  | .isFalse c => c.CallsOnly p
  | .negated c => c.CallsOnly p

def CallOnly (p : String → Prop) : List Clause → Prop
  | [] => True
  | c :: cs => c.CallsOnly p ∧ CallOnly p cs

end

variable {p : String → Prop}

theorem callOnly_iff {cs : List Clause} : CallOnly p cs ↔ ∀ c ∈ cs, c.CallsOnly p := by
  induction cs with
  | nil => simp [CallOnly]
  | cons c cs ih => simp [CallOnly, ih]

theorem CallsOnly.nullTest {op : BinaryOp} {other null c : Clause} (ho : other.CallsOnly p)
    (hn : null.CallsOnly p) (h : Clause.nullTest op other null = some c) : c.CallsOnly p := by
  cases op <;> cases h <;> exact ⟨ho, hn⟩

theorem CallsOnly.call {method : String} {cs : List Clause} (hm : p (Text.lower method))
    (h : CallOnly p cs) : (Clause.call method cs).CallsOnly p := by
  unfold Clause.call
  split
  · have ⟨ha, hb, _⟩ := h
    split
    · exact ⟨ha, hb⟩
    split
    · exact ⟨hb, ha⟩
    · exact ⟨hm, h⟩
  · exact ⟨hm, h⟩

theorem CallsOnly.invoke {textual : Bool} {method : String} {r : Clause} {cs : List Clause}
    (hl : p "lower") (hm : p (Text.lower method)) (hr : r.CallsOnly p) (h : CallOnly p cs) :
    (Clause.invoke textual r method cs).CallsOnly p := by
  unfold Clause.invoke
  split
  · split
    · exact ⟨hl, hr, trivial⟩
    · exact ⟨hm, hr, trivial⟩
  · have ha := h.1
    split
    · split
      · exact ⟨hr, ha⟩
      · exact ⟨ha, hr⟩
    split
    · exact ⟨hr, ha, trivial⟩
    split
    · exact ⟨hr, trivial, ha⟩
    split
    · exact ⟨hr, ha⟩
    · exact ⟨hm, hr, h⟩
  · exact ⟨hm, hr, h⟩

end Clause

namespace TableMapping

variable {t : TableMapping} {p : String → Prop}

theorem listed_callsOnly {v : Value} {c : Clause} (h : t.listed v = some c) : c.CallsOnly p := by
  cases v <;> simp only [listed, Option.map_eq_some_iff] at h <;>
    obtain ⟨_, _, rfl⟩ := h <;> trivial

theorem clauses_callOnly {es : List Expr} {cs : List Clause}
    (h : List.Forall₂ (fun e c => t.clause e = some c) es cs)
    (ih : ∀ e ∈ es, ∀ c, t.clause e = some c → c.CallsOnly p) : Clause.CallOnly p cs := by
  refine Clause.callOnly_iff.2 fun c hc => ?_
  obtain ⟨e, he, h⟩ := exists_of_forall₂ h hc
  exact ih e he c h

theorem clause_callsOnly {e : Expr} {c : Clause} (hl : p "lower")
    (hm : ∀ m ∈ e.methods, p (Text.lower m)) (h : t.clause e = some c) : c.CallsOnly p := by
  induction e using Expr.induction generalizing c with
  | constant v =>
    obtain ⟨_, _, rfl⟩ := clause_constant_eq_some.1 h
    trivial
  | parameter => simp [clause] at h
  | captured name v => exact listed_callsOnly (by simpa [clause] using h)
  | column name =>
    obtain ⟨_, _, rfl⟩ := clause_column_eq_some.1 h
    trivial
  | member target name hn =>
    rw [clause_member hn, Option.bind_eq_some_iff] at h
    obtain ⟨v, _, h⟩ := h
    exact listed_callsOnly h
  | binary op left right ihl ihr =>
    obtain ⟨l, r, hl, hr, h⟩ := clause_binary_eq_some.1 h
    have hcl := ihl (fun m h => hm m (by simp [Expr.methods, h])) hl
    have hcr := ihr (fun m h => hm m (by simp [Expr.methods, h])) hr
    rcases h with ⟨_, h⟩ | ⟨_, _, h⟩ | ⟨_, _, o, _, rfl⟩
    · exact hcr.nullTest hcl h
    · exact hcl.nullTest hcr h
    · exact ⟨hcl, hcr⟩
  | not operand ih =>
    obtain ⟨d, hd, h⟩ := clause_not_eq_some.1 h
    have calls : d.CallsOnly p := ih hm hd
    rcases h with ⟨_, rfl⟩ | ⟨_, rfl⟩ <;> exact calls
  | convert operand kind ih => exact ih hm (by simpa [clause] using h)
  | call method args ih =>
    obtain ⟨cs, hcs, rfl⟩ := clause_call_eq_some.1 h
    refine .call (hm _ (by simp [Expr.methods])) (clauses_callOnly hcs fun e he c => ih e he ?_)
    exact fun m h => hm m (by simp only [Expr.methods, List.mem_cons, Expr.mem_methodsAll]; grind)
  | invoke receiver method args ihr ih =>
    obtain ⟨r, cs, hr, hcs, rfl⟩ := clause_invoke_eq_some.1 h
    refine .invoke hl (hm _ (by simp [Expr.methods])) (ihr ?_ hr)
      (clauses_callOnly hcs fun e he c => ih e he ?_)
    · exact fun m h => hm m (by simp [Expr.methods, h])
    · exact fun m h => hm m (by
        simp only [Expr.methods, List.mem_cons, List.mem_append, Expr.mem_methodsAll]; grind)
  | lambda => simp [clause] at h

end TableMapping

end Tabular
