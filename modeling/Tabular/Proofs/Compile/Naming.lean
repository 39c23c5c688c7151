import Tabular.Proofs.Compile.Tokens
import Tabular.Proofs.Sql.Naming

namespace Tabular

open Sql (Reworded holdsOperator isPlainName namesIn? namesIn?_brackets namesIn?_end namesIn?_front
  namesIn?_join)
open Sql.Lexer (endsToken isNameless)
open Text (Replaced)

mutual

/-- The members of the row that an expression reads, each with whether it is in a call that is
negated. -/
def Expr.members (negated : Bool) : Expr → List (String × Bool)
  | .member .parameter name => [(name, negated)]
  | .binary _ left right => left.members negated ++ right.members negated
  | .not operand => operand.members (negated || operand.isCall)
  | .convert operand _ => operand.members negated
  | .call _ args => membersAll negated args
  | .invoke receiver _ args => receiver.members negated ++ membersAll negated args
  | _ => []

def Expr.membersAll (negated : Bool) : List Expr → List (String × Bool)
  | [] => []
  | e :: es => e.members negated ++ membersAll negated es

end

def TableMapping.columnNames (t : TableMapping) (ms : List (String × Bool)) :
    List (String × Bool) :=
  ms.filterMap fun m => (t.columnOf m.1).toOption.map fun c => (c.name, m.2)

namespace Sql

/-- What a text has in the place of a column, which may be another name in a negated call. -/
def Shows (m : String × Bool) (name : String) : Prop := name = m.1 ∨ m.2 ∧ Reworded m.1 name

theorem Shows.reworded {m : String × Bool} {name : String} (h : Shows m name) :
    Reworded m.1 name := by
  rcases h with rfl | ⟨_, h⟩
  · exact .refl m.1
  · exact h

theorem shows_of_replaced {ms : List (String × Bool)} {ns ns' : List String} {n : String × String}
    (hm : ∀ m ∈ ms, m.2 = true) (h : List.Forall₂ Shows ms ns) (hn : n ∈ Fragment.negations)
    (hr : List.Forall₂ (fun a b : String => Replaced n.1.toList n.2.toList a.toList b.toList) ns
      ns') :
    List.Forall₂ Shows ms ns' := by
  induction h generalizing ns' with
  | nil => cases hr; exact .nil
  | cons hs _ ih =>
    cases hr with
    | cons ha hr =>
      rw [List.forall_mem_cons] at hm
      exact .cons (.inr ⟨hm.1, .negate hs.reworded hn ha⟩) (ih hm.2 hr)

theorem eq_of_shows {ms : List (String × Bool)} {ns : List String} (h : List.Forall₂ Shows ms ns)
    (hm : ∀ m ∈ ms, m.2 → holdsOperator m.1 = false) : ns = ms.map Prod.fst := by
  induction h with
  | nil => rfl
  | @cons m name _ _ hs _ ih =>
    rw [List.forall_mem_cons] at hm
    have same : name = m.1 := by
      rcases hs with rfl | ⟨flag, h⟩
      · rfl
      · exact h.eq_of_not_holdsOperator (hm.1 flag)
    rw [ih hm.2, same, List.map_cons]

end Sql

namespace Clause

mutual

def members (negated : Bool) : Clause → List (String × Bool)
  | .datum _ | .list _ | .literal _ => []
  | .column name => [(name, negated)]
  | .brackets c => c.members negated
  | .infixed _ left right => left.members negated ++ right.members negated
  | .anywhere part => part.members negated
  | .apply _ args => membersAll negated args
  | .isFalse c => c.members negated
  | .negated c => c.members true

def membersAll (negated : Bool) : List Clause → List (String × Bool)
  | [] => []
  | c :: cs => c.members negated ++ membersAll negated cs

end

theorem membersAll_eq_flatMap (negated : Bool) (cs : List Clause) :
    membersAll negated cs = cs.flatMap (members negated) := by
  induction cs with
  | nil => rfl
  | cons c cs ih => rw [membersAll, ih, List.flatMap_cons]

theorem members_true (c : Clause) : ∀ m ∈ c.members true, m.2 = true := by
  induction c using Clause.induction with
  | datum | list | literal => simp [members]
  | column name => simp [members]
  | brackets c ih => exact ih
  | infixed op left right ihl ihr => exact List.forall_mem_append.2 ⟨ihl, ihr⟩
  | anywhere part ih => exact ih
  | apply function args ih =>
    rw [members, membersAll_eq_flatMap]
    intro m hm
    obtain ⟨a, ha, hm⟩ := List.mem_flatMap.1 hm
    exact ih a ha m hm
  | isFalse c ih => exact ih
  | negated c ih => exact ih

theorem namesIn?_negated {c : Clause} {ns : List String} (h : namesIn? c.write.text = some ns)
    (hs : List.Forall₂ Sql.Shows (c.members true) ns) :
    ∃ ns', namesIn? c.write.negated.text = some ns' ∧
      List.Forall₂ Sql.Shows (c.members true) ns' := by
  rcases Marked.text_negated_cases c.write with he | ⟨n, hn, hr⟩
  · exact ⟨ns, by rw [he, h], hs⟩
  · obtain ⟨ns', hns', renamed⟩ := Sql.namesIn?_replaced (Sql.swaps_of_mem_negations hn) hr h
    exact ⟨ns', hns', Sql.shows_of_replaced c.members_true hs hn renamed⟩

theorem namesIn?_writeAll {cs : List Clause} {negated : Bool}
    (h : ∀ c ∈ cs, ∃ ns, namesIn? c.write.text = some ns ∧
      List.Forall₂ Sql.Shows (c.members negated) ns) :
    ∃ ns, namesIn? (separated (cs.map write)).text = some ns ∧
      List.Forall₂ Sql.Shows (membersAll negated cs) ns := by
  have each : ∃ nss, List.Forall₂ (fun cs ns => namesIn? cs = some ns)
      ((cs.map write).map Marked.text) nss ∧
      List.Forall₂ Sql.Shows (membersAll negated cs) nss.flatten := by
    induction cs with
    | nil => exact ⟨[], .nil, .nil⟩
    | cons c cs ih =>
      obtain ⟨ns, hns, shown⟩ := h c (by simp)
      obtain ⟨nss, hnss, shown'⟩ := ih fun c hc => h c (by simp [hc])
      exact ⟨ns :: nss, .cons hns hnss, List.rel_append shown shown'⟩
  obtain ⟨nss, hnss, shown⟩ := each
  rw [text_separated]
  exact ⟨_, Sql.namesIn?_intercalate (by decide) rfl hnss, shown⟩

theorem namesIn?_write {c : Clause} (h : c.CallsOnly fun f => isPlainName f) (negated : Bool) :
    ∃ ns, namesIn? c.write.text = some ns ∧ List.Forall₂ Sql.Shows (c.members negated) ns := by
  induction c using Clause.induction generalizing negated with
  | datum d => exact ⟨[], rfl, .nil⟩
  | list ds =>
    have items : ∃ ns, namesIn? (separated ((ds.map Clause.datum).map write)).text = some ns ∧
        List.Forall₂ Sql.Shows (membersAll negated (ds.map Clause.datum)) ns := by
      refine namesIn?_writeAll fun c hc => ?_
      obtain ⟨d, _, rfl⟩ := List.mem_map.1 hc
      exact ⟨[], rfl, .nil⟩
    obtain ⟨ns, hns, shown⟩ := items
    have none : membersAll negated (ds.map Clause.datum) = [] := by
      simp [membersAll_eq_flatMap, members]
    rw [none] at shown
    have inner := namesIn?_brackets hns
    exact ⟨ns, by simpa [Function.comp_def] using inner, shown⟩
  | column name =>
    exact ⟨[name], by simpa using Sql.namesIn?_quoteIdentifier name, .cons (.inl rfl) .nil⟩
  | literal s =>
    exact ⟨[], by simp [namesIn?, Sql.Lexer.read?_quoteLiteral, Sql.namesOf, Sql.Token.name?], .nil⟩
  | brackets c ih =>
    obtain ⟨ns, hns, shown⟩ := ih h negated
    exact ⟨ns, by simpa using namesIn?_brackets hns, shown⟩
  | infixed op left right ihl ihr =>
    obtain ⟨ns, hns, shown⟩ := ihl h.1 negated
    obtain ⟨ms, hms, shown'⟩ := ihr h.2 negated
    have sep : isNameless (" " ++ op.text ++ " ").toList := by cases op <;> decide
    have inner := namesIn?_join sep (Sql.Lexer.endsToken_operator op) hns hms
    exact ⟨ns ++ ms, by simpa using namesIn?_brackets inner, List.rel_append shown shown'⟩
  | anywhere part ih =>
    obtain ⟨ns, hns, shown⟩ := ih h negated
    have front : isNameless "('%' || ".toList := by decide
    have back : isNameless " || '%')".toList := by decide
    exact ⟨ns, by simpa using namesIn?_front front (namesIn?_end back rfl hns), shown⟩
  | apply function args ih =>
    have items := namesIn?_writeAll fun a ha => ih a ha (callOnly_iff.1 h.2 a ha) negated
    obtain ⟨ns, hns, shown⟩ := items
    have name : namesIn? function.toList = some [] := by
      rw [namesIn?, Sql.Lexer.read?_plainName h.1]
      rfl
    have opening : isNameless ['('] := by decide
    have closing : isNameless [')'] := by decide
    have inner := namesIn?_join opening rfl name (namesIn?_end closing rfl hns)
    exact ⟨ns, by simpa [writeAll_eq_map] using inner, shown⟩
  | isFalse c ih =>
    obtain ⟨ns, hns, shown⟩ := ih h negated
    have equals : isNameless " = ".toList := by decide
    have zero : namesIn? "0".toList = some [] := by decide
    exact ⟨ns, by simpa using namesIn?_join equals rfl hns zero, shown⟩
  | negated c ih =>
    obtain ⟨ns, hns, shown⟩ := ih h true
    exact namesIn?_negated hns shown

end Clause

namespace TableMapping

variable {t : TableMapping} {ms ms' ns ns' : List (String × Bool)}

/-- The columns of the members in some order, and every member has one. -/
structure Covers (t : TableMapping) (ms ns : List (String × Bool)) : Prop where
  perm : ns.Perm (t.columnNames ms)
  known : ∀ m ∈ ms, ∃ c, t.columnOf m.1 = .ok c

theorem Covers.nil : t.Covers [] [] := ⟨.nil, by simp⟩

theorem Covers.append (h : t.Covers ms ns) (h' : t.Covers ms' ns') :
    t.Covers (ms ++ ms') (ns ++ ns') where
  perm := by
    rw [columnNames, List.filterMap_append]
    exact h.perm.append h'.perm
  known := List.forall_mem_append.2 ⟨h.known, h'.known⟩

theorem Covers.of_perm (h : t.Covers ms ns) (hp : ns'.Perm ns) : t.Covers ms ns' :=
  ⟨hp.trans h.perm, h.known⟩

theorem Covers.swap (h : t.Covers ms ns) (h' : t.Covers ms' ns') :
    t.Covers (ms ++ ms') (ns' ++ ns) :=
  (h.append h').of_perm List.perm_append_comm

theorem listed_members {v : Value} {c : Clause} (h : t.listed v = some c) (negated : Bool) :
    c.members negated = [] := by
  cases v <;> simp only [listed, Option.map_eq_some_iff] at h <;>
    obtain ⟨_, _, rfl⟩ := h <;> rfl

theorem clauses_members {es : List Expr} {cs : List Clause}
    (h : List.Forall₂ (fun e c => t.clause e = some c) es cs) {negated : Bool}
    (ih : ∀ e ∈ es, ∀ c, t.clause e = some c →
      t.Covers (e.members negated) (c.members negated)) :
    t.Covers (Expr.membersAll negated es) (Clause.membersAll negated cs) := by
  induction h with
  | nil => exact .nil
  | cons hc _ ihs => exact (ih _ (by simp) _ hc).append (ihs fun e he => ih e (by simp [he]))

theorem nullTest_members {op : BinaryOp} {other null c : Clause} (negated : Bool)
    (h : Clause.nullTest op other null = some c) :
    c.members negated = other.members negated ++ null.members negated := by
  cases op <;> cases h <;> rfl

theorem call_members (method : String) (cs : List Clause) (negated : Bool) :
    ((Clause.call method cs).members negated).Perm (Clause.membersAll negated cs) := by
  unfold Clause.call
  split
  · next a b =>
    have two : Clause.membersAll negated [a, b] = a.members negated ++ b.members negated := by
      simp [Clause.membersAll]
    split
    · rw [two]; rfl
    split
    · rw [two]; exact List.perm_append_comm
    · rfl
  · rfl

theorem invoke_members (textual : Bool) (r : Clause) (method : String) (cs : List Clause)
    (negated : Bool) : ((Clause.invoke textual r method cs).members negated).Perm
      (r.members negated ++ Clause.membersAll negated cs) := by
  unfold Clause.invoke
  split
  · have alone : Clause.membersAll negated [] = [] := rfl
    split
    · simp [Clause.lowerCase, Clause.members, Clause.membersAll]
    · rfl
  · next a =>
    have one : Clause.membersAll negated [a] = a.members negated := by simp [Clause.membersAll]
    rw [one]
    split
    · split
      · rfl
      · exact List.perm_append_comm
    split
    · simp [Clause.startsWith, Clause.members]
    split
    · simp [Clause.endsWith, Clause.members]
    split
    · rfl
    · simp [Clause.members, Clause.membersAll]
  · rfl

theorem clause_members {e : Expr} {c : Clause} (h : t.clause e = some c) (negated : Bool) :
    t.Covers (e.members negated) (c.members negated) := by
  induction e using Expr.induction generalizing c negated with
  | constant v =>
    obtain ⟨_, _, rfl⟩ := clause_constant_eq_some.1 h
    exact .nil
  | parameter => simp [clause] at h
  | captured name v =>
    rw [listed_members (by simpa [clause] using h)]
    exact .nil
  | column name =>
    obtain ⟨k, hk, rfl⟩ := clause_column_eq_some.1 h
    exact ⟨by simp [columnNames, Expr.members, Clause.members, hk], by simp [Expr.members, hk]⟩
  | member target name hn =>
    rw [clause_member hn, Option.bind_eq_some_iff] at h
    obtain ⟨v, _, h⟩ := h
    rw [listed_members h]
    have none : Expr.members negated (.member target name) = [] := by
      cases target <;> first | exact absurd rfl hn | rfl
    rw [none]
    exact .nil
  | binary op left right ihl ihr =>
    obtain ⟨l, r, hl, hr, h⟩ := clause_binary_eq_some.1 h
    have hcl := ihl hl negated
    have hcr := ihr hr negated
    rcases h with ⟨_, h⟩ | ⟨_, _, h⟩ | ⟨_, _, o, _, rfl⟩
    · rw [nullTest_members negated h]
      exact hcl.swap hcr
    · rw [nullTest_members negated h]
      exact hcl.append hcr
    · exact hcl.append hcr
  | not operand ih =>
    obtain ⟨d, hd, ⟨read, rfl⟩ | ⟨call, rfl⟩⟩ := clause_not_eq_some.1 h
    · simpa [Expr.members, Clause.members, Expr.isCall_of_isRead read] using ih hd negated
    · simpa [Expr.members, Clause.members, call] using ih hd true
  | convert operand kind ih => exact ih (by simpa [clause] using h) negated
  | call method args ih =>
    obtain ⟨cs, hcs, rfl⟩ := clause_call_eq_some.1 h
    exact (clauses_members hcs fun e he c h => ih e he h negated).of_perm
      (call_members method cs negated)
  | invoke receiver method args ihr ih =>
    obtain ⟨r, cs, hr, hcs, rfl⟩ := clause_invoke_eq_some.1 h
    have operands := (ihr hr negated).append (clauses_members hcs fun e he c h => ih e he h negated)
    exact operands.of_perm (invoke_members _ r method cs negated)
  | lambda => simp [clause] at h

theorem fragment_names {e : Expr} {f : Fragment} (hm : ∀ m ∈ e.methods, isPlainName m)
    (h : t.fragment e = .ok f) : ∃ members ns, namesIn? f.sql.toList = some ns ∧
      t.Covers (e.members false) members ∧ List.Forall₂ Sql.Shows members ns := by
  obtain ⟨c, hc, hp⟩ := fragment_prints h
  have plain : c.CallsOnly fun f => isPlainName f :=
    clause_callsOnly (by decide) (fun m h => Sql.isPlainName_lower (hm m h)) hc
  obtain ⟨ns, hns, shown⟩ := Clause.namesIn?_write plain false
  exact ⟨_, ns, hp.text ▸ hns, clause_members hc false, shown⟩

end TableMapping

end Tabular
