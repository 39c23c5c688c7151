import Tabular.Proofs.Sql.Lexing
import Tabular.Proofs.Text.Ending

namespace Tabular.Sql.Lexer

open Text (Ends)

variable {cs ds : List Char} {ks : List Token} {st st' : State} {c : Char}

theorem readFrom_quote {q : Char} {read : List Char} (h : ∀ c ∈ cs, c ≠ q) :
    readFrom (.quote q read) cs = none := by
  rw [readFrom, run_quote h]
  rfl

theorem exists_of_readFrom_append (h : readFrom st (cs ++ ds) = some ks) :
    ∃ ts st' us, run st cs = some (ts, st') ∧ readFrom st' ds = some us ∧ ks = ts ++ us := by
  cases hr : run st cs with
  | none =>
    rw [readFrom, run_append, hr] at h
    cases h
  | some r =>
    rw [readFrom_append hr] at h
    obtain ⟨us, hus, rfl⟩ := Option.map_eq_some_iff.1 h
    exact ⟨_, _, us, rfl, hus, rfl⟩

theorem read?_split (h : read? (cs ++ ' ' :: ds) = some ks)
    (hd : ∀ c ∈ ds, c ≠ '"' ∧ c ≠ '\x27') :
    ∃ us vs, read? cs = some us ∧ read? (' ' :: ds) = some vs ∧ ks = us ++ vs := by
  have whole := h
  rw [read?_eq_readFrom] at h
  obtain ⟨ts, st, vs, hr, hv, rfl⟩ := exists_of_readFrom_append h
  have hb : State.between.IsProper := trivial
  have hp : st.IsProper := isProper_of_run hb hr
  -- A quotation that is still open would go on to the end.
  have complete : ∃ us, finish st = some us := by
    cases st with
    | quote q read =>
      have hq : ∀ c ∈ ' ' :: ds, c ≠ q := by
        intro c hc
        rcases List.mem_cons.1 hc with rfl | hc <;> rcases hp with rfl | rfl
        · decide
        · decide
        · exact (hd c hc).1
        · exact (hd c hc).2
      rw [readFrom_quote hq] at hv
      cases hv
    | operator d =>
      rw [readFrom_cons] at hv
      cases hs : single? d with
      | none => simp [step, double?, hs] at hv
      | some t => exact ⟨[t], by simp [finish, hs]⟩
    | _ => exact ⟨_, rfl⟩
  obtain ⟨us, hf⟩ := complete
  have read : read? cs = some (ts ++ us) := by
    rw [read?_eq_readFrom, readFrom, hr, Option.bind_some, hf, Option.map_some]
  rw [read?_append read rfl] at whole
  obtain ⟨vs, hvs, whole⟩ := Option.map_eq_some_iff.1 whole
  exact ⟨_, vs, read, hvs, whole.symm⟩

def isNotNumber : Token → Bool
  | .number _ => false
  | _ => true

def IsSolid (c : Char) : Prop := isBlank c = false ∧ c.isDigit = false

def EndsOtherwise (ks : List Token) : Prop := Ends (fun k => isNotNumber k) ks

theorem endsOtherwise_of_start {us : List Token} (hc : IsSolid c)
    (h : start c = some (ks, st)) (hf : finish st = some us) : EndsOtherwise (ks ++ us) := by
  unfold start at h
  rw [if_neg (by simp [hc.1])] at h
  split at h
  · cases h
    cases hf
  split at h
  · cases h
    cases hf
    exact ⟨_, rfl, rfl⟩
  rw [if_neg (by simp [hc.2])] at h
  split at h
  · cases h
    obtain ⟨t, ht, rfl⟩ := Option.map_eq_some_iff.1 hf
    refine ⟨t, rfl, ?_⟩
    unfold single? at ht
    (repeat' split at ht) <;> cases ht <;> rfl
  · obtain ⟨t, ht, h⟩ := Option.map_eq_some_iff.1 h
    cases h
    cases hf
    refine ⟨t, rfl, ?_⟩
    unfold simple? at ht
    (repeat' split at ht) <;> cases ht <;> rfl

theorem endsOtherwise_of_step {us : List Token} (hc : IsSolid c)
    (h : step st c = some (ks, st')) (hf : finish st' = some us) : EndsOtherwise (ks ++ us) := by
  have after {t : Token} (h : after t c = some (ks, st')) : EndsOtherwise (ks ++ us) := by
    obtain ⟨⟨ls, r⟩, hs, h⟩ := Option.map_eq_some_iff.1 h
    cases h
    exact Ends.append [t] (endsOtherwise_of_start hc hs hf)
  cases st with
  | between => exact endsOtherwise_of_start hc h hf
  | word read =>
    simp only [step] at h
    split at h
    · cases h
      cases hf
      exact ⟨_, rfl, rfl⟩
    · exact after h
  | number read =>
    rw [step, if_neg (by simp [hc.2])] at h
    split at h
    · cases h
    · exact after h
  | quote q read =>
    simp only [step] at h
    split at h <;> cases h <;> cases hf
    refine ⟨_, rfl, ?_⟩
    unfold quoted
    split <;> rfl
  | quoteEnd q read =>
    simp only [step] at h
    split at h
    · cases h
      cases hf
    · exact after h
  | operator d =>
    simp only [step] at h
    split at h
    · next t ht =>
      cases h
      cases hf
      refine ⟨t, rfl, ?_⟩
      unfold double? at ht
      (repeat' split at ht) <;> cases ht <;> rfl
    · obtain ⟨t, _, h⟩ := Option.bind_eq_some_iff.1 h
      exact after h

theorem ends_of_read? {p : Char → Prop} {q : Token → Prop}
    (last : ∀ {st c ks st' us}, st.IsProper → p c → step st c = some (ks, st') →
      finish st' = some us → Ends q (ks ++ us))
    (hc : Ends p cs) (h : read? cs = some ks) : Ends q ks := by
  obtain ⟨c, hl, hc⟩ := hc
  obtain ⟨cs, rfl⟩ := List.getLast?_eq_some_iff.1 hl
  rw [read?_eq_readFrom] at h
  obtain ⟨ts, st, us, hr, hu, rfl⟩ := exists_of_readFrom_append h
  have hb : State.between.IsProper := trivial
  have hp : st.IsProper := isProper_of_run hb hr
  rw [readFrom_cons] at hu
  obtain ⟨⟨ls, st'⟩, hs, hu⟩ := Option.bind_eq_some_iff.1 hu
  obtain ⟨vs, hv, rfl⟩ := Option.map_eq_some_iff.1 hu
  exact (last hp hc hs (by simpa [readFrom, run] using hv)).append ts

theorem read?_endsOtherwise (hc : Ends IsSolid cs) (h : read? cs = some ks) :
    EndsOtherwise ks :=
  ends_of_read? (fun _ => endsOtherwise_of_step) hc h

def IsClosing (c : Char) : Prop := c = ')' ∨ c = '?'

theorem IsClosing.isSolid (h : IsClosing c) : IsSolid c := by
  rcases h with rfl | rfl <;> exact ⟨rfl, rfl⟩

def EndsClosed (ks : List Token) : Prop := Ends (fun k => k = .closing ∨ k = .placeholder) ks

theorem endsClosed_of_step {us : List Token} (hp : st.IsProper) (hc : IsClosing c)
    (h : step st c = some (ks, st')) (hf : finish st' = some us) : EndsClosed (ks ++ us) := by
  have starts : ∃ t, (t = .closing ∨ t = .placeholder) ∧ start c = some ([t], .between) := by
    rcases hc with rfl | rfl
    · exact ⟨_, .inl rfl, rfl⟩
    · exact ⟨_, .inr rfl, rfl⟩
  obtain ⟨t, ht, hs⟩ := starts
  have after {s : Token} (h : after s c = some (ks, st')) : EndsClosed (ks ++ us) := by
    rw [Lexer.after, hs] at h
    cases h
    cases hf
    exact ⟨t, rfl, ht⟩
  cases st with
  | between =>
    cases hs.symm.trans h
    cases hf
    exact ⟨t, rfl, ht⟩
  | word read =>
    rw [step, if_neg (by rcases hc with rfl | rfl <;> decide)] at h
    exact after h
  | number read =>
    rw [step, if_neg (by rcases hc with rfl | rfl <;> decide),
      if_neg (by rcases hc with rfl | rfl <;> decide)] at h
    exact after h
  | quote q read =>
    have hq : c ≠ q := by rcases hc with rfl | rfl <;> rcases hp with rfl | rfl <;> decide
    rw [step, if_neg hq] at h
    cases h
    cases hf
  | quoteEnd q read =>
    simp only [step] at h
    split at h
    · cases h
      cases hf
    · exact after h
  | operator d =>
    have hd : double? d c = none := by rcases hc with rfl | rfl <;> simp [double?]
    rw [step, hd] at h
    obtain ⟨s, _, h⟩ := Option.bind_eq_some_iff.1 h
    exact after h

theorem read?_endsClosed (hc : Ends IsClosing cs) (h : read? cs = some ks) : EndsClosed ks :=
  ends_of_read? endsClosed_of_step hc h

end Tabular.Sql.Lexer
