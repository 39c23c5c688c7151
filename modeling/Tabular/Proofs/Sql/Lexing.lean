import Tabular.Decimal
import Tabular.Proofs.Text.Delimited
import Tabular.Sql.Token

namespace Tabular

theorem Text.toNat_lt_of_isAlphanum {c : Char} (h : (c.isAlphanum || c == '_') = true) :
    c.toNat < 128 := by
  unfold Char.isAlphanum Char.isAlpha Char.isUpper Char.isLower Char.isDigit at h
  simp only [Bool.or_eq_true, Bool.and_eq_true, decide_eq_true_eq, beq_iff_eq] at h
  rcases h with (((⟨_, h⟩ | ⟨_, h⟩) | ⟨_, h⟩) | rfl)
  · exact Nat.lt_of_le_of_lt (UInt32.le_iff_toNat_le.1 h) (by decide)
  · exact Nat.lt_of_le_of_lt (UInt32.le_iff_toNat_le.1 h) (by decide)
  · exact Nat.lt_of_le_of_lt (UInt32.le_iff_toNat_le.1 h) (by decide)
  · decide

namespace Sql.Lexer

variable {cs ds : List Char} {ks ls : List Token} {st st' : State} {c : Char}

/-- Quotations are in double or in single quotes. -/
def State.IsProper : State → Prop
  | .quote q _ | .quoteEnd q _ => q = '"' ∨ q = '\x27'
  | _ => True

theorem isProper_of_start (h : start c = some (ks, st)) : st.IsProper := by
  unfold start at h
  split at h
  · cases h; trivial
  split at h
  · next hq => cases h; exact hq
  split at h
  · cases h; trivial
  split at h
  · cases h; trivial
  split at h
  · cases h; trivial
  · obtain ⟨_, _, h⟩ := Option.map_eq_some_iff.1 h
    cases h
    trivial

theorem isProper_of_after {t : Token} (h : after t c = some (ks, st)) : st.IsProper := by
  obtain ⟨⟨_, _⟩, hs, h⟩ := Option.map_eq_some_iff.1 h
  cases h
  exact isProper_of_start hs

theorem isProper_of_step (hp : st.IsProper) (h : step st c = some (ks, st')) : st'.IsProper := by
  cases st with
  | between => exact isProper_of_start h
  | word =>
    simp only [step] at h
    split at h
    · cases h; trivial
    · exact isProper_of_after h
  | number =>
    simp only [step] at h
    split at h
    · cases h; trivial
    split at h
    · cases h
    · exact isProper_of_after h
  | quote =>
    simp only [step] at h
    split at h <;> cases h <;> exact hp
  | quoteEnd =>
    simp only [step] at h
    split at h
    · cases h; exact hp
    · exact isProper_of_after h
  | operator =>
    simp only [step] at h
    split at h
    · cases h; trivial
    · obtain ⟨_, _, h⟩ := Option.bind_eq_some_iff.1 h
      exact isProper_of_after h

theorem isProper_of_run (hp : st.IsProper) (h : run st cs = some (ks, st')) : st'.IsProper := by
  induction cs generalizing st ks with
  | nil => cases h; exact hp
  | cons c cs ih =>
    simp only [run, Option.bind_eq_bind, Option.bind_eq_some_iff, Option.pure_def] at h
    obtain ⟨⟨ts, s⟩, hs, ⟨us, r⟩, hr, h⟩ := h
    cases h
    exact ih (isProper_of_step hp hs) hr

def endsToken (c : Char) : Bool := c == ' ' || c == '(' || c == ')' || c == ','

theorem step_of_finish {us : List Token} (hp : st.IsProper) (h : finish st = some us)
    (hc : endsToken c) : step st c = (start c).map fun r => (us ++ r.1, r.2) := by
  simp only [endsToken, Bool.or_eq_true, beq_iff_eq] at hc
  cases st with
  | quote => cases h
  | quoteEnd q read =>
    have hq : c ≠ q := by
      rcases hc with ((rfl | rfl) | rfl) | rfl <;> rcases hp with rfl | rfl <;> decide
    cases h
    rw [step, if_neg hq]
    rfl
  | operator d =>
    have hd : double? d c = none := by rcases hc with ((rfl | rfl) | rfl) | rfl <;> simp [double?]
    obtain ⟨t, ht, rfl⟩ := Option.map_eq_some_iff.1 h
    simp [step, hd, ht, after]
  | between =>
    cases h
    cases hs : start c <;> simp [step, hs]
  | word => rcases hc with ((rfl | rfl) | rfl) | rfl <;> cases h <;> rfl
  | number => rcases hc with ((rfl | rfl) | rfl) | rfl <;> cases h <;> rfl

def readFrom (st : State) (cs : List Char) : Option (List Token) :=
  (run st cs).bind fun r => (finish r.2).map (r.1 ++ ·)

theorem read?_eq_readFrom (cs : List Char) : read? cs = readFrom .between cs := by
  unfold read? readFrom
  cases run .between cs with
  | none => rfl
  | some r => cases h : finish r.2 <;> simp [h]

theorem readFrom_append (h : run st cs = some (ks, st')) :
    readFrom st (cs ++ ds) = (readFrom st' ds).map (ks ++ ·) := by
  rw [readFrom, readFrom, run_append, h]
  cases hd : run st' ds with
  | none => simp [hd]
  | some r => simp [hd, Option.map_map, Function.comp_def]

theorem readFrom_cons (st : State) (c : Char) (ds : List Char) :
    readFrom st (c :: ds) = (step st c).bind fun r => (readFrom r.2 ds).map (r.1 ++ ·) := by
  rw [readFrom, run]
  cases step st c with
  | none => rfl
  | some r =>
    cases hd : run r.2 ds with
    | none => simp [readFrom, hd]
    | some q => simp [readFrom, hd, Option.map_map, Function.comp_def]

theorem read?_append (h : read? cs = some ks) (hc : endsToken c) (ds : List Char) :
    read? (cs ++ c :: ds) = (read? (c :: ds)).map (ks ++ ·) := by
  rw [read?_eq_readFrom] at h ⊢
  obtain ⟨⟨ts, st⟩, hr, h⟩ := Option.bind_eq_some_iff.1 h
  obtain ⟨us, hf, rfl⟩ := Option.map_eq_some_iff.1 h
  have hb : State.between.IsProper := trivial
  have hp : st.IsProper := isProper_of_run hb hr
  rw [readFrom_append hr, readFrom_cons, step_of_finish hp hf hc, read?_eq_readFrom, readFrom_cons,
    step]
  cases start c <;> simp [Option.map_map, Function.comp_def]

/-- Text that brings the lexer back between tokens. -/
def Completes (cs : List Char) (ks : List Token) : Prop := run .between cs = some (ks, .between)

instance (cs : List Char) (ks : List Token) : Decidable (Completes cs ks) :=
  inferInstanceAs (Decidable (_ = _))

theorem Completes.read?_append (h : Completes cs ks) (hd : read? ds = some ls) :
    read? (cs ++ ds) = some (ks ++ ls) := by
  rw [read?_eq_readFrom] at hd ⊢
  rw [readFrom_append h, hd, Option.map_some]

theorem read?_join {sep : List Char} {seps : List Token} (hs : Completes sep seps)
    (he : sep.head?.any endsToken) (hc : read? cs = some ks) (hd : read? ds = some ls) :
    read? (cs ++ (sep ++ ds)) = some (ks ++ (seps ++ ls)) := by
  cases sep with
  | nil => cases he
  | cons c sep =>
    rw [List.cons_append, read?_append hc he, ← List.cons_append, hs.read?_append hd,
      Option.map_some]

theorem read?_end {sep : List Char} {seps : List Token} (hs : Completes sep seps)
    (he : sep.head?.any endsToken) (hc : read? cs = some ks) :
    read? (cs ++ sep) = some (ks ++ seps) := by
  have hd : read? [] = some [] := rfl
  simpa using read?_join hs he hc hd

theorem run_reading (reading : List Char → State) {read : List Char} (h : ∀ c ∈ cs, ∀ read,
    step (reading read) c = some ([], reading (c :: read))) :
    run (reading read) cs = some ([], reading (cs.reverse ++ read)) := by
  induction cs generalizing read with
  | nil => rfl
  | cons c cs ih => simp [run, h c (by simp), ih fun c hc => h c (by simp [hc])]

theorem run_quote {q : Char} {read : List Char} (h : ∀ c ∈ cs, c ≠ q) :
    run (.quote q read) cs = some ([], .quote q (cs.reverse ++ read)) :=
  run_reading (.quote q) fun c hc _ => by simp [step, h c hc]

theorem readFrom_quoteEnd {q : Char} (hc : c ≠ q) (read ds : List Char) :
    readFrom (.quoteEnd q read) (c :: ds) =
      (readFrom .between (c :: ds)).map (quoted q read :: ·) := by
  rw [readFrom_cons, readFrom_cons, step, step, if_neg hc, after]
  cases start c <;> simp [Option.map_map, Function.comp_def]

theorem readFrom_quotation (q : Char) (read cs : List Char) :
    readFrom (.quote q read) cs = (Text.Delimited.scanBody q cs).bind fun p =>
      (readFrom .between p.2).map (quoted q (p.1.reverse ++ read) :: ·) := by
  fun_induction Text.Delimited.scanBody q cs generalizing read with
  | case1 => rfl
  | case2 => simp [readFrom, run, step, finish]
  | case3 c hc => simp [readFrom, run, step, finish, hc]
  | case4 s ih => simp [readFrom_cons, step, ih, Option.bind_map, Function.comp_def]
  | case5 d s hd =>
    rw [readFrom_cons, step, if_pos rfl]
    simp [readFrom_quoteEnd hd, Function.comp_def]
  | case6 c d s hc ih =>
    have read_on :
        readFrom (.quote q read) (c :: d :: s) = readFrom (.quote q (c :: read)) (d :: s) := by
      rw [readFrom_cons, step, if_neg hc]
      simp
    rw [read_on, ih, Option.bind_map]
    simp only [Function.comp_def, List.reverse_cons, List.append_assoc, List.cons_append,
      List.nil_append]

theorem read?_quotation {q : Char} (hq : q = '"' ∨ q = '\x27') (cs : List Char) :
    read? (q :: cs) = (Text.Delimited.scan q (q :: cs)).bind fun p =>
      (read? p.2).map (quoted q p.1.reverse :: ·) := by
  have begins : start q = some ([], .quote q []) := by
    rcases hq with rfl | rfl <;> rfl
  simp [read?_eq_readFrom, readFrom_cons, step, begins, readFrom_quotation, Text.Delimited.scan]

theorem read?_encode {q : Char} (hq : q = '"' ∨ q = '\x27') (s : List Char) :
    read? (Text.Delimited.encode q s) = some [quoted q s.reverse] := by
  have h := Text.Delimited.scan_encode q s
  rw [Text.Delimited.encode] at h ⊢
  rw [read?_quotation hq, h]
  rfl

theorem read?_quoteIdentifier (name : String) :
    Lexer.read? (quoteIdentifier name).toList = some [.name name] := by
  simp [quoteIdentifier, read?_encode, quoted]

theorem read?_quoteLiteral (s : String) :
    Lexer.read? (quoteLiteral s).toList = some [.literal s] := by
  simp [quoteLiteral, read?_encode, quoted]

theorem run_word {read : List Char} (h : ∀ c ∈ cs, isWordPart c) :
    run (.word read) cs = some ([], .word (cs.reverse ++ read)) :=
  run_reading .word fun c hc _ => by simp [step, h c hc]

theorem run_number {read : List Char} (h : ∀ c ∈ cs, c.isDigit) :
    run (.number read) cs = some ([], .number (cs.reverse ++ read)) :=
  run_reading .number fun c hc _ => by simp [step, h c hc]

theorem of_isAlphanum {p : Char → Prop} [DecidablePred p] (h : (c.isAlphanum || c == '_') = true)
    (small : ∀ n : Fin 128, p (Char.ofNat n)) : p c := by
  have := small ⟨c.toNat, Text.toNat_lt_of_isAlphanum h⟩
  rwa [Char.ofNat_toNat] at this

theorem start_digit (h : c.isDigit) : start c = some ([], .number [c]) := by
  have hc : (c.isAlphanum || c == '_') = true := by simp [Char.isAlphanum, h]
  have small : c.isDigit → isBlank c = false ∧ c ≠ '"' ∧ c ≠ '\x27' ∧ isWordStart c = false :=
    of_isAlphanum (p := fun c => c.isDigit → isBlank c = false ∧ c ≠ '"' ∧ c ≠ '\x27' ∧
      isWordStart c = false) hc (by decide)
  obtain ⟨hb, hn, hl, hw⟩ := small h
  simp [start, hb, hn, hl, hw, h]

theorem start_alpha (h : (c.isAlpha || c == '_') = true) : start c = some ([], .word [c]) := by
  have hc : (c.isAlphanum || c == '_') = true := by
    simp only [Char.isAlphanum, Bool.or_eq_true] at h ⊢
    exact h.imp_left .inl
  have small : (c.isAlphanum || c == '_') → isBlank c = false ∧ c ≠ '"' ∧ c ≠ '\x27' :=
    of_isAlphanum (p := fun c => (c.isAlphanum || c == '_') → isBlank c = false ∧ c ≠ '"' ∧
      c ≠ '\x27') hc (by decide)
  obtain ⟨hb, hn, hl⟩ := small hc
  have hw : isWordStart c := by simp [isWordStart, h]
  simp [start, hb, hn, hl, hw]

theorem read?_digits (n : Nat) : read? (Decimal.digits n) = some [.number n] := by
  obtain ⟨c, cs, h⟩ := List.exists_cons_of_ne_nil (Decimal.digits_ne_nil n)
  have digit : ∀ d ∈ c :: cs, d.isDigit := fun d hd => Decimal.digits_isDigit (h ▸ hd)
  have value : Nat.ofDigitChars 10 (c :: cs) 0 = n := h ▸ Nat.ofDigitChars_ten_toDigits
  have first : start c = some ([], .number [c]) := start_digit (digit c (by simp))
  have others : run (.number [c]) cs = some ([], .number (cs.reverse ++ [c])) :=
    run_number fun d hd => digit d (List.mem_cons_of_mem c hd)
  simp [h, read?, run, step, first, others, finish, numberToken, value]

end Sql.Lexer

end Tabular
