import Tabular.Proofs.Database.Content
import Tabular.Proofs.Session.Counting
import Tabular.Proofs.Session.Effects
import Tabular.Session.Cursor

/-! Rows that are read one by one beside rows that are read at once. A cursor decodes a row when the
row is wanted, or has decoded all of them before it gives the first; what is put together from it is
the same, and only the moment of a failure differs. -/

namespace Tabular

section Elements

variable {ε α : Type}

theorem exists_rows (xs : List (Except ε α)) :
    (∃ as : List α, xs = as.map .ok) ∨
      ∃ (as : List α) (e : ε) (rest : List (Except ε α)), xs = as.map .ok ++ .error e :: rest := by
  induction xs with
  | nil => exact .inl ⟨[], rfl⟩
  | cons x xs ih =>
    cases x with
    | error e => exact .inr ⟨[], e, xs, rfl⟩
    | ok a =>
      rcases ih with ⟨as, rfl⟩ | ⟨as, e, rest, rfl⟩
      · exact .inl ⟨a :: as, rfl⟩
      · exact .inr ⟨a :: as, e, rest, rfl⟩

variable (as : List α) (e : ε) (rest : List (Except ε α))

theorem untilFailure_rows :
    untilFailure (as.map .ok : List (Except ε α)) = as.map .ok := by
  induction as with
  | nil => rfl
  | cons a as ih => rw [List.map_cons, untilFailure, ih]

theorem untilFailure_failure :
    untilFailure (as.map .ok ++ .error e :: rest) = as.map .ok ++ [.error e] := by
  induction as with
  | nil => rfl
  | cons a as ih => rw [List.map_cons, List.cons_append, untilFailure, ih, List.cons_append]

theorem length_untilFailure_le (xs : List (Except ε α)) :
    (untilFailure xs).length ≤ xs.length := by
  induction xs with
  | nil => exact Nat.le_refl 0
  | cons x xs ih =>
    cases x with
    | error e => exact Nat.succ_le_succ (Nat.zero_le _)
    | ok a => exact Nat.succ_le_succ ih

theorem mapM_id_failure :
    (as.map .ok ++ .error e :: rest : List (Except ε α)).mapM id = .error e := by
  induction as with
  | nil => rfl
  | cons a as ih =>
    rw [List.map_cons, List.cons_append, List.mapM_cons, ih]
    rfl

theorem stream_rows (deferred : Bool) :
    stream deferred (as.map .ok : List (Except ε α)) = as.map .ok := by
  cases deferred
  · have all : (as.map .ok : List (Except ε α)).mapM id = .ok as := mapM_id_eq_ok.2 rfl
    rw [stream, if_neg Bool.false_ne_true, all]
  · exact untilFailure_rows as

theorem stream_true_failure :
    stream true (as.map .ok ++ .error e :: rest) = as.map .ok ++ [.error e] :=
  untilFailure_failure as e rest

theorem stream_false_failure :
    stream false (as.map .ok ++ .error e :: rest) = [.error e] := by
  rw [stream, if_neg Bool.false_ne_true, mapM_id_failure]

theorem mapM_id_stream (deferred : Bool) (xs : List (Except ε α)) :
    (stream deferred xs).mapM id = xs.mapM id := by
  obtain ⟨as, rfl⟩ | ⟨as, e, rest, rfl⟩ := exists_rows xs
  · rw [stream_rows]
  · cases deferred
    · rw [stream_false_failure, mapM_id_failure]
      rfl
    · rw [stream_true_failure, mapM_id_failure, mapM_id_failure]

/-- An element has been taken from the front of a list. After a failure there may be no more. -/
inductive Taken : List (Except ε α) → Option (Except ε α) → List (Except ε α) → Prop
  | nothing : Taken [] none []
  | element (x : Except ε α) (xs : List (Except ε α)) : Taken (x :: xs) (some x) xs
  | failure (e : ε) (xs : List (Except ε α)) : Taken (.error e :: xs) (some (.error e)) []

namespace Taken

variable {xs ys : List (Except ε α)} {x : Option (Except ε α)}

theorem untilFailure_append (h : Taken xs x ys) {zs : List (Except ε α)} {n : Nat}
    (follow : untilFailure zs = (untilFailure ys).take n) :
    untilFailure (x.toList ++ zs) = (untilFailure xs).take (n + 1) := by
  cases h with
  | nothing =>
    rw [untilFailure, List.take_nil] at follow ⊢
    exact follow
  | element x xs =>
    cases x with
    | error e => exact (List.take_succ_cons.trans (congrArg _ List.take_nil)).symm
    | ok a => exact congrArg (.ok a :: ·) follow
  | failure e xs => exact (List.take_succ_cons.trans (congrArg _ List.take_nil)).symm

theorem length_lt (h : Taken xs x ys) (some : x ≠ none) : ys.length < xs.length := by
  cases h with
  | nothing => exact absurd rfl some
  | element => exact Nat.lt_succ_self _
  | failure => exact Nat.succ_pos _

end Taken

end Elements

namespace Session

open TableMapping (notes)

variable {α : Type}

namespace Source

variable (src : Source α) (s : Session)

theorem all_eq : src.all s = (elements (s.answer src.stmt) src.decode).mapM id := by
  unfold all elements
  cases s.answer src.stmt with
  | error failure => rfl
  | ok a =>
    rw [List.mapM_map]
    rfl

def rest : Progress α → List (Except Failure α)
  | .unopened =>
    if src.deferred then elements (s.answer src.stmt) src.decode
    else stream false (elements (s.answer src.stmt) src.decode)
  | .reading count =>
    match s.answer src.stmt with
    | .ok a => (a.rows.map (decoded (src.decode a.columns))).drop count
    | .error failure => [.error failure]
  | .buffered rows => rows.map .ok
  | .ended => []

theorem taken_give (rows : List α) : Taken (rows.map .ok) (Progress.give rows).1
    (src.rest s (Progress.give rows).2) := by
  cases rows with
  | nil => exact .nothing
  | cons a rows => exact .element _ _

theorem taken_next (count : Nat) : Taken (src.rest s (.reading count)) (src.next s count).1
    (src.rest s (src.next s count).2) := by
  unfold next
  cases ha : s.answer src.stmt with
  | error failure =>
    simp only [rest, ha]
    exact .element _ []
  | ok a =>
    dsimp only
    cases hr : a.rows[count]? with
    | none =>
      have past := List.getElem?_eq_none_iff.1 hr
      simp only [rest, ha, List.drop_eq_nil_of_le (List.length_map _ ▸ past)]
      exact .nothing
    | some row =>
      obtain ⟨within, rfl⟩ := List.getElem?_eq_some_iff.1 hr
      have left : src.rest s (.reading count) =
          decoded (src.decode a.columns) a.rows[count] :: src.rest s (.reading (count + 1)) := by
        simp only [rest, ha]
        rw [List.drop_eq_getElem_cons (by simpa using within), List.getElem_map]
      rw [left]
      cases a.rows[count] with
      | error refusal => exact .failure _ _
      | ok row => exact .element _ _

theorem rest_of_deferred (hd : src.deferred = true) :
    src.rest s .unopened = src.rest s (.reading 0) := by
  simp only [rest, hd, if_true, elements]
  cases s.answer src.stmt <;> rfl

theorem rest_of_eager (hd : src.deferred = false) : src.rest s .unopened =
    match src.all s with
    | .ok rows => rows.map .ok
    | .error failure => [.error failure] := by
  simp only [rest, hd, Bool.false_eq_true, if_false, stream, ← all_eq]
  cases src.all s <;> rfl

theorem taken_of_poll {p p' : Progress α} {x : Option (Except Failure α)}
    (h : src.poll s p = (x, p')) : Taken (src.rest s p) x (src.rest s p') := by
  suffices Taken (src.rest s p) (src.poll s p).1 (src.rest s (src.poll s p).2) by rwa [h] at this
  cases p with
  | unopened =>
    cases hd : src.deferred with
    | true =>
      have polled : src.poll s .unopened = src.next s 0 := by rw [poll, if_pos hd]
      rw [rest_of_deferred src s hd, polled]
      exact src.taken_next s 0
    | false =>
      have eager : ¬ src.deferred = true := by simp [hd]
      rw [rest_of_eager src s hd, poll, if_neg eager]
      cases src.all s with
      | ok rows => exact src.taken_give s rows
      | error failure => exact .element _ []
  | reading count => exact src.taken_next s count
  | buffered rows => exact src.taken_give s rows
  | ended => exact .nothing

theorem untilFailure_rest_unopened :
    untilFailure (src.rest s .unopened) =
      stream src.deferred (elements (s.answer src.stmt) src.decode) := by
  cases hd : src.deferred with
  | true => simp only [rest, hd, stream, if_true]
  | false =>
    simp only [rest, hd, stream, Bool.false_eq_true, if_false]
    cases (elements (s.answer src.stmt) src.decode).mapM id with
    | ok rows => exact untilFailure_rows rows
    | error failure => rfl

/-- What comes of asking for an element: only one that is read over the connection leaves the
stream with it. -/
inductive Polled : Progress α → Option (Except Failure α) → Progress α → Prop
  | nothing (p : Progress α) : Polled p none .ended
  | failed (p : Progress α) (failure : Failure) : Polled p (some (.error failure)) .ended
  | read {p : Progress α} (may : p = .unopened ∨ p.keepsConnection) (x : Except Failure α)
    (count : Nat) : Polled p (some x) (.reading count)
  | given (p : Progress α) (a : α) (rows : List α) : Polled p (some (.ok a)) (.buffered rows)

theorem polled_give (p : Progress α) (rows : List α) :
    Polled p (Progress.give rows).1 (Progress.give rows).2 := by
  cases rows with
  | nil => exact .nothing p
  | cons a rows => exact .given p a rows

theorem polled_next {p : Progress α} (may : p = .unopened ∨ p.keepsConnection) (count : Nat) :
    Polled p (src.next s count).1 (src.next s count).2 := by
  unfold next
  split
  · exact .failed p _
  · split
    · exact .read may _ _
    · exact .failed p _
    · exact .nothing p

theorem polled_of_poll {p p' : Progress α} {x : Option (Except Failure α)}
    (h : src.poll s p = (x, p')) : Polled p x p' := by
  suffices Polled p (src.poll s p).1 (src.poll s p).2 by rwa [h] at this
  cases p with
  | unopened =>
    rw [poll]
    split
    · exact src.polled_next s (.inl rfl) 0
    · split
      · exact polled_give _ _
      · exact .failed _ _
  | reading count => exact src.polled_next s (.inr rfl) count
  | buffered rows => exact polled_give _ rows
  | ended => exact .nothing _

end Source

theorem Quiet.perform {o : Operation} (h : o.needsConnection = false) : Quiet o.perform := by
  cases o with
  | mapping t => exact .mapping t
  | table t => exact (Quiet.mapping t).bind fun m => .pure _
  | _ => cases h

namespace Reader

/-- How often a stream is asked for an element before it is dropped. -/
def asked : List Event → Nat
  | [] | .drop :: _ => 0
  | .poll :: es => asked es + 1
  | .perform _ :: es => asked es

theorem asked_polls (n : Nat) : asked (List.replicate n .poll) = n := by
  induction n with
  | zero => rfl
  | succ n ih => rw [List.replicate_succ, asked, ih]

variable {src : Source α} {r r' : Reader α} {e : Event} {es : List Event}
  {xs : List (Except Failure α)} {x : Option (Except Failure α)} {o : Operation}

theorem run_cons_eq_some : r.run src (e :: es) = some (xs, r') ↔ ∃ x r₁ ys,
    r.step src e = some (x, r₁) ∧ r₁.run src es = some (ys, r') ∧ x.toList ++ ys = xs := by
  rw [run]
  simp [Option.bind_eq_some_iff]

theorem step_perform_eq_some : r.step src (.perform o) = some (x, r') ↔
    (r.progress.keepsConnection → o.needsConnection = false) ∧ x = none ∧
      r' = { r with session := (o.perform.run r.session).2 } := by
  rw [step, ite_eq_iff']
  cases r.progress.keepsConnection <;> cases o.needsConnection <;> simp [eq_comm]

theorem rest_perform (opened : r.progress ≠ .unopened)
    (h : r.step src (.perform o) = some (x, r')) :
    src.rest r'.session r'.progress = src.rest r.session r.progress := by
  obtain ⟨free, rfl, rfl⟩ := step_perform_eq_some.1 h
  cases hp : r.progress with
  | unopened => exact absurd hp opened
  | reading count =>
    have quiet := Quiet.perform (free (by rw [hp]; rfl)) r.session
    have answer : (o.perform.run r.session).2.answer src.stmt = r.session.answer src.stmt := by
      rw [quiet.same]
      rfl
    simp only [Source.rest, answer]
  | _ => rfl

theorem step_poll_eq_some : r.step src .poll = some (x, r') ↔
    ∃ p, src.poll r.session r.progress = (x, p) ∧ r' = { r with progress := p } := by
  rcases h : src.poll r.session r.progress with ⟨y, p⟩
  simp [step, h, eq_comm]

theorem opened_of_step (opened : r.progress ≠ .unopened) (h : r.step src e = some (x, r')) :
    r'.progress ≠ .unopened := by
  cases e with
  | poll =>
    obtain ⟨p, polled, rfl⟩ := step_poll_eq_some.1 h
    cases src.polled_of_poll _ polled <;> nofun
  | drop =>
    cases h
    nofun
  | perform o =>
    obtain ⟨_, _, rfl⟩ := step_perform_eq_some.1 h
    exact opened

theorem untilFailure_run (opened : r.progress ≠ .unopened) (h : r.run src es = some (xs, r')) :
    untilFailure xs = (untilFailure (src.rest r.session r.progress)).take (asked es) := by
  induction es generalizing r xs with
  | nil =>
    cases h
    rfl
  | cons e es ih =>
    obtain ⟨x, r₁, ys, stepped, rest, rfl⟩ := run_cons_eq_some.1 h
    have later := ih (opened_of_step opened stepped) rest
    cases e with
    | poll =>
      obtain ⟨p, polled, rfl⟩ := step_poll_eq_some.1 stepped
      exact (src.taken_of_poll _ polled).untilFailure_append later
    | drop =>
      cases stepped
      rw [Source.rest, untilFailure, List.take_nil] at later
      exact later
    | perform o =>
      rw [rest_perform opened stepped] at later
      obtain ⟨_, rfl, _⟩ := step_perform_eq_some.1 stepped
      exact later

theorem extends_of_step (opened : r.progress ≠ .unopened) (h : r.step src e = some (x, r'))
    (keeps : r'.progress.keepsConnection) :
    r.progress.keepsConnection ∧ r.session.Extends r'.session := by
  cases e with
  | poll =>
    obtain ⟨p, polled, rfl⟩ := step_poll_eq_some.1 h
    refine ⟨?_, .refl _⟩
    cases src.polled_of_poll _ polled with
    | read may => exact may.resolve_left opened
    | _ => cases keeps
  | drop =>
    cases h
    cases keeps
  | perform o =>
    obtain ⟨free, _, rfl⟩ := step_perform_eq_some.1 h
    exact ⟨keeps, Quiet.perform (free keeps) _⟩

theorem extends_of_run (opened : r.progress ≠ .unopened) (h : r.run src es = some (xs, r'))
    (keeps : r'.progress.keepsConnection) :
    r.progress.keepsConnection ∧ r.session.Extends r'.session := by
  induction es generalizing r xs with
  | nil =>
    cases h
    exact ⟨keeps, .refl _⟩
  | cons e es ih =>
    obtain ⟨x, r₁, ys, stepped, rest, rfl⟩ := run_cons_eq_some.1 h
    obtain ⟨kept, later⟩ := ih (opened_of_step opened stepped) rest
    obtain ⟨had, first⟩ := extends_of_step opened stepped kept
    exact ⟨had, first.trans later⟩

theorem run_unopened {s : Session}
    (h : (Reader.mk s .unopened).run src (.poll :: es) = some (xs, r)) :
    untilFailure xs = (stream src.deferred (elements (s.answer src.stmt) src.decode)).take
      (asked (.poll :: es)) ∧ (r.progress.keepsConnection → s.Extends r.session) := by
  obtain ⟨x, r₁, ys, stepped, rest, rfl⟩ := run_cons_eq_some.1 h
  obtain ⟨p, polled, rfl⟩ := step_poll_eq_some.1 stepped
  have opened : p ≠ .unopened := by cases src.polled_of_poll _ polled <;> nofun
  have later := untilFailure_run opened rest
  refine ⟨?_, fun keeps => (extends_of_run opened rest keeps).2⟩
  rw [← src.untilFailure_rest_unopened]
  exact (src.taken_of_poll _ polled).untilFailure_append later

theorem exists_run_polls (src : Source α) (s : Session) (p : Progress α) (n : Nat) : ∃ xs p',
    (Reader.mk s p).run src (List.replicate n .poll) = some (xs, ⟨s, p'⟩) ∧
      ((src.rest s p).length < n ∨ p = .ended → p' = .ended) := by
  induction n generalizing p with
  | zero => exact ⟨[], p, rfl, fun h => h.resolve_left (Nat.not_lt_zero _)⟩
  | succ n ih =>
    rcases polled : src.poll s p with ⟨x, p₁⟩
    obtain ⟨ys, p', rest, ends⟩ := ih p₁
    have stepped : (Reader.mk s p).step src .poll = some (x, ⟨s, p₁⟩) :=
      step_poll_eq_some.2 ⟨p₁, polled, rfl⟩
    refine ⟨_, p', run_cons_eq_some.2 ⟨x, _, ys, stepped, rest, rfl⟩, fun h => ends ?_⟩
    have taken := src.taken_of_poll s polled
    cases x with
    | none =>
      cases src.polled_of_poll s polled
      exact .inr rfl
    | some x =>
      obtain few | rfl := h
      · have shorter := taken.length_lt nofun
        exact .inl (by omega)
      · cases polled

theorem run_append {fs : List Event} {ys : List (Except Failure α)} {r'' : Reader α}
    (h : r.run src es = some (xs, r')) (h' : r'.run src fs = some (ys, r'')) :
    r.run src (es ++ fs) = some (xs ++ ys, r'') := by
  induction es generalizing r xs with
  | nil =>
    cases h
    exact h'
  | cons e es ih =>
    obtain ⟨x, r₁, zs, stepped, rest, rfl⟩ := run_cons_eq_some.1 h
    exact run_cons_eq_some.2 ⟨x, r₁, _, stepped, ih rest, (List.append_assoc ..).symm⟩

end Reader

/-- What a stream over a session gives up to the first failure, however it is read. -/
structure Source.Gives (src : Source α) (s : Session) (ys : List (Except Failure α)) : Prop where
  given : ∀ {es xs r}, (Reader.mk s .unopened).run src (.poll :: es) = some (xs, r) →
    untilFailure xs = ys.take (Reader.asked (.poll :: es))
  /-- As long as it has the connection, nobody else does anything with the database. -/
  alone : ∀ {es xs r}, (Reader.mk s .unopened).run src (.poll :: es) = some (xs, r) →
    r.progress.keepsConnection → s.Extends r.session ∧
      ∀ o : Operation, o.needsConnection → r.step src (.perform o) = none
  ends : ∃ n xs,
    (Reader.mk s .unopened).run src (List.replicate n .poll) = some (xs, ⟨s, .ended⟩) ∧
      untilFailure xs = ys
  /-- Dropped after any number of elements, it leaves the session as if it had never been. -/
  dropped : ∀ n (o : Operation), ∃ xs,
    (Reader.mk s .unopened).run src (List.replicate n .poll ++ [.drop, .perform o]) =
      some (xs, ⟨(o.perform.run s).2, .ended⟩) ∧ untilFailure xs = ys.take n

theorem Source.gives (src : Source α) (s : Session) :
    src.Gives s (stream src.deferred (elements (s.answer src.stmt) src.decode)) where
  given h := (Reader.run_unopened h).1
  alone h keeps := by
    refine ⟨(Reader.run_unopened h).2 keeps, fun o needs => ?_⟩
    rw [Reader.step, keeps, needs]
    rfl
  ends := by
    obtain ⟨xs, p, run, ends⟩ :=
      Reader.exists_run_polls src s .unopened ((src.rest s .unopened).length + 1)
    obtain rfl := ends (.inl (Nat.lt_succ_self _))
    have given := (Reader.run_unopened run).1
    rw [← untilFailure_rest_unopened, List.take_of_length_le] at given
    · rw [← untilFailure_rest_unopened]
      exact ⟨_, xs, run, given⟩
    · have short := length_untilFailure_le (src.rest s .unopened)
      rw [Reader.asked, Reader.asked_polls]
      omega
  dropped n o := by
    obtain ⟨xs, p, run, _⟩ := Reader.exists_run_polls src s .unopened n
    refine ⟨xs ++ [], Reader.run_append run rfl, ?_⟩
    rw [List.append_nil]
    cases n with
    | zero =>
      cases run
      rfl
    | succ n =>
      rw [← Reader.asked_polls (n + 1)]
      exact (Reader.run_unopened run).1

section Agreement

variable (s s' : Session) (x : Except Fault Statement)
  (decode : List String → List Datum → Except Failure α)

/-- Rows that are read in one session as a list, and in another one as streams. A deferred stream
gives them up to the first that cannot be read; the other one gives none then. -/
structure ReadsAlike (listed : Action (List α))
    (streamed : Bool → Action (List (Except Failure α))) : Prop where
  not_compiled : ∀ fault, x = .error fault → listed.run s = (.error (.query fault), s) ∧
    ∀ deferred, (streamed deferred).run s' = (.error (.query fault), s')
  collected : ∀ deferred,
    (do ofDecoded ((← streamed deferred).mapM id)).run s' = ((listed.run s).1, s')
  read : ∀ stmt, x = .ok stmt →
    (∃ rows : List α, elements (s.answer stmt) decode = rows.map .ok ∧
      listed.run s = (.ok rows, s) ∧ ∀ deferred, (Source.mk deferred stmt decode).Gives s'
        (rows.map .ok) ∧ (streamed deferred).run s' = (.ok (rows.map .ok), s')) ∨
    ∃ (rows : List α) (failure : Failure) (rest : List (Except Failure α)),
      elements (s.answer stmt) decode = rows.map .ok ++ .error failure :: rest ∧
      listed.run s = (.error failure, s) ∧
      (Source.mk true stmt decode).Gives s' (rows.map .ok ++ [.error failure]) ∧
      (streamed true).run s' = (.ok (rows.map .ok ++ [.error failure]), s') ∧
      (Source.mk false stmt decode).Gives s' [.error failure] ∧
      (streamed false).run s' = (.ok [.error failure], s')

def streamOf (deferred : Bool) : Action (List (Except Failure α)) := do
  let stmt ← ofQuery x
  return stream deferred (elements ((← get).answer stmt) decode)

def listOf : Action (List α) := do
  let stmt ← ofQuery x
  let a ← fetch stmt
  ofDecoded (a.rows.mapM (decoded (decode a.columns)))

theorem run_streamOf (deferred : Bool) : (streamOf x decode deferred).run s =
    ((x.mapError .query).map fun stmt => stream deferred (elements (s.answer stmt) decode), s) := by
  cases x with
  | error fault => rfl
  | ok stmt => rfl

theorem run_listOf : (listOf x decode).run s =
    ((x.mapError .query).bind fun stmt => (elements (s.answer stmt) decode).mapM id, s) := by
  have all (stmt : Statement) : (elements (s.answer stmt) decode).mapM id =
      s.answer stmt >>= fun a => a.rows.mapM (decoded (decode a.columns)) :=
    ((Source.mk false stmt decode).all_eq s).symm
  simp only [all]
  exact run_bind s (run_ofQuery s x) fun stmt =>
    run_bind s (run_fetch s stmt) fun a => run_ofDecoded s _

theorem readsAlike_of_statement
    (same : ∀ stmt, x = .ok stmt → s.answer stmt = s'.answer stmt) :
    ReadsAlike s s' x decode (listOf x decode) (streamOf x decode) where
  not_compiled fault hx := by
    subst hx
    exact ⟨run_listOf .., fun deferred => run_streamOf ..⟩
  collected deferred := by
    have put := run_bind s' (run_streamOf s' x decode deferred) fun xs =>
      run_ofDecoded s' (xs.mapM id)
    refine put.trans ?_
    rw [run_listOf]
    cases x with
    | error fault => rfl
    | ok stmt =>
      refine congrArg (·, s') ?_
      change (stream deferred (elements (s'.answer stmt) decode)).mapM id =
        (elements (s.answer stmt) decode).mapM id
      rw [mapM_id_stream, same stmt rfl]
  read stmt hx := by
    subst hx
    have gives (deferred : Bool) := (Source.mk deferred stmt decode).gives s'
    have runs (deferred : Bool) := run_streamOf s' (.ok stmt) decode deferred
    have lists := run_listOf s (.ok stmt) decode
    simp only [← same stmt rfl, Except.mapError, Except.map, Except.bind] at gives runs lists
    obtain ⟨rows, all⟩ | ⟨rows, failure, rest, some⟩ :=
      exists_rows (elements (s.answer stmt) decode)
    · simp only [all, stream_rows] at gives runs
      rw [all, mapM_id_eq_ok.2 rfl] at lists
      exact .inl ⟨rows, all, lists, fun deferred => ⟨gives deferred, runs deferred⟩⟩
    · rw [some, mapM_id_failure] at lists
      have later := gives true
      have later_run := runs true
      have first := gives false
      have first_run := runs false
      rw [some, stream_true_failure] at later later_run
      rw [some, stream_false_failure] at first first_run
      exact .inr ⟨rows, failure, rest, some, lists, later, later_run, first, first_run⟩

theorem listOf_select (q : Query) (key : Expr) (as : Reading) :
    listOf (q.select key) (fun _ => as.decodeRow) = do return (← select q key as).1 := by
  simp [listOf, select]

end Agreement

/-- Sessions that the statement cannot tell apart. The id of the row that was inserted last is not
stored, so they may differ in it unless the statement asks. -/
structure AlikeFor (s s' : Session) (x : Except Fault Statement) : Prop where
  closed : s.closed = s'.closed
  content : s.database.content = s'.database.content
  lastId : ∀ stmt, x = .ok stmt → stmt.asksLastId → s.database.lastId = s'.database.lastId

theorem AlikeFor.answer_eq {s s' : Session} {x : Except Fault Statement} (h : AlikeFor s s' x)
    (stmt : Statement) (hx : x = .ok stmt) : s.answer stmt = s'.answer stmt := by
  rw [answer, answer, h.closed, Database.fetch_congr h.content (h.lastId stmt hx)]

theorem reads_alike (s s' : Session) (q : Query) :
    (AlikeFor s s' q.statement → ReadsAlike s s' q.statement q.mapping.decodeRow (toList q)
      fun deferred => rows { q with deferred := deferred }) ∧
    ∀ (key : Expr) (as : Reading), AlikeFor s s' (q.select key) →
      ReadsAlike s s' (q.select key) (fun _ => as.decodeRow)
        (do return (← select q key as).1)
        fun deferred => selectRows { q with deferred := deferred } key as := by
  refine ⟨fun h => readsAlike_of_statement s s' _ _ h.answer_eq, fun key as h => ?_⟩
  rw [← listOf_select]
  exact readsAlike_of_statement s s' _ _ h.answer_eq

/-- The notebook after the insertion of a note that it may not hold any more. -/
def notebookAfter (id : Int64) : Session :=
  { notebook with database := { notebook.database with lastId := id } }

def lastNote : Query :=
  { mapping := notes, predicate := some (.binary .eq (.field "Id") (.call "last_insert_rowid" [])) }

namespace lastNote

def condition : Sql.Term := .binary .eq (.name "id") (.apply "last_insert_rowid" [])

def scope (id : Int64) : Database.Scope :=
  { notebook.scope with database := (notebookAfter id).database }

theorem exists_listed (id : Int64) (safe : ((scope id).selection (some condition)).isSafe) :
    ∃ rows : List Database.Row, rows.Perm ((scope id).selection (some condition)).matching ∧
      (notebookAfter id).listed lastNote =
        (rows.map fun r => .ok r.cells).mapM (decoded (notes.decodeRow ["id", "title"])) := by
  have text : lastNote.statement =
      .ok ⟨"select * from \"notes\" where (\"id\" = last_insert_rowid())", []⟩ := by rfl
  have parsed : Sql.Command.ofText?
      "select * from \"notes\" where (\"id\" = last_insert_rowid())" =
        some (.select .all "notes" (some (.brackets [condition])) [] {}) := by rfl
  have pruned : (Sql.Term.brackets [condition]).pruned = condition := by
    simp [condition, Sql.Term.pruned, Sql.Term.prunedAll, Sql.Term.joined]
  have prepared : (notebookAfter id).database.prepare "notes" (some (.brackets [condition])) [] =
      .ok (scope id, some condition) := by
    rw [Database.prepare, Option.map_some, pruned]
    rfl
  obtain ⟨rows, perm, answered⟩ := Database.select_all [] prepared (p := {}) rfl safe
  have fetched : (notebookAfter id).database.fetch ⟨_, []⟩ = _ :=
    (Database.fetch_of_select parsed).trans answered
  refine ⟨rows, perm, ?_⟩
  rw [listed_of_fetch text rfl, fetched]
  rfl

theorem listed_one : ∃ row, (notebookAfter 1).listed lastNote = .ok [row] := by
  obtain ⟨rows, perm, listed⟩ := exists_listed 1 (by decide +kernel)
  have one : ((scope 1).selection (some condition)).matching =
      [⟨1, [.integer 1, .text "a"]⟩] := by decide +kernel
  rw [one, List.perm_singleton] at perm
  subst perm
  exact ⟨_, listed⟩

theorem listed_three : (notebookAfter 3).listed lastNote = .ok [] := by
  obtain ⟨rows, perm, listed⟩ := exists_listed 3 (by decide +kernel)
  have none : ((scope 3).selection (some condition)).matching = [] := by decide +kernel
  rw [none, List.perm_nil] at perm
  subst perm
  exact listed

end lastNote

/-- The last note is found as long as no other has been inserted, even if that is gone again. -/
theorem reads_differ : ¬ ∀ (s s' : Session) (q : Query), s.closed = s'.closed →
    s.database.content = s'.database.content → ∀ deferred,
      ((do ofDecoded ((← rows { q with deferred := deferred }).mapM id)).run s').1 =
        ((toList q).run s).1 := by
  intro alike
  obtain ⟨row, found⟩ := lastNote.listed_one
  have collected := (readsAlike_of_statement (notebookAfter 3) (notebookAfter 3) lastNote.statement
    lastNote.mapping.decodeRow fun _ _ => rfl).collected true
  have same : ((toList lastNote).run (notebookAfter 3)).1 =
      ((toList lastNote).run (notebookAfter 1)).1 :=
    (congrArg Prod.fst collected).symm.trans
      (alike (notebookAfter 1) (notebookAfter 3) lastNote rfl rfl true)
  rw [run_toList, run_toList, found, lastNote.listed_three] at same
  cases same

def title : Expr := .lambda 1 (.field "Title")

theorem reads_alike_notebook :
    AlikeFor (notebookAfter 1) (notebookAfter 3) (Query.ofMapping notes).statement ∧
    AlikeFor (notebookAfter 1) (notebookAfter 3) ((Query.ofMapping notes).select title) ∧
    (∀ deferred, (do
        ofDecoded ((← rows { Query.ofMapping notes with deferred := deferred }).mapM id)).run
          (notebookAfter 3) =
      (((toList (Query.ofMapping notes)).run (notebookAfter 1)).1, notebookAfter 3)) ∧
    ∀ as, ReadsAlike (notebookAfter 1) (notebookAfter 3) ((Query.ofMapping notes).select title)
      (fun _ => as.decodeRow) (do return (← select (Query.ofMapping notes) title as).1)
      fun deferred => selectRows { Query.ofMapping notes with deferred := deferred } title as := by
  have quiet {x : Except Fault Statement} (sql : String) (hx : x = .ok ⟨sql, []⟩)
      (none : (Statement.mk sql []).asksLastId = false) :
      AlikeFor (notebookAfter 1) (notebookAfter 3) x := by
    refine ⟨rfl, rfl, fun stmt h asks => ?_⟩
    cases hx.symm.trans h
    exact absurd asks (by simp [none])
  have all : AlikeFor (notebookAfter 1) (notebookAfter 3) (Query.ofMapping notes).statement :=
    quiet "select * from \"notes\"" rfl (by decide +kernel)
  have titles : AlikeFor (notebookAfter 1) (notebookAfter 3)
      ((Query.ofMapping notes).select title) :=
    quiet "select \"title\" from \"notes\"" rfl (by decide +kernel)
  have alike := reads_alike (notebookAfter 1) (notebookAfter 3) (Query.ofMapping notes)
  exact ⟨all, titles, (alike.1 all).collected, fun as => alike.2 _ as titles⟩

end Session

end Tabular
