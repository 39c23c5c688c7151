import Mathlib.Logic.Relation
import Tabular.Proofs.Database.Referring
import Tabular.Proofs.Session.Inserting
import Tabular.Session.Operation

namespace Tabular

theorem TableMapping.not_makesTable_insert {m : TableMapping} {values : List Value}
    {stmt : Statement} (hs : m.insert values = .ok stmt) : ¬ stmt.MakesTable := by
  rintro ⟨table, cs, key, h⟩
  obtain ⟨columns, other⟩ := command_insert hs h
  cases other

theorem Statement.not_makesTable_delete {stmt : Statement} {text : String}
    (h : stmt.sql = "delete from " ++ text) : ¬ stmt.MakesTable := by
  rintro ⟨table, cs, key, made⟩
  have start : Sql.Lexer.Completes "delete from ".toList [.word "delete", .word "from"] := by
    decide
  obtain ⟨ks, hk, hc⟩ := Option.bind_eq_some_iff.1 (h ▸ made)
  rw [Sql.tokens?_append start (by decide)] at hk
  obtain ⟨ls, _, rfl⟩ := Option.map_eq_some_iff.1 hk
  cases ls with
  | nil => cases hc
  | cons k ls =>
    cases k with
    | name table =>
      obtain ⟨_, _, hc⟩ := Option.bind_eq_some_iff.1 hc
      split at hc <;> cases hc
    | _ => cases hc

namespace Session

open Relation (ReflTransGen)

variable {α β : Type} {s s' : Session} {x : Action α} {f : α → Action β}

/-- Whatever comes of the action, it takes a session to a related one. -/
def Moves (R : Session → Session → Prop) (x : Action α) : Prop := ∀ s, R s (x.run s).2

section Moves

variable {R : Session → Session → Prop}

theorem Moves.of_run (hx : Moves R x) {r : Except Failure α} (h : x.run s = (r, s')) : R s s' := by
  have := hx s
  rwa [h] at this

theorem Moves.mono {R' : Session → Session → Prop} (h : ∀ {s s'}, R s s' → R' s s')
    (hx : Moves R x) : Moves R' x :=
  fun s => h (hx s)

theorem Moves.bind (trans : ∀ {a b c}, R a b → R b c → R a c) (hx : Moves R x)
    (hf : ∀ {a s s'}, x.run s = (.ok a, s') → Moves R (f a)) : Moves R (x >>= f) := by
  intro s
  rcases h : x.run s with ⟨failure | a, s₁⟩
  · rw [run_bind_error h]
    exact hx.of_run h
  · rw [run_bind_ok h]
    exact trans (hx.of_run h) (hf h s₁)

end Moves

/-- Nothing but the cache is different, and what was cached still is. -/
structure Extends (s s' : Session) : Prop where
  same : s' = { s with cache := s'.cache }
  kept : ∀ {t m}, s.cache.get? t = some m → s'.cache.get? t = some m

namespace Extends

theorem refl (s : Session) : s.Extends s := ⟨rfl, id⟩

theorem trans {s₁ s₂ s₃ : Session} (h : s₁.Extends s₂) (h' : s₂.Extends s₃) : s₁.Extends s₃ := by
  refine ⟨?_, fun hm => h'.kept (h.kept hm)⟩
  rw [h'.same, h.same]

theorem database (h : s.Extends s') : s'.database = s.database := by rw [h.same]

end Extends

/-- The action is no more than the resolution of mappings and the reading of rows. -/
def Quiet (x : Action α) : Prop := Moves Extends x

namespace Quiet

theorem of_run (h : ∀ s, ∃ r, x.run s = (r, s)) : Quiet x := fun s => by
  obtain ⟨r, h⟩ := h s
  rw [h]
  exact .refl s

theorem bind (hx : Quiet x) (hf : ∀ a, Quiet (f a)) : Quiet (x >>= f) :=
  Moves.bind .trans hx fun _ => hf _

theorem pure (a : α) : Quiet (Pure.pure a) := of_run fun _ => ⟨_, rfl⟩

theorem throw (failure : Failure) : Quiet (throw failure : Action α) := of_run fun _ => ⟨_, rfl⟩

theorem get_bind {f : Session → Action β} (h : ∀ s, ∃ r, (f s).run s = (r, s)) :
    Quiet (get >>= f) :=
  of_run h

theorem ofQuery (a : Except Fault α) : Quiet (ofQuery a) := of_run fun s => ⟨_, run_ofQuery s a⟩

theorem ofDecoded (a : Except Failure α) : Quiet (ofDecoded a) :=
  of_run fun s => ⟨_, run_ofDecoded s a⟩

theorem orNotFound (a : Option α) : Quiet (orNotFound a) := of_run fun s => by
  cases a <;> exact ⟨_, rfl⟩

theorem fetch (stmt : Statement) : Quiet (fetch stmt) := of_run fun s => ⟨_, run_fetch s stmt⟩

theorem mapping (t : RowType) : Quiet (mapping t) := by
  intro s
  rw [run_mapping]
  split
  next h => exact ⟨rfl, MappingCache.get?_getOrResolve h⟩
  next => exact .refl s

theorem findRowByKeys (t : RowType) (keys : List Value) : Quiet (findRowByKeys t keys) := by
  refine (mapping t).bind fun m => (ofQuery _).bind fun stmt => (fetch stmt).bind fun a => ?_
  cases a.rows with
  | nil => exact pure _
  | cons row rows => exact (ofDecoded _).bind fun _ => pure _

theorem toList (q : Query) : Quiet (toList q) :=
  (ofQuery _).bind fun stmt => (fetch stmt).bind fun _ => ofDecoded _

theorem countOf (a : Except Fault Statement) : Quiet (do Session.countOf (← Session.ofQuery a)) :=
  of_run fun s => ⟨_, run_countOf s a⟩

end Quiet

def Faultless (x : Action α) : Prop := ∀ s fault, (x.run s).1 ≠ .error (.query fault)

namespace Faultless

theorem of_run (hx : Faultless x) {fault : Fault} : x.run s ≠ (.error (.query fault), s') :=
  fun h => hx s fault (by rw [h])

theorem bind (hx : Faultless x) (hf : ∀ a, Faultless (f a)) : Faultless (x >>= f) := by
  intro s fault
  rcases h : x.run s with ⟨failure | a, s₁⟩
  · rw [run_bind_error h]
    rintro ⟨⟩
    exact hx.of_run h
  · rw [run_bind_ok h]
    exact hf a s₁ fault

theorem pure (a : α) : Faultless (Pure.pure a) := fun _ _ => nofun

end Faultless

section Leads

variable {P : Statement → Prop}

inductive Step (P : Statement → Prop) (s : Session) : Session → Prop
  | extend {s' : Session} (h : s.Extends s') : Step P s s'
  | execute {stmt : Statement} {n : Nat} {db : Database} (hp : P stmt)
      (h : s.database.execute stmt = .ok (n, db)) : Step P s { s with database := db }
  | undo (id : Int64) : Step P s { s with database := { s.database with lastId := id } }
  | close : Step P s { s with closed := true }

def Leads (P : Statement → Prop) : Session → Session → Prop := ReflTransGen (Step P)

theorem Leads.refl (s : Session) : s.Leads P s := ReflTransGen.refl

theorem Leads.trans {s₁ s₂ s₃ : Session} (h : s₁.Leads P s₂) (h' : s₂.Leads P s₃) :
    s₁.Leads P s₃ :=
  ReflTransGen.trans h h'

theorem Extends.leads (h : s.Extends s') : s.Leads P s' := .single (.extend h)

theorem Leads.kept (h : s.Leads P s') {t : RowType} {m : TableMapping}
    (hm : s.cache.get? t = some m) : s'.cache.get? t = some m := by
  induction h with
  | refl => exact hm
  | tail _ step ih =>
    cases step with
    | extend h => exact h.kept ih
    | execute | undo | close => exact ih

theorem leads_of_executeAll {stmts : List Statement} {n : Nat} {db : Database}
    (hp : ∀ stmt ∈ stmts, P stmt) (h : executeAll s.database stmts = (.ok n, db)) :
    s.Leads P { s with database := db } := by
  induction stmts generalizing s n with
  | nil =>
    cases h
    exact .refl s
  | cons stmt stmts ih =>
    obtain ⟨first, rest⟩ := List.forall_mem_cons.1 hp
    obtain ⟨k, db', j, he, all, _⟩ := executeAll_cons_eq_ok.1 h
    exact Leads.trans (.single (.execute first he)) (ih (s := { s with database := db' }) rest all)

theorem run_execute_of_closed (hc : s.closed = true) (stmt : Statement) :
    (execute stmt).run s = (.error .closed, s) := by
  refine (run_get_bind s _).trans ?_
  simp only [hc]
  rfl

theorem run_transaction_of_closed (hc : s.closed = true) (stmts : List Statement) :
    (transaction stmts).run s = (.error .closed, s) := by
  refine (run_get_bind s _).trans ?_
  simp only [hc]
  rfl

structure Writes (P : Statement → Prop) (x : Action α) : Prop where
  faultless : Faultless x
  moves : Moves (Leads P) x

namespace Writes

theorem pure (a : α) : Writes P (Pure.pure a) := ⟨.pure a, Leads.refl⟩

theorem bind (hx : Writes P x) (hf : ∀ a, Writes P (f a)) : Writes P (x >>= f) :=
  ⟨hx.faultless.bind fun a => (hf a).faultless, hx.moves.bind .trans fun _ => (hf _).moves⟩

theorem lastId : Writes P (do return (← get).database.lastId) :=
  ⟨fun _ _ => nofun, Leads.refl⟩

theorem execute {stmt : Statement} (hp : P stmt) : Writes P (execute stmt) := by
  refine ⟨fun s fault => ?_, fun s => ?_⟩ <;> cases hc : s.closed
  · rw [run_execute hc]
    rcases s.database.execute stmt with refusal | ⟨n, db⟩ <;> nofun
  · rw [run_execute_of_closed hc]
    nofun
  · rw [run_execute hc]
    rcases h : s.database.execute stmt with refusal | ⟨n, db⟩
    · exact .refl s
    · exact .single (.execute hp h)
  · rw [run_execute_of_closed hc]
    exact .refl s

theorem transaction {stmts : List Statement} (hp : ∀ stmt ∈ stmts, P stmt) :
    Writes P (transaction stmts) := by
  refine ⟨fun s fault => ?_, fun s => ?_⟩ <;> cases hc : s.closed
  · rw [run_transaction hc]
    split <;> nofun
  · rw [run_transaction_of_closed hc]
    nofun
  · rw [run_transaction hc]
    split
    next h => exact leads_of_executeAll hp h
    next => exact .single (.undo _)
  · rw [run_transaction_of_closed hc]
    exact .refl s

theorem forM {γ : Type} {g : γ → Action PUnit} (h : ∀ a, Writes P (g a)) (as : List γ) :
    Writes P (as.forM g) := by
  induction as with
  | nil => exact pure _
  | cons a as ih => exact (h a).bind fun _ => ih

theorem close : Writes P close := ⟨fun _ _ => nofun, fun _ => .single .close⟩

end Writes

/-- Mappings are resolved and statements put together before anything is changed. -/
inductive Orderly (P : Statement → Prop) : {α : Type} → Action α → Prop
  | quiet {α : Type} {x : Action α} (h : Quiet x) : Orderly P x
  | writes {α : Type} {x : Action α} (h : Writes P x) : Orderly P x
  | prepare {α β : Type} {x : Action α} {f : α → Action β} (hx : Quiet x)
      (hf : ∀ {a s s'}, x.run s = (.ok a, s') → Orderly P (f a)) : Orderly P (x >>= f)

namespace Orderly

theorem moves (h : Orderly P x) : Moves (Leads P) x := by
  induction h with
  | quiet h => exact h.mono Extends.leads
  | writes h => exact h.moves
  | prepare hx _ ih => exact Moves.bind .trans (hx.mono Extends.leads) ih

theorem extends_of_fault (h : Orderly P x) {fault : Fault}
    (run : x.run s = (.error (.query fault), s')) : s.Extends s' := by
  induction h generalizing s with
  | quiet h => exact Moves.of_run h run
  -- Once something is written, no such failure comes any more.
  | writes h => exact absurd run h.faultless.of_run
  | @prepare _ _ x f hx _ ih =>
    rcases first : x.run s with ⟨failure | a, s₁⟩
    · cases (run_bind_error first f).symm.trans run
      exact Moves.of_run hx first
    · rw [run_bind_ok first] at run
      exact (Moves.of_run hx first).trans (ih first run)

theorem statement {a : Except Fault γ} {g : γ → Action α} (h : ∀ b, a = .ok b → Orderly P (g b)) :
    Orderly P (do g (← Session.ofQuery a)) :=
  .prepare (.ofQuery a) fun {b s s'} put => h b (by
    cases a with
    | ok c => cases put; rfl
    | error fault => cases put)

theorem createTable (hP : ∀ stmt, P stmt) (t : RowType) : Orderly P (createTable t) :=
  .prepare (.mapping t) fun _ =>
    .writes (.forM (fun sql => (Writes.execute (hP ⟨sql, []⟩)).bind fun _ => .pure _) _)

section Rows

variable (hP : ∀ stmt : Statement, ¬ stmt.MakesTable → P stmt)

include hP

theorem insert (t : RowType) (values : List Value) : Orderly P (insert t values) :=
  .prepare (.mapping t) fun _ => .statement fun _ built =>
    .writes ((Writes.execute (hP _ (TableMapping.not_makesTable_insert built))).bind
      fun _ => .lastId)

theorem insertAll (t : RowType) (rows : List (List Value)) : Orderly P (insertAll t rows) :=
  .prepare (.mapping t) fun _ => .statement fun _ built => .writes <| .transaction fun _ hs => by
    obtain ⟨_, _, built⟩ := exists_of_forall₂ (mapM_eq_ok.1 built) hs
    exact hP _ (TableMapping.not_makesTable_insert built)

theorem deleteByKeys (t : RowType) (keys : List Value) : Orderly P (deleteByKeys t keys) :=
  .prepare (.mapping t) fun _ => .statement fun _ built => by
    obtain ⟨_, _, built⟩ := bind_eq_ok.1 built
    cases built
    exact .writes (.execute (hP _ (Statement.not_makesTable_delete (by
      simp only [String.append_assoc]
      rfl))))

theorem deleteIn (t : RowType) (keys : List Value) : Orderly P (deleteIn t keys) := by
  unfold Session.deleteIn
  split
  · exact .quiet (.pure _)
  · refine .prepare (.mapping t) fun _ => .statement fun _ built => ?_
    obtain ⟨_, _, built⟩ := bind_eq_ok.1 built
    obtain ⟨_, _, built⟩ := bind_eq_ok.1 built
    cases built
    exact .writes (.execute (hP _ (Statement.not_makesTable_delete (by
      simp only [String.append_assoc]
      rfl))))

theorem deleteAll (t : RowType) : Orderly P (deleteAll t) :=
  .prepare (.mapping t) fun _ =>
    .writes (.execute (hP _ (Statement.not_makesTable_delete rfl)))

end Rows

end Orderly

end Leads

end Session

open Session in
theorem Operation.orderly (o : Operation) {P : Statement → Prop}
    (rows : ∀ stmt : Statement, ¬ stmt.MakesTable → P stmt)
    (tables : ∀ t, o = .createTable t → ∀ stmt, P stmt) : Orderly P o.perform := by
  cases o with
  | createTable t => exact .createTable (tables t rfl) t
  | insert t values => exact .insert rows t values
  | insertAll t values => exact .insertAll rows t values
  | delete t key => exact .deleteByKeys rows t [key]
  | deleteByKeys t keys => exact .deleteByKeys rows t keys
  | deleteIn t keys => exact .deleteIn rows t keys
  | deleteAll t => exact .deleteAll rows t
  | close => exact .writes .close
  | mapping t => exact .quiet (.mapping t)
  | table t => exact .quiet ((Quiet.mapping t).bind fun _ => .pure _)
  | findRow t key => exact .quiet (.findRowByKeys t [key])
  | findRowByKeys t keys => exact .quiet (.findRowByKeys t keys)
  | getRow t key => exact .quiet ((Quiet.findRowByKeys t [key]).bind .orNotFound)
  | getRowByKeys t keys => exact .quiet ((Quiet.findRowByKeys t keys).bind .orNotFound)
  | toList q => exact .quiet (.toList q)
  | first? q => exact .quiet ((Quiet.toList q.first).bind fun _ => .pure _)
  | first q =>
    exact .quiet (((Quiet.toList q.first).bind fun _ => .pure _).bind .orNotFound)
  | elementAt q i => exact .quiet ((Quiet.toList (q.elementAt i)).bind fun _ => .orNotFound _)
  | count q => exact .quiet (.countOf q.count)
  | countWhere q p => exact .quiet (.countOf (q.countWhere p))
  | rows q => exact .quiet ((Quiet.ofQuery q.statement).bind fun _ => .get_bind fun s => ⟨_, rfl⟩)
  | select q key as =>
    exact .quiet <| (Quiet.ofQuery (q.select key)).bind fun stmt => (Quiet.fetch stmt).bind fun _ =>
      (Quiet.ofDecoded _).bind fun _ => .pure _
  | selectRows q key as =>
    exact .quiet ((Quiet.ofQuery (q.select key)).bind fun _ => .get_bind fun s => ⟨_, rfl⟩)

namespace Session

theorem leads_after {P : Statement → Prop} (rows : ∀ stmt : Statement, ¬ stmt.MakesTable → P stmt)
    (s : Session) {run : List Operation}
    (tables : ∀ t, .createTable t ∈ run → ∀ stmt, P stmt) : s.Leads P (s.after run) := by
  induction run generalizing s with
  | nil => exact .refl s
  | cons o run ih =>
    have first := o.orderly rows fun t ho => tables t (ho ▸ .head run)
    exact (first.moves s).trans (ih _ fun t ht => tables t (.tail o ht))

theorem perform_eq_fault {o : Operation} {s s' : Session} {fault : Fault}
    (h : o.perform.run s = (.error (.query fault), s')) :
    s' = { s with cache := s'.cache } ∧
      ∀ t m, s.cache.get? t = some m → (mapping t).run s' = (.ok m, s') := by
  have extended :=
    (o.orderly (P := fun _ => True) (fun _ _ => trivial) fun _ _ _ => trivial).extends_of_fault h
  refine ⟨extended.same, fun t m kept => ?_⟩
  rw [run_mapping, MappingCache.getOrResolve_of_get? (extended.kept kept)]

theorem perform_eq_fault_notebook : ∃ fault s',
    (insertAll noteType [[.int 3, .text "c"], [.int 4]]).run notebook =
      (.error (.query fault), s') ∧ s'.database = notebook.database ∧ s'.cache.size = 1 := by
  obtain ⟨fault, s', h, stored⟩ : ∃ fault s',
      (insertAll noteType [[.int 3, .text "c"], [.int 4]]).run notebook =
        (.error (.query fault), s') ∧ s'.cache.size = 1 := ⟨_, _, by rfl, by rfl⟩
  have unchanged := (perform_eq_fault
    (o := .insertAll noteType [[.int 3, .text "c"], [.int 4]]) h).1
  exact ⟨fault, s', h, by rw [unchanged], stored⟩

end Session

end Tabular
