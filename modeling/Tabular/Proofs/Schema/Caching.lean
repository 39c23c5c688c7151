import Mathlib.Data.Set.Card
import Mathlib.Logic.Function.Basic
import Tabular.Proofs.Except
import Tabular.Schema.Cache

/-! One mapping for each type. Calls that share a cache may come between each other: between the
lookup that misses and the store another call may have stored a mapping that was resolved under
other settings, and then that one is what both give back. -/

namespace Tabular

namespace MappingCache

section Lookups

variable {c c' : MappingCache} {t u : RowType} {m m' : TableMapping} {conventions : Conventions}
  {rules : StorageRules} {p : Provider}

theorem store_of_get? (h : c.get? t = some m) (m' : TableMapping) : c.store t m' = (m, c) := by
  rw [store, h]

theorem store_of_missing (h : c.get? t = none) (m : TableMapping) :
    c.store t m = (m, ⟨c.entries ++ [(t.id, m)]⟩) := by
  rw [store, h]

theorem get?_store (c : MappingCache) (t : RowType) (m : TableMapping) :
    (c.store t m).2.get? t = some (c.store t m).1 := by
  cases h : c.get? t with
  | some stored => rw [store_of_get? h, h]
  | none =>
    rw [store_of_missing h]
    unfold get? at h ⊢
    rw [List.lookup_append, h]
    simp

theorem get?_eq_none_iff : c.get? t = none ↔ t.id ∉ c.entries.map Prod.fst := by
  rw [get?, List.lookup_eq_none_iff, List.mem_map]
  simp only [bne_iff_ne, ne_eq, not_exists, not_and]
  exact forall₂_congr fun _ _ => not_congr eq_comm

theorem mem_of_get? (h : c.get? t = some m) : t.id ∈ c.entries.map Prod.fst := by
  by_contra missing
  rw [get?_eq_none_iff.2 missing] at h
  cases h

theorem get?_of_grown (grown : c.entries <+: c'.entries) (h : c.get? t = some m) :
    c'.get? t = some m := by
  obtain ⟨added, grown⟩ := grown
  unfold get? at h ⊢
  rw [← grown, List.lookup_append, h]
  rfl

theorem place?_of_grown (grown : c.entries <+: c'.entries) (h : c.get? t = some m) :
    c'.place? t = c.place? t := by
  obtain ⟨added, grown⟩ := grown
  have kept : (c.entries.findIdx? fun e => e.1 == t.id).isSome := by
    obtain ⟨e, he, hk⟩ := List.mem_map.1 (mem_of_get? h)
    exact List.findIdx?_isSome.trans (List.any_eq_true.2 ⟨e, he, by simpa using hk⟩)
  unfold place?
  rw [← grown, List.findIdx?_append, Option.or_of_isSome kept]

theorem grown_store (c : MappingCache) (t : RowType) (m : TableMapping) :
    c.entries <+: (c.store t m).2.entries := by
  unfold store
  split
  · exact List.prefix_refl _
  · exact List.prefix_append _ _

theorem get?_of_getOrResolve (h : c.getOrResolve t conventions rules p = .ok (m, c')) :
    c'.get? t = some m := by
  unfold getOrResolve at h
  cases hg : c.get? t with
  | some stored =>
    rw [hg] at h
    cases h
    exact hg
  | none =>
    rw [hg] at h
    obtain ⟨m', _, h⟩ := bind_eq_ok.1 h
    have stored := get?_store c t m'
    rwa [Except.ok.inj h] at stored

theorem getOrResolve_of_get? (h : c.get? t = some m) :
    c.getOrResolve t conventions rules p = .ok (m, c) := by
  rw [getOrResolve, h]

theorem get?_getOrResolve (h : c.getOrResolve t conventions rules p = .ok (m', c'))
    (hm : c.get? u = some m) : c'.get? u = some m := by
  unfold getOrResolve at h
  split at h
  · cases h
    exact hm
  · obtain ⟨resolved, _, h⟩ := bind_eq_ok.1 h
    have grown := grown_store c t resolved
    rw [Except.ok.inj h] at grown
    exact get?_of_grown grown hm

theorem get?_getOrResolve_of_ne (h : c.getOrResolve t conventions rules p = .ok (m, c'))
    (other : u.id ≠ t.id) : c'.get? u = c.get? u := by
  unfold getOrResolve at h
  split at h
  · cases h
    rfl
  · next new =>
    obtain ⟨resolved, _, h⟩ := bind_eq_ok.1 h
    rw [store_of_missing new] at h
    cases h
    unfold get?
    rw [List.lookup_append, List.lookup_cons, beq_eq_false_iff_ne.2 other]
    simp

end Lookups

/-- A call for the mapping of a type, with the settings that it resolves the mapping under. -/
structure Request where
  type : RowType
  conventions : Conventions
  rules : StorageRules
  provider : Provider

/-- How far a call has come. What happens from one of these to the next, no other call can
interrupt. -/
inductive Progress where
  | started
  | missed
  | resolved (m : TableMapping)
  | returned (m : TableMapping)
  | failed (fault : Fault)

namespace Request

def resolve (r : Request) : Except Fault TableMapping :=
  TableMapping.resolve r.type.type r.conventions r.rules r.provider

def getOrResolve (r : Request) (c : MappingCache) : Except Fault (TableMapping × MappingCache) :=
  c.getOrResolve r.type r.conventions r.rules r.provider

/-- The next step of a call: the lookup, then the resolution, for which the cache is not needed,
then the store. A call that has ended takes no more steps. -/
def advance (r : Request) (c : MappingCache) : Progress → Progress × MappingCache
  | .started =>
    match c.get? r.type with
    | some m => (.returned m, c)
    | none => (.missed, c)
  | .missed =>
    match r.resolve with
    | .ok m => (.resolved m, c)
    | .error fault => (.failed fault, c)
  | .resolved m => (.returned (c.store r.type m).1, (c.store r.type m).2)
  | .returned m => (.returned m, c)
  | .failed fault => (.failed fault, c)

def Answers (r : Request) (c : MappingCache) (p : Progress) (c' : MappingCache) : Prop :=
  match r.getOrResolve c with
  | .ok (m, stored) => p = .returned m ∧ c' = stored
  | .error fault => p = .failed fault ∧ c' = c

inductive Step (r : Request) (c : MappingCache) : Progress → Progress × MappingCache → Prop
  | hit {m} : c.get? r.type = some m → Step r c .started (.returned m, c)
  | miss : c.get? r.type = none → Step r c .started (.missed, c)
  | resolve {m} : r.resolve = .ok m → Step r c .missed (.resolved m, c)
  | fail {fault} : r.resolve = .error fault → Step r c .missed (.failed fault, c)
  | share {m m'} : c.get? r.type = some m → Step r c (.resolved m') (.returned m, c)
  | store {m} : c.get? r.type = none →
    Step r c (.resolved m) (.returned m, ⟨c.entries ++ [(r.type.id, m)]⟩)
  | returned {m} : Step r c (.returned m) (.returned m, c)
  | failed {fault} : Step r c (.failed fault) (.failed fault, c)

theorem step_advance (r : Request) (c : MappingCache) (p : Progress) :
    Step r c p (r.advance c p) := by
  cases p with
  | started =>
    cases h : c.get? r.type with
    | some m => simpa only [advance, h] using .hit h
    | none => simpa only [advance, h] using .miss h
  | missed =>
    cases h : r.resolve with
    | ok m => simpa only [advance, h] using .resolve h
    | error fault => simpa only [advance, h] using .fail h
  | resolved m =>
    cases h : c.get? r.type with
    | some stored => simpa only [advance, store_of_get? h] using .share h
    | none => simpa only [advance, store_of_missing h] using .store h
  | returned m => exact .returned
  | failed fault => exact .failed

/-- What the progress of a call says about the cache and about its resolution. -/
def Holds (r : Request) (c : MappingCache) : Progress → Prop
  | .started | .missed => True
  | .resolved m => r.resolve = .ok m
  | .returned m => c.get? r.type = some m
  | .failed fault => r.resolve = .error fault

variable {r : Request} {c c' : MappingCache} {p : Progress} {x : Progress × MappingCache}

theorem Holds.of_grown (h : r.Holds c p) (grown : c.entries <+: c'.entries) : r.Holds c' p := by
  cases p with
  | started => trivial
  | missed => trivial
  | resolved m => exact h
  | returned m => exact get?_of_grown grown h
  | failed fault => exact h

namespace Step

theorem grown (step : r.Step c p x) : c.entries <+: x.2.entries := by
  cases step
  case store => exact List.prefix_append _ _
  all_goals exact List.prefix_refl _

theorem holds (step : r.Step c p x) (h : r.Holds c p) : r.Holds x.2 x.1 := by
  cases step with
  | hit kept => exact kept
  | miss => trivial
  | resolve ok => exact ok
  | fail error => exact error
  | share kept => exact kept
  | @store m missing =>
    have stored := get?_store c r.type m
    rwa [store_of_missing missing] at stored
  | returned => exact h
  | failed => exact h

theorem stored (step : r.Step c p x) (h : r.Holds c p) :
    x.2 = c ∨ ∃ m, c.get? r.type = none ∧ r.resolve = .ok m ∧
      x = (.returned m, ⟨c.entries ++ [(r.type.id, m)]⟩) := by
  cases step
  case store m missing => exact .inr ⟨m, missing, h, rfl⟩
  all_goals exact .inl rfl

theorem of_returned {m : TableMapping} (step : r.Step c (.returned m) x) : x.1 = .returned m := by
  cases step
  rfl

end Step

end Request

def Progress.rank : Progress → Nat
  | .started => 0
  | .missed => 1
  | .resolved _ => 2
  | .returned _ | .failed _ => 3

theorem Request.Step.rank_le {r : Request} {c : MappingCache} {p : Progress}
    {x : Progress × MappingCache} (step : r.Step c p x) : min 3 (p.rank + 1) ≤ x.1.rank := by
  cases step <;> simp [Progress.rank]

theorem Progress.ended_of_rank {p : Progress} (h : 3 ≤ p.rank) :
    (∃ m, p = .returned m) ∨ ∃ fault, p = .failed fault := by
  cases p with
  | started => exact absurd h (by decide)
  | missed => exact absurd h (by decide)
  | resolved m => exact absurd h (by decide : ¬ 3 ≤ 2)
  | returned m => exact .inl ⟨m, rfl⟩
  | failed fault => exact .inr ⟨fault, rfl⟩

structure Shared (ι : Type) where
  cache : MappingCache := {}
  progress : ι → Progress := fun _ => .started

namespace Shared

variable {ι : Type} [DecidableEq ι] (requests : ι → Request)

def step (s : Shared ι) (i : ι) : Shared ι where
  cache := ((requests i).advance s.cache (s.progress i)).2
  progress := Function.update s.progress i ((requests i).advance s.cache (s.progress i)).1

def run (s : Shared ι) (schedule : List ι) : Shared ι := schedule.foldl (step requests) s

variable {requests} {s : Shared ι}

theorem progress_step (s : Shared ι) (i : ι) :
    (s.step requests i).progress i = ((requests i).advance s.cache (s.progress i)).1 :=
  Function.update_self ..

theorem progress_step_of_ne {i j : ι} (h : j ≠ i) :
    (s.step requests i).progress j = s.progress j :=
  Function.update_of_ne h ..

theorem grown_step (s : Shared ι) (i : ι) :
    s.cache.entries <+: (s.step requests i).cache.entries :=
  ((requests i).step_advance s.cache (s.progress i)).grown

theorem grown_run (s : Shared ι) (schedule : List ι) :
    s.cache.entries <+: (s.run requests schedule).cache.entries := by
  induction schedule generalizing s with
  | nil => exact List.prefix_refl _
  | cons i schedule ih => exact (s.grown_step i).trans (ih _)

variable (requests) in
theorem rank_run (s : Shared ι) (schedule : List ι) (i : ι) :
    min 3 ((s.progress i).rank + schedule.count i) ≤
      ((s.run requests schedule).progress i).rank := by
  induction schedule generalizing s with
  | nil => exact min_le_right _ _
  | cons j schedule ih =>
    refine le_trans ?_ (ih (s.step requests j))
    by_cases same : i = j
    · subst same
      have stepped := ((requests i).step_advance s.cache (s.progress i)).rank_le
      rw [progress_step, List.count_cons_self]
      omega
    · rw [progress_step_of_ne same, List.count_cons_of_ne (Ne.symm same)]

/-- Every stored mapping was resolved by a call for its type that has returned it. -/
structure Sound (requests : ι → Request) (s : Shared ι) : Prop where
  distinct : (s.cache.entries.map Prod.fst).Nodup
  holds : ∀ i, (requests i).Holds s.cache (s.progress i)
  owned : ∀ e ∈ s.cache.entries, ∃ i, (requests i).type.id = e.1 ∧
    (requests i).resolve = .ok e.2 ∧ s.progress i = .returned e.2

omit [DecidableEq ι] in
theorem sound_start : Sound requests ({} : Shared ι) where
  distinct := List.nodup_nil
  holds _ := trivial
  owned _ he := absurd he List.not_mem_nil

theorem Sound.step (h : s.Sound requests) (i : ι) : (s.step requests i).Sound requests := by
  have step := (requests i).step_advance s.cache (s.progress i)
  -- A call that has returned stays as it is, so what it owned it still owns.
  have kept {j : ι} {m : TableMapping} (hj : s.progress j = .returned m) :
      (s.step requests i).progress j = .returned m := by
    by_cases same : j = i
    · subst same
      rw [hj] at step
      rw [progress_step, hj, step.of_returned]
    · rwa [progress_step_of_ne same]
  refine ⟨?_, fun j => ?_, fun e he => ?_⟩
  · obtain same | ⟨m, missing, _, stored⟩ := step.stored (h.holds i)
    · rw [Shared.step, same]
      exact h.distinct
    · have new : (requests i).type.id ∉ s.cache.entries.map Prod.fst :=
        get?_eq_none_iff.1 missing
      simpa [Shared.step, stored, List.nodup_append] using ⟨h.distinct, fun a b hab => by
        rintro rfl
        exact new (List.mem_map_of_mem hab)⟩
  · by_cases same : j = i
    · subst same
      rw [progress_step]
      exact step.holds (h.holds j)
    · rw [progress_step_of_ne same]
      exact (h.holds j).of_grown (s.grown_step i)
  · obtain same | ⟨m, _, resolved, stored⟩ := step.stored (h.holds i)
    · rw [Shared.step, same] at he
      obtain ⟨j, hj, resolved, returned⟩ := h.owned e he
      exact ⟨j, hj, resolved, kept returned⟩
    · rw [Shared.step, stored, List.mem_append, List.mem_singleton] at he
      obtain he | rfl := he
      · obtain ⟨j, hj, resolved, returned⟩ := h.owned e he
        exact ⟨j, hj, resolved, kept returned⟩
      · exact ⟨i, rfl, resolved, by rw [progress_step, stored]⟩

theorem Sound.run (h : s.Sound requests) (schedule : List ι) :
    (s.run requests schedule).Sound requests := by
  induction schedule generalizing s with
  | nil => exact h
  | cons i schedule ih => exact ih (h.step i)

omit [DecidableEq ι] in
theorem Sound.get?_eq_some (h : s.Sound requests) {t : RowType} {m : TableMapping}
    (kept : s.cache.get? t = some m) : ∃ i, (requests i).type.id = t.id ∧
      (requests i).resolve = .ok m ∧ s.progress i = .returned m := by
  obtain ⟨before, after, entries, _⟩ := List.lookup_eq_some_iff.1 kept
  exact h.owned (t.id, m) (entries ▸ List.mem_append_right _ List.mem_cons_self)

omit [DecidableEq ι] in
theorem Sound.size_eq (h : s.Sound requests) : s.cache.size =
    {k | ∃ i m, (requests i).type.id = k ∧ s.progress i = .returned m}.ncard := by
  have keys : {k | ∃ i m, (requests i).type.id = k ∧ s.progress i = .returned m} =
      ↑(s.cache.entries.map Prod.fst).toFinset := by
    ext k
    simp only [Set.mem_ofPred_eq, List.coe_toFinset]
    constructor
    · rintro ⟨i, m, rfl, returned⟩
      have kept := h.holds i
      rw [returned] at kept
      exact mem_of_get? kept
    · intro hk
      obtain ⟨e, he, rfl⟩ := List.mem_map.1 hk
      obtain ⟨i, hi, _, returned⟩ := h.owned e he
      exact ⟨i, e.2, hi, returned⟩
  rw [keys, Set.ncard_coe_finset, List.toFinset_card_of_nodup h.distinct, List.length_map, size]

theorem run_alone (s : Shared ι) (i : ι) (started : s.progress i = .started) :
    (requests i).Answers s.cache ((s.run requests [i, i, i]).progress i)
      (s.run requests [i, i, i]).cache := by
  simp only [run, List.foldl_cons, List.foldl_nil, step, Function.update_self, started]
  unfold Request.Answers Request.getOrResolve MappingCache.getOrResolve
  cases hg : s.cache.get? (requests i).type with
  | some m => simp only [Request.advance, hg, and_self]
  | none =>
    cases hr : (requests i).resolve with
    | ok m =>
      have resolved : TableMapping.resolve _ _ _ _ = .ok m := hr
      simp only [Request.advance, hg, hr, resolved]
      exact ⟨rfl, rfl⟩
    | error fault =>
      have failed : TableMapping.resolve _ _ _ _ = .error fault := hr
      simp only [Request.advance, hg, hr, failed]
      exact ⟨rfl, trivial⟩

theorem calls_share_mapping (requests : ι → Request) (schedule : List ι) :
    let s := ({} : Shared ι).run requests schedule
    (∀ i j m n, (requests i).type.id = (requests j).type.id →
      s.progress i = .returned m → s.progress j = .returned n → m = n) ∧
    (∀ i m, s.progress i = .returned m → ∃ j, (requests j).type.id = (requests i).type.id ∧
      (requests j).resolve = .ok m ∧ s.progress j = .returned m) ∧
    (∀ i m later, s.progress i = .returned m →
      (s.run requests later).cache.get? (requests i).type = some m ∧
      (s.run requests later).cache.place? (requests i).type = s.cache.place? (requests i).type) ∧
    (∀ i fault, (requests i).resolve = .error fault → (s.step requests i).cache = s.cache) ∧
    s.cache.size = {k | ∃ i m, (requests i).type.id = k ∧ s.progress i = .returned m}.ncard ∧
    (∀ i, 3 ≤ schedule.count i → (∃ m, s.progress i = .returned m) ∨
      ∃ fault, s.progress i = .failed fault ∧ (requests i).resolve = .error fault) ∧
    ∀ i, s.progress i = .started → (requests i).Answers s.cache
      ((s.run requests [i, i, i]).progress i) (s.run requests [i, i, i]).cache := by
  intro s
  have sound : s.Sound requests := sound_start.run schedule
  have kept {i : ι} {m : TableMapping} (returned : s.progress i = .returned m) :
      s.cache.get? (requests i).type = some m := by
    have holds := sound.holds i
    rwa [returned] at holds
  refine ⟨fun i j m n same hi hj => ?_, fun i m hi => sound.get?_eq_some (kept hi),
    fun i m later hi => ⟨get?_of_grown (s.grown_run later) (kept hi),
      place?_of_grown (s.grown_run later) (kept hi)⟩,
    fun i fault hf => ?_, sound.size_eq, fun i three => ?_, s.run_alone⟩
  · have one := kept hj
    rw [get?, ← same] at one
    exact Option.some.inj ((kept hi).symm.trans one)
  · obtain same | ⟨m, _, resolved, _⟩ :=
      ((requests i).step_advance s.cache (s.progress i)).stored (sound.holds i)
    · exact same
    · rw [hf] at resolved
      cases resolved
  · have rank := ({} : Shared ι).rank_run requests schedule i
    obtain ⟨m, returned⟩ | ⟨fault, failed⟩ := Progress.ended_of_rank (le_trans (by omega) rank)
    · exact .inl ⟨m, returned⟩
    · have holds := sound.holds i
      rw [failed] at holds
      exact .inr ⟨fault, failed, holds⟩

private def rivals (numbered : Bool) : Request where
  type := ⟨0, { name := "Note", members := [{ name := "Id", kind := .int64 }] }⟩
  conventions := { keyById := true, numberedKey := numbered }
  rules := {}
  provider := .attributes

theorem calls_share_mapping_rivals : ∃ m n,
    let s := ({} : Shared Bool).run rivals [false, true, false, true, true, false]
    (rivals false).resolve = .ok m ∧ (rivals true).resolve = .ok n ∧
    m.columns.map Column.autoIncrement ≠ n.columns.map Column.autoIncrement ∧
    s.progress true = .returned n ∧ s.progress false = .returned n ∧ s.cache.size = 1 := by
  obtain ⟨m, n, hm, hn, apart, mine, theirs, size⟩ : ∃ m n,
      (rivals false).resolve = .ok m ∧ (rivals true).resolve = .ok n ∧
      m.columns.map Column.autoIncrement ≠ n.columns.map Column.autoIncrement ∧
      (({} : Shared Bool).run rivals [false, true, false, true, true, false]).progress true =
        .returned n ∧
      (∃ k, (({} : Shared Bool).run rivals [false, true, false, true, true, false]).progress
        false = .returned k) ∧
      (({} : Shared Bool).run rivals [false, true, false, true, true, false]).cache.size = 1 :=
    ⟨_, _, by rfl, by rfl, by decide, by rfl, ⟨_, by rfl⟩, by rfl⟩
  obtain ⟨k, theirs⟩ := theirs
  have shared := (calls_share_mapping rivals [false, true, false, true, true, false]).1
  cases shared true false n k rfl mine theirs
  exact ⟨m, n, hm, hn, apart, mine, theirs, size⟩

end Shared

end MappingCache

end Tabular
