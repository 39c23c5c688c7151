import Mathlib.Data.List.Forall2
import Mathlib.Data.List.Nodup
import Tabular.Proofs.Schema.Drafting
import Tabular.Schema.Mapping

namespace Tabular

theorem Index.exists_group {table : String} {ds : List ColumnIndex} :
    (∃ is, Index.group table ds = .ok is) ↔
      ∀ d ∈ ds, ∀ e ∈ ds, d.name table = e.name table → d.unique = e.unique := by
  rw [← ColumnIndex.clash?_eq_none, Index.group_eq]
  cases ColumnIndex.clash? table ds <;> simp

theorem StorageRules.class?_of_isInteger (rules : StorageRules) {kind : Kind} (h : kind.isInteger)
    (maxLength : Option Nat) : rules.class? kind maxLength = some "integer" := by
  cases kind <;> first | rfl | cases h

theorem StorageRules.storageClass_eq_ok {rules : StorageRules} {kind : Kind}
    {maxLength : Option Nat} {c : String} :
    rules.storageClass kind maxLength = .ok c ↔ rules.class? kind maxLength = some c := by
  unfold storageClass
  cases rules.class? kind maxLength <;> simp

section Counting

variable {α : Type} {p k : α → Bool} {xs : List α} {x : α}

theorem filter_eq_singleton (distinct : xs.Nodup) (hx : x ∈ xs) (hp : p x)
    (only : ∀ y ∈ xs, p y → y = x) : xs.filter p = [x] := by
  have same : ∀ y ∈ xs.filter p, y = x := fun y hy =>
    only y (List.mem_filter.1 hy).1 (List.mem_filter.1 hy).2
  have present : x ∈ xs.filter p := List.mem_filter.2 ⟨hx, hp⟩
  have shape := List.eq_replicate_of_mem same
  have single := List.nodup_replicate.1 (shape ▸ distinct.filter p)
  have positive := List.length_pos_of_mem present
  rw [shape, Nat.le_antisymm single positive]
  rfl

theorem eq_of_countP_le_one {y : α} (h : xs.countP p ≤ 1) (hx : x ∈ xs) (hpx : p x) (hy : y ∈ xs)
    (hpy : p y) : y = x := by
  rw [List.countP_eq_length_filter] at h
  have mx : x ∈ xs.filter p := List.mem_filter.2 ⟨hx, hpx⟩
  have my : y ∈ xs.filter p := List.mem_filter.2 ⟨hy, hpy⟩
  match hf : xs.filter p, h with
  | [], _ => rw [hf] at mx; cases mx
  | [z], _ =>
    rw [hf, List.mem_singleton] at mx my
    rw [mx, my]

theorem countP_eq_one_iff (distinct : xs.Nodup) (hx : x ∈ xs) (hp : p x) :
    xs.countP p = 1 ↔ ∀ y ∈ xs, p y → y = x := by
  constructor
  · intro one y hy hpy
    exact eq_of_countP_le_one (Nat.le_of_eq one) hx hp hy hpy
  · intro only
    rw [List.countP_eq_length_filter, filter_eq_singleton distinct hx hp only]
    rfl

theorem countP_eq_of_forall₂ {β : Type} {R : α → β → Prop} {ys : List β} {q : β → Bool}
    (h : List.Forall₂ R xs ys) (same : ∀ x y, R x y → (p x ↔ q y)) : xs.countP p = ys.countP q := by
  rw [List.countP_eq_length_filter, List.countP_eq_length_filter]
  exact (List.rel_filter (fun x y hxy => same x y hxy) h).length_eq

theorem countP_le_one_iff (distinct : xs.Nodup) (keyed : ∀ x ∈ xs, p x → k x) :
    xs.countP p ≤ 1 ∧ (xs.countP p = 1 → xs.countP k ≤ 1) ↔
      ∀ x ∈ xs, p x → ∀ y ∈ xs, k y → y = x := by
  constructor
  · rintro ⟨single, alone⟩ x hx hpx y hy hky
    have one : xs.countP p = 1 := Nat.le_antisymm single (List.countP_pos_iff.2 ⟨x, hx, hpx⟩)
    exact eq_of_countP_le_one (alone one) hx (keyed x hx hpx) hy hky
  · intro alone
    by_cases h : ∃ x ∈ xs, p x
    · obtain ⟨x, hx, hpx⟩ := h
      have numbered := filter_eq_singleton distinct hx hpx fun y hy hpy =>
        alone x hx hpx y hy (keyed y hy hpy)
      have keys := filter_eq_singleton distinct hx (keyed x hx hpx) (alone x hx hpx)
      simp [List.countP_eq_length_filter, numbered, keys]
    · have none : xs.countP p = 0 :=
        List.countP_eq_zero.2 fun x hx hpx => h ⟨x, hx, hpx⟩
      simp [none]

end Counting

namespace RecordType

section Declared

variable (type : RecordType) (conventions : Conventions) (rules : StorageRules) (p : Provider)

theorem nodup_stored : (type.stored p).Nodup := by
  have places : (type.members.zipIdx.map Prod.snd).Nodup := by
    rw [List.zipIdx_map_snd]
    exact List.nodup_range'
  exact places.of_map.filter _

def IsKey (m : Member × Nat) : Prop :=
  (p.facts m.1).primaryKey ∨ conventions.keyById ∧ Text.sameName m.1.name "Id"

def declarations : List ColumnIndex :=
  (type.stored p).flatMap fun m =>
    (m.1.indices conventions (p.facts m.1)).map fun d => ⟨(p.facts m.1).column, d⟩

/-- No declaration contradicts another one. -/
structure Consistent : Prop where
  storable : ∀ m ∈ type.stored p,
    ∃ c, rules.storageClass m.1.kind (p.facts m.1).maxLength = .ok c
  numbered_key : ∀ m ∈ type.stored p, (p.facts m.1).autoIncrement →
    IsKey conventions p m ∧ m.1.kind.isInteger
  numbered_alone : ∀ m ∈ type.stored p, (p.facts m.1).autoIncrement →
    ∀ n ∈ type.stored p, (p.facts n.1).autoIncrement ∨ IsKey conventions p n → n = m
  indices_agree : ∀ d ∈ type.declarations conventions p, ∀ e ∈ type.declarations conventions p,
    d.name (p.table type) = e.name (p.table type) → d.unique = e.unique

/-- The column says of the member what is declared about it. It is numbered by declaration, or by
convention as the only key. -/
structure Describes (m : Member × Nat) (c : Column) : Prop where
  name : c.name = (p.facts m.1).column
  property : c.property = m.1.name
  memberIndex : c.memberIndex = m.2
  kind : c.kind = m.1.kind
  storage : rules.storageClass m.1.kind (p.facts m.1).maxLength = .ok c.storage
  primaryKey : c.primaryKey ↔ IsKey conventions p m
  nullable : c.nullable ↔ ¬ (IsKey conventions p m ∨ (p.facts m.1).notNull)
  autoIncrement : c.autoIncrement ↔ (p.facts m.1).autoIncrement ∨
    conventions.numberedKey ∧ m.1.kind.isInteger ∧ IsKey conventions p m ∧
      ∀ n ∈ type.stored p, IsKey conventions p n → n = m
  collation : c.collation = (p.facts m.1).collation
  maxLength : c.maxLength = (p.facts m.1).maxLength
  default : c.default = (p.facts m.1).default

end Declared

end RecordType

namespace Member

def columnOf (m : Member) (place : Nat) (conventions : Conventions) (facts : MemberFacts)
    (storage : String) : Column where
  name := facts.column
  property := m.name
  memberIndex := place
  kind := m.kind
  storage := storage
  nullable := !(m.isKey conventions facts || facts.notNull)
  primaryKey := m.isKey conventions facts
  autoIncrement := facts.autoIncrement
  collation := facts.collation
  maxLength := facts.maxLength
  default := facts.default

theorem column_eq_ok {m : Member} {place : Nat} {table : String} {conventions : Conventions}
    {rules : StorageRules} {facts : MemberFacts} {c : Column} :
    m.column place table conventions rules facts = .ok c ↔
      (facts.autoIncrement → m.isKey conventions facts ∧ m.kind.isInteger) ∧
      ∃ storage, rules.storageClass m.kind facts.maxLength = .ok storage ∧
        c = m.columnOf place conventions facts storage := by
  simp only [column, ite_throw_eq_ok, bind_eq_ok, pure, Except.pure, Except.ok.injEq,
    @eq_comm _ _ c, columnOf]
  rw [← and_assoc]
  refine and_congr_left fun _ => ?_
  cases facts.autoIncrement <;> cases m.isKey conventions facts <;> simp

end Member

theorem checkKeys_eq_ok {table : String} {columns : List Column} :
    checkKeys table columns = .ok () ↔ columns.countP Column.autoIncrement ≤ 1 ∧
      (columns.countP Column.autoIncrement = 1 → columns.countP Column.primaryKey ≤ 1) := by
  unfold checkKeys
  dsimp only
  split
  · next several => exact iff_of_false nofun fun h => absurd h.1 (Nat.not_le.2 several)
  split
  · next composite =>
    exact iff_of_false nofun fun h => absurd (h.2 composite.1) (Nat.not_le.2 composite.2)
  · next single alone =>
    exact iff_of_true rfl ⟨Nat.le_of_not_lt single, fun one =>
      Nat.le_of_not_lt fun many => alone ⟨one, many⟩⟩

theorem numberKey_eq (conventions : Conventions) (columns : List Column) :
    numberKey conventions columns = columns.map fun c => { c with
      autoIncrement := c.autoIncrement || (conventions.numberedKey &&
        columns.countP Column.primaryKey == 1 && (c.primaryKey && c.kind.isInteger)) } := by
  unfold numberKey
  split
  · next h =>
    refine List.map_congr_left fun c _ => ?_
    rw [h, Bool.true_and]
    cases c.primaryKey && c.kind.isInteger <;> simp
  · next h => simp [h]

namespace RecordType

variable {type : RecordType} {conventions : Conventions} {rules : StorageRules} {p : Provider}
  {t : TableMapping}

theorem isKey_iff {m : Member × Nat} :
    m.1.isKey conventions (p.facts m.1) ↔ IsKey conventions p m := by
  simp [Member.isKey, IsKey]

theorem resolve_eq_ok : TableMapping.resolve type conventions rules p = .ok t ↔
    ∃ columns indices,
      (type.stored p).mapM (fun m =>
        m.1.column m.2 (p.table type) conventions rules (p.facts m.1)) = .ok columns ∧
      checkKeys (p.table type) columns = .ok () ∧
      Index.group (p.table type) (type.declarations conventions p) = .ok indices ∧
      t = { typeName := type.name, tableName := p.table type,
            columns := numberKey conventions columns, indices := indices,
            ticks := rules.ticks } := by
  simp only [TableMapping.resolve, bind_eq_ok, pure, Except.pure, Except.ok.injEq, @eq_comm _ _ t]
  constructor
  · rintro ⟨columns, hc, _, hk, indices, hi, ht⟩
    exact ⟨columns, indices, hc, hk, hi, ht⟩
  · rintro ⟨columns, indices, hc, hk, hi, ht⟩
    exact ⟨columns, hc, _, hk, indices, hi, ht⟩

section Resolved

variable {columns : List Column}
  (hc : (type.stored p).mapM (fun m =>
    m.1.column m.2 (p.table type) conventions rules (p.facts m.1)) = .ok columns)

include hc

theorem plain_columns : List.Forall₂ (fun m c =>
    ((p.facts m.1).autoIncrement → IsKey conventions p m ∧ m.1.kind.isInteger) ∧
    ∃ storage, rules.storageClass m.1.kind (p.facts m.1).maxLength = .ok storage ∧
      c = m.1.columnOf m.2 conventions (p.facts m.1) storage) (type.stored p) columns := by
  simpa only [Member.column_eq_ok, isKey_iff] using mapM_eq_ok.1 hc

theorem checkKeys_iff : checkKeys (p.table type) columns = .ok () ↔
    ∀ m ∈ type.stored p, (p.facts m.1).autoIncrement →
      ∀ n ∈ type.stored p, IsKey conventions p n → n = m := by
  have plain := plain_columns hc
  have numbered : (type.stored p).countP (fun m => (p.facts m.1).autoIncrement) =
      columns.countP Column.autoIncrement :=
    countP_eq_of_forall₂ plain fun m c h => by obtain ⟨_, _, _, rfl⟩ := h; rfl
  have keys : (type.stored p).countP (fun m => m.1.isKey conventions (p.facts m.1)) =
      columns.countP Column.primaryKey :=
    countP_eq_of_forall₂ plain fun m c h => by obtain ⟨_, _, _, rfl⟩ := h; rfl
  have keyed : ∀ m ∈ type.stored p, (p.facts m.1).autoIncrement →
      m.1.isKey conventions (p.facts m.1) := fun m hm hn =>
    isKey_iff.2 (((List.forall₂_and_left _ _).1 plain).1 m hm hn).1
  rw [checkKeys_eq_ok, ← numbered, ← keys, countP_le_one_iff (type.nodup_stored p) keyed]
  simp only [isKey_iff]

theorem described : List.Forall₂ (type.Describes conventions rules p) (type.stored p)
    (numberKey conventions columns) := by
  have plain := plain_columns hc
  have keys : (type.stored p).countP (fun m => m.1.isKey conventions (p.facts m.1)) =
      columns.countP Column.primaryKey :=
    countP_eq_of_forall₂ plain fun m c h => by obtain ⟨_, _, _, rfl⟩ := h; rfl
  rw [numberKey_eq, List.forall₂_map_right_iff]
  refine ((List.forall₂_and_left _ _).2 ⟨fun m hm => hm, plain⟩).imp ?_
  rintro m c ⟨hm, _, storage, hs, rfl⟩
  have only (hk : IsKey conventions p m) : columns.countP Column.primaryKey = 1 ↔
      ∀ n ∈ type.stored p, IsKey conventions p n → n = m := by
    rw [← keys, countP_eq_one_iff (type.nodup_stored p) hm (isKey_iff.2 hk)]
    simp only [isKey_iff]
  refine ⟨rfl, rfl, rfl, rfl, hs, isKey_iff, ?_, ?_, rfl, rfl, rfl⟩
  · simp [Member.columnOf, ← isKey_iff]
  · simp only [Member.columnOf, Bool.or_eq_true, Bool.and_eq_true, beq_iff_eq, isKey_iff]
    refine or_congr_right ⟨?_, ?_⟩
    · rintro ⟨⟨convention, one⟩, key, integer⟩
      exact ⟨convention, integer, key, (only key).1 one⟩
    · rintro ⟨convention, integer, key, alone⟩
      exact ⟨⟨convention, (only key).2 alone⟩, key, integer⟩

end Resolved

theorem exists_resolve_iff : (∃ t, TableMapping.resolve type conventions rules p = .ok t) ↔
    type.Consistent conventions rules p := by
  constructor
  · rintro ⟨t, ht⟩
    obtain ⟨columns, indices, hc, hk, hi, _⟩ := resolve_eq_ok.1 ht
    have numbered := ((List.forall₂_and_left _ _).1 (plain_columns hc)).1
    refine ⟨fun m hm => ?_, numbered, fun m hm hn n hm' ho => ?_, Index.exists_group.1 ⟨_, hi⟩⟩
    · obtain ⟨c, _, hm⟩ := exists_of_mapM_eq_ok hc m hm
      obtain ⟨_, storage, hs, _⟩ := Member.column_eq_ok.1 hm
      exact ⟨storage, hs⟩
    · exact (checkKeys_iff hc).1 hk m hm hn n hm' (ho.elim (fun h => (numbered n hm' h).1) id)
  · intro h
    have column : ∀ m ∈ type.stored p, ∃ c,
        m.1.column m.2 (p.table type) conventions rules (p.facts m.1) = .ok c := by
      intro m hm
      obtain ⟨storage, hs⟩ := h.storable m hm
      exact ⟨_, Member.column_eq_ok.2
        ⟨fun hn => (h.numbered_key m hm hn).imp_left isKey_iff.2, storage, hs, rfl⟩⟩
    obtain ⟨columns, hc⟩ := exists_mapM_eq_ok column
    obtain ⟨indices, hi⟩ := Index.exists_group.2 h.indices_agree
    have checked := (checkKeys_iff hc).2 fun m hm hn n hm' hk =>
      h.numbered_alone m hm hn n hm' (.inr hk)
    exact ⟨_, resolve_eq_ok.2 ⟨columns, indices, hc, checked, hi, rfl⟩⟩

variable {c : Column}

theorem Consistent.of_numbered (h : type.Consistent conventions rules p) {m : Member × Nat}
    (hm : m ∈ type.stored p) (hd : type.Describes conventions rules p m c) (hn : c.autoIncrement) :
    m.1.kind.isInteger ∧ IsKey conventions p m ∧
      ∀ n ∈ type.stored p, IsKey conventions p n → n = m := by
  rcases hd.autoIncrement.1 hn with declared | ⟨_, only⟩
  · obtain ⟨key, integer⟩ := h.numbered_key m hm declared
    exact ⟨integer, key, fun n hm' hk => h.numbered_alone m hm declared n hm' (.inr hk)⟩
  · exact only

theorem described_columns (ht : TableMapping.resolve type conventions rules p = .ok t) :
    List.Forall₂ (type.Describes conventions rules p) (type.stored p) t.columns := by
  obtain ⟨columns, indices, hc, _, _, rfl⟩ := resolve_eq_ok.1 ht
  exact described hc

theorem numbered_column (ht : TableMapping.resolve type conventions rules p = .ok t)
    (hc : c ∈ t.columns) (hn : c.autoIncrement) : c.primaryKey ∧ c.kind.isInteger ∧
      c.storage = "integer" ∧ t.columns.filter Column.autoIncrement = [c] ∧ t.keys = [c] := by
  have consistent := exists_resolve_iff.1 ⟨t, ht⟩
  have describes := described_columns ht
  obtain ⟨m, hm, hd⟩ := exists_of_forall₂ describes hc
  obtain ⟨integer, key, alone⟩ := consistent.of_numbered hm hd hn
  have primary : c.primaryKey := hd.primaryKey.2 key
  have storage : c.storage = "integer" := by
    have class_eq := StorageRules.storageClass_eq_ok.1 hd.storage
    rw [rules.class?_of_isInteger integer] at class_eq
    exact (Option.some.inj class_eq).symm
  have keys_eq : t.keys = [c] := by
    have pairs : List.Forall₂ (type.Describes conventions rules p)
        ((type.stored p).filter fun n => n.1.isKey conventions (p.facts n.1)) t.keys :=
      List.rel_filter (fun n d hnd => isKey_iff.trans hnd.primaryKey.symm) describes
    rw [filter_eq_singleton (type.nodup_stored p) hm (isKey_iff.2 key)
      fun n hn' hk => alone n hn' (isKey_iff.1 hk)] at pairs
    obtain ⟨d, _, _, rest, keys⟩ := List.forall₂_cons_left_iff.1 pairs
    rw [List.forall₂_nil_left_iff.1 rest] at keys
    have present : c ∈ t.keys := List.mem_filter.2 ⟨hc, primary⟩
    rw [keys, List.mem_singleton] at present
    rw [keys, present]
  -- Whatever is numbered is a key, so the numbered columns are to be found among the keys.
  have numbered_keys : t.columns.filter Column.autoIncrement =
      t.keys.filter Column.autoIncrement := by
    rw [TableMapping.keys, List.filter_filter]
    refine List.filter_congr fun d hd' => ?_
    obtain ⟨n, hn', hnd⟩ := exists_of_forall₂ describes hd'
    cases numbered : d.autoIncrement with
    | false => rfl
    | true => exact (hnd.primaryKey.2 (consistent.of_numbered hn' hnd numbered).2.1).symm
  refine ⟨primary, hd.kind ▸ integer, storage, ?_, keys_eq⟩
  rw [numbered_keys, keys_eq, List.filter_cons_of_pos hn]
  rfl

theorem resolves_iff (type : RecordType) (conventions : Conventions) (rules : StorageRules)
    (p : Provider) :
    ((∃ t, TableMapping.resolve type conventions rules p = .ok t) ↔
      type.Consistent conventions rules p) ∧
    ∀ t, TableMapping.resolve type conventions rules p = .ok t →
      List.Forall₂ (type.Describes conventions rules p) (type.stored p) t.columns ∧
      ∀ c ∈ t.columns, c.autoIncrement → c.primaryKey ∧ c.kind.isInteger ∧
        c.storage = "integer" ∧ t.columns.filter Column.autoIncrement = [c] ∧ t.keys = [c] :=
  ⟨exists_resolve_iff, fun _ ht => ⟨described_columns ht, fun _ hc hn => numbered_column ht hc hn⟩⟩

def numberedNotes : RecordType where
  name := "Note"
  members := [
    { name := "draft", kind := .text, attributes := [.ignore] },
    { name := "ID", kind := .int64 },
    { name := "title", kind := .text, attributes := [.notNull] }]

theorem resolves_iff_numberedNotes : ∃ t c,
    TableMapping.resolve numberedNotes { keyById := true, numberedKey := true } {} .attributes =
      .ok t ∧
    numberedNotes.Consistent { keyById := true, numberedKey := true } {} .attributes ∧
    t.columns.map Column.memberIndex = [1, 2] ∧
    c ∈ t.columns ∧ c.memberIndex = 1 ∧ c.autoIncrement ∧ c.storage = "integer" ∧
      t.keys = [c] := by
  obtain ⟨t, c, ht, places, first, place, numbered⟩ : ∃ t c,
      TableMapping.resolve numberedNotes { keyById := true, numberedKey := true } {} .attributes =
        .ok t ∧ t.columns.map Column.memberIndex = [1, 2] ∧ t.columns.head? = some c ∧
        c.memberIndex = 1 ∧ c.autoIncrement := ⟨_, _, by rfl, by rfl, by rfl, by rfl, by rfl⟩
  obtain ⟨resolves, columns⟩ :=
    resolves_iff numberedNotes { keyById := true, numberedKey := true } {} .attributes
  have present : c ∈ t.columns := List.mem_of_head? first
  obtain ⟨_, _, storage, _, keys⟩ := (columns t ht).2 c present numbered
  exact ⟨t, c, ht, resolves.1 ⟨t, ht⟩, places, present, place, numbered, storage, keys⟩

end RecordType

end Tabular
