import Mathlib.Data.List.Forall2
import Mathlib.Logic.Relation
import Tabular.Proofs.Database.Creating
import Tabular.Proofs.Database.Equality
import Tabular.Proofs.Database.Order

/-! The key of a table. It is made of the places that the declaration names, and whatever statements
change the rows, no two of them agree in all of these places. -/

namespace Tabular.Database

open Sql (ColumnDefinition Term)
open Std (OrientedCmp TransCmp)

namespace Affinity

variable {d : Datum}

theorem signed?_eq_some {cs rest : List Char} (h : signed? cs = some (d, rest)) :
    (∃ n, d = .integer n) ∨ ∃ x, d = .real x := by
  obtain ⟨⟨n, _⟩, _, h⟩ := Option.map_eq_some_iff.1 h
  have number := congrArg Prod.fst h
  dsimp only at number
  split at number
  · exact .inl ⟨_, number.symm⟩
  · exact .inr ⟨_, number.symm⟩

theorem toNumber_toNumber (d : Datum) : toNumber (toNumber d) = toNumber d := by
  cases d with
  | text s =>
    cases h : number? s with
    | none => simp [toNumber, h]
    | some e =>
      obtain ⟨⟨e', rest⟩, hs, he⟩ := Option.bind_eq_some_iff.1 h
      split at he <;> cases he
      obtain ⟨n, rfl⟩ | ⟨x, rfl⟩ := signed?_eq_some hs <;> simp [toNumber, h]
  | _ => rfl

theorem toNumber_toInteger (h : toNumber d = d) : toNumber (toInteger d) = toInteger d := by
  cases d with
  | real x =>
    unfold toInteger
    dsimp only
    cases integral? x <;> rfl
  | _ => exact h

theorem toNumber_toReal (h : toNumber d = d) : toNumber (toReal d) = toReal d := by
  cases d with
  | integer n => rfl
  | _ => exact h

theorem compare_store (a : Affinity) (d : Datum) : a.compare (a.store d) = a.store d := by
  have number := toNumber_toNumber d
  cases a with
  | text => cases d <;> rfl
  | numeric | integer => exact toNumber_toInteger number
  | real => exact toNumber_toReal (toNumber_toInteger number)
  | untyped => rfl

end Affinity

namespace Table

variable {t t' : Table} {r s : Row} {p : Place} {indices : List TableIndex}
  {given : List (Place × Datum)} {id : Int64}

/-- The places that tell rows apart, if the table has a key. -/
def keyPlaces (t : Table) : List Place := if t.rowId.isSome then [.id] else t.key.map .cell

def agreeAt (t : Table) (r s : Row) (p : Place) : Bool :=
  r.get p != .null && s.get p != .null &&
    compareData (t.collationOf p) (r.get p) (s.get p) == .eq

theorem agreeAt_id : t.agreeAt r s .id ↔ r.id = s.id := by
  simp [agreeAt, Row.get, compareData, Int64.toInt_inj]

def agree (t : Table) (r s : Row) : Bool := t.keyPlaces.all (t.agreeAt r s)

theorem agree_symm (h : t.agree r s) : t.agree s r := by
  simp only [agree, agreeAt, List.all_eq_true, Bool.and_eq_true, bne_iff_ne, beq_iff_eq] at h ⊢
  exact fun p hp => ⟨⟨(h p hp).1.2, (h p hp).1.1⟩, OrientedCmp.eq_comm.1 (h p hp).2⟩

theorem agree_of_rowId (h : t.rowId.isSome) : t.agree r s ↔ r.id = s.id := by
  simp [agree, keyPlaces, h, agreeAt_id]

theorem agree_of_key (h : t.rowId = none) : t.agree r s = t.collide t.key r s := by
  rw [agree, keyPlaces, h, collide]
  exact List.all_map

/-- No two rows agree in the key, and what is stored in it is compared as it is. -/
structure IsSound (t : Table) : Prop where
  apart : t.keyPlaces ≠ [] → t.rows.Pairwise fun r s => ¬ t.agree r s
  stored : ∀ r ∈ t.rows, ∀ p ∈ t.keyPlaces, (t.affinityOf p).compare (r.get p) = r.get p

theorem isSound_of_empty (h : t.rows = []) : t.IsSound := by
  constructor <;> simp [h]

/-- What an insertion does to a table, once there is an id for the row. -/
inductive Adds (t : Table) (indices : List TableIndex) (given : List (Place × Datum)) :
    Option Row → Table → Prop
  | ignore {id : Int64} {c : TableColumn} (hc : c ∈ t.columns) (ignored : c.onNull = .ignore) :
      Adds t indices given none { t with highest := max t.highest id }
  | insert {id : Int64} (hid : t.idOf? ((given.lookup .id).getD .null) = some id)
      (free : t.obstacle? indices (t.newRow id given) = none) :
      Adds t indices given (some (t.newRow id given))
        { t with rows := insertRow (t.newRow id given) t.rows, highest := max t.highest id }

/-- One change of a table by a statement. -/
inductive Change (t : Table) : Table → Prop
  | keep : Change t t
  | add {indices : List TableIndex} {given : List (Place × Datum)} {added : Option Row}
      {t' : Table} (h : t.Adds indices given added t') : Change t t'
  | narrow {rows : List Row} (h : rows.Sublist t.rows) : Change t { t with rows := rows }

theorem insertRow_perm (r : Row) (rows : List Row) : (insertRow r rows).Perm (r :: rows) := by
  induction rows with
  | nil => exact .refl _
  | cons s rows ih =>
    rw [insertRow]
    split
    · exact .refl _
    · exact (ih.cons s).trans (.swap r s rows)

theorem mem_columns_of_missing? {cells : List Datum} {c : TableColumn}
    (h : t.missing? cells = some c) : c ∈ t.columns := by
  obtain ⟨⟨c', d⟩, found, rfl⟩ := Option.map_eq_some_iff.1 h
  exact (List.of_mem_zip (List.mem_of_find?_eq_some found)).1

theorem adds_of_add {added : Option Row} (h : t.add indices given = .ok (added, t')) :
    t.Adds indices given added t' := by
  unfold add at h
  split at h
  · cases h
  next id hid =>
    dsimp only at h
    split at h
    · next c missing =>
      split at h <;> cases h
      next ignored => exact .ignore (mem_columns_of_missing? missing) ignored
    · split at h <;> cases h
      next free => exact .insert hid free

theorem not_agree_of_obstacle? (h : t.obstacle? indices r = none) (hk : t.keyPlaces ≠ []) :
    ∀ s ∈ t.rows, ¬ t.agree r s := by
  unfold obstacle? at h
  split at h
  · cases h
  next taken =>
    split at h
    · cases h
    split at h
    · cases h
    next collides =>
      -- A row id is checked by itself, any other key by its index.
      intro s hs agree
      cases hid : t.rowId with
      | some i =>
        rw [agree_of_rowId (by simp [hid])] at agree
        exact taken (by simp [hid]; exact ⟨s, hs, agree.symm⟩)
      | none =>
        rw [agree_of_key hid] at agree
        have key : t.key ≠ [] := by simpa [keyPlaces, hid] using hk
        exact collides (by simpa [key, collidesWithAny] using ⟨s, hs, agree⟩)

theorem compare_cellsOf (given : List (Place × Datum)) (id : Int64) (i : Nat) :
    (t.affinityOf (.cell i)).compare (Row.cell ⟨id, t.cellsOf given⟩ i) =
      Row.cell ⟨id, t.cellsOf given⟩ i := by
  rw [Row.cell, cellsOf, affinityOf, List.getElem?_map, List.getElem?_zipIdx]
  cases t.columns[i]? with
  | none => rfl
  | some c => exact c.affinity.compare_store _

theorem stored_newRow (id : Int64) (given : List (Place × Datum)) : ∀ p ∈ t.keyPlaces,
    (t.affinityOf p).compare ((t.newRow id given).get p) = (t.newRow id given).get p := by
  intro p hp
  cases h : t.rowId with
  | some i =>
    obtain rfl : p = .id := by simpa [keyPlaces, h] using hp
    rfl
  | none =>
    obtain ⟨i, _, rfl⟩ : ∃ i ∈ t.key, .cell i = p := by simpa [keyPlaces, h] using hp
    rw [newRow, withId, h]
    exact compare_cellsOf given id i

namespace Change

theorem layout (h : t.Change t') : t' = { t with rows := t'.rows, highest := t'.highest } := by
  cases h with
  | keep => rfl
  | add h => cases h <;> rfl
  | narrow => rfl

theorem isSound (h : t.Change t') (ht : t.IsSound) : t'.IsSound := by
  cases h with
  | keep => exact ht
  | narrow h => exact ⟨fun hk => (ht.apart hk).sublist h, fun r hr => ht.stored r (h.subset hr)⟩
  | @add _ given _ _ h =>
    cases h with
    | ignore => exact ⟨ht.apart, ht.stored⟩
    | @insert id _ free =>
      have perm := insertRow_perm (t.newRow id given) t.rows
      refine ⟨fun hk => ?_, fun r hr => ?_⟩
      · exact (perm.pairwise_iff fun differ agree => differ (agree_symm agree)).2
          (.cons (not_agree_of_obstacle? free hk) (ht.apart hk))
      · rcases List.mem_cons.1 (perm.subset hr) with rfl | hr
        · exact stored_newRow id given
        · exact ht.stored r hr

end Change

end Table

section Addressing

variable {t : Table} {names : List String} {args : List Datum} {r s : Row} {n : String} {p : Place}
  {d : Datum}

def Table.hasAll (t : Table) (names : List String) (args : List Datum) (r : Row) : Bool :=
  (names.zip args).all fun c => t.equals? c.1 c.2 r == some true

def Table.IsKeyedBy (t : Table) (names : List String) : Prop :=
  List.Forall₂ (fun n p => t.locate? n = some p) names t.keyPlaces

theorem Table.equals?_eq_true (hp : t.locate? n = some p)
    (stored : (t.affinityOf p).compare (r.get p) = r.get p) (h : t.equals? n d r == some true) :
    r.get p ≠ .null ∧
      compareData (t.collationOf p) (r.get p) ((t.affinityOf p).compare (argument d)) = .eq := by
  simp only [equals?, affinityIn, collationIn, valueOf, hp, Option.map_some, Option.getD_some,
    compareBy, orderOf] at h
  split at h
  · cases h
  next present =>
    rw [stored] at h
    exact ⟨by simp_all, by simpa [accepts] using h⟩

theorem Table.agreeAt_of_equals? (hp : t.locate? n = some p)
    (hr : (t.affinityOf p).compare (r.get p) = r.get p)
    (hs : (t.affinityOf p).compare (s.get p) = s.get p)
    (equal : t.equals? n d r == some true) (equal' : t.equals? n d s == some true) :
    t.agreeAt r s p := by
  obtain ⟨present, same⟩ := equals?_eq_true hp hr equal
  obtain ⟨present', same'⟩ := equals?_eq_true hp hs equal'
  have between := TransCmp.eq_trans same (OrientedCmp.eq_symm same')
  simp [agreeAt, present, present', between]

theorem Table.agree_of_hasAll (keyed : t.IsKeyedBy names) (hl : names.length = args.length)
    (hr : ∀ p ∈ t.keyPlaces, (t.affinityOf p).compare (r.get p) = r.get p)
    (hs : ∀ p ∈ t.keyPlaces, (t.affinityOf p).compare (s.get p) = s.get p)
    (has : t.hasAll names args r) (has' : t.hasAll names args s) : t.agree r s := by
  unfold agree
  unfold IsKeyedBy at keyed
  generalize t.keyPlaces = places at keyed hr hs ⊢
  induction keyed generalizing args with
  | nil => rfl
  | cons hp _ ih =>
    cases args with
    | nil => cases hl
    | cons d args =>
      simp only [hasAll, List.zip_cons_cons, List.all_cons, Bool.and_eq_true] at has has'
      obtain ⟨hpr, hr⟩ := List.forall_mem_cons.1 hr
      obtain ⟨hps, hs⟩ := List.forall_mem_cons.1 hs
      rw [List.all_cons, agreeAt_of_equals? hp hpr hps has.1 has'.1]
      exact ih (by simpa using hl) has.2 has'.2 hr hs

theorem Table.IsSound.length_filter_hasAll_le_one (sound : t.IsSound) (keyed : t.IsKeyedBy names)
    (hn : names ≠ []) (hl : names.length = args.length) :
    (t.rows.filter (t.hasAll names args)).length ≤ 1 := by
  have some_place : t.keyPlaces ≠ [] := by
    intro none
    rw [IsKeyedBy, none, List.forall₂_nil_right_iff] at keyed
    exact hn keyed
  have apart := (sound.apart some_place).filter (t.hasAll names args)
  match hf : t.rows.filter (t.hasAll names args) with
  | [] | [_] => simp
  | r :: s :: rest =>
    rw [hf] at apart
    have differ := (List.pairwise_cons.1 apart).1 s (by simp)
    have hr : r ∈ t.rows.filter (t.hasAll names args) := by simp [hf]
    have hs : s ∈ t.rows.filter (t.hasAll names args) := by simp [hf]
    rw [List.mem_filter] at hr hs
    exact absurd
      (agree_of_hasAll keyed hl (sound.stored r hr.1) (sound.stored s hs.1) hr.2 hs.2) differ

end Addressing

section Declared

variable {name : String} {cs : List ColumnDefinition} {key : List String} {t : Table}

theorem pairwise_of_hasDuplicate {names : List String} (h : hasDuplicate names = false) :
    names.Pairwise fun n m => ¬ Text.sameName n m := by
  induction names with
  | nil => exact .nil
  | cons n names ih =>
    simp only [hasDuplicate, Bool.or_eq_false_iff, List.any_eq_false] at h
    exact .cons h.1 (ih h.2)

theorem TableColumn.ofDefinition?_eq_some {c : ColumnDefinition} {column : TableColumn}
    (h : TableColumn.ofDefinition? c = some column) :
    column.name = c.name ∧ column.onNull = c.onNull ∧ column.references = c.references := by
  unfold ofDefinition? at h
  split at h
  · obtain ⟨_, _, made⟩ := Option.bind_eq_some_iff.1 h
    cases made
    exact ⟨rfl, rfl, rfl⟩
  · cases h
    exact ⟨rfl, rfl, rfl⟩

theorem names_of_definitions {columns : List TableColumn}
    (h : cs.mapM TableColumn.ofDefinition? = some columns) :
    columns.map TableColumn.name = cs.map ColumnDefinition.name := by
  induction mapM_eq_some.1 h with
  | nil => rfl
  | cons hc rest ih =>
    rw [List.map_cons, List.map_cons, (TableColumn.ofDefinition?_eq_some hc).1,
      ih (mapM_eq_some.2 rest)]

theorem Table.columns_of_definitions (h : Table.ofDefinitions? name cs key = some t) :
    cs.mapM TableColumn.ofDefinition? = some t.columns := by
  unfold ofDefinitions? at h
  simp only [Option.bind_eq_bind, Option.bind_eq_some_iff] at h
  obtain ⟨columns, hc, _, _, h⟩ := h
  split at h <;> cases h
  exact hc

/-- A numbered column is the only one, and no key stands beside it. A key in one column may be the
row id. -/
structure Table.IsDefinedBy (t : Table) (cs : List ColumnDefinition) (key : List String)
    (places : List Nat) (single : Option Nat) : Prop where
  names : t.columns.map TableColumn.name = cs.map ColumnDefinition.name
  distinct : (cs.map ColumnDefinition.name).Pairwise fun n m => ¬ Text.sameName n m
  once : cs.countP ColumnDefinition.numbered ≤ 1
  places_eq : key.mapM (fun k => cs.findIdx? fun c => Text.sameName c.name k) = some places
  single_eq : single = none ∨ ∃ i, places = [i] ∧ single = some i
  alone : (cs.findIdx? ColumnDefinition.numbered).isSome → key = []
  rowId_eq : t.rowId = (cs.findIdx? ColumnDefinition.numbered).or single
  key_eq : t.key = if single.isSome then [] else places
  numbered_eq : t.numbered = (cs.findIdx? ColumnDefinition.numbered).isSome

theorem Table.exists_isDefinedBy (h : Table.ofDefinitions? name cs key = some t) :
    ∃ places single, t.IsDefinedBy cs key places single := by
  unfold ofDefinitions? at h
  simp only [Option.bind_eq_bind, Option.bind_eq_some_iff] at h
  obtain ⟨columns, hc, places, hp, h⟩ := h
  split at h
  · cases h
  next fits =>
    cases h
    simp only [Bool.or_eq_true, not_or, decide_eq_true_eq, Bool.and_eq_true, Bool.not_eq_true,
      not_and] at fits
    obtain ⟨⟨⟨⟨⟨_, distinct⟩, _⟩, _⟩, single⟩, alone⟩ := fits
    refine ⟨places, _, names_of_definitions hc, pairwise_of_hasDuplicate distinct,
      by simpa using single, hp, ?_, fun numbered => by simpa using alone numbered, rfl, rfl, rfl⟩
    split
    · next i =>
      split
      · exact .inr ⟨i, rfl, rfl⟩
      · exact .inl rfl
    · exact .inl rfl

theorem Table.place?_eq {α : Type} {f : α → String} {xs : List α}
    (h : t.columns.map TableColumn.name = xs.map f) (n : String) :
    t.place? n = xs.findIdx? fun x => Text.sameName (f x) n := by
  have named {β : Type} (g : β → String) (ys : List β) :
      (ys.findIdx? fun y => Text.sameName (g y) n) =
        (ys.map g).findIdx? fun m => Text.sameName m n := by
    rw [List.findIdx?_map]
    rfl
  rw [place?, named, h, ← named]

section Position

variable {α : Type} {xs : List α} {x : α} {j : Nat}

theorem findIdx?_of_distinct {f : α → String}
    (h : (xs.map f).Pairwise fun n m => ¬ Text.sameName n m) (hx : xs[j]? = some x) :
    (xs.findIdx? fun y => Text.sameName (f y) (f x)) = some j := by
  obtain ⟨hj, rfl⟩ := List.getElem?_eq_some_iff.1 hx
  rw [List.pairwise_map, List.pairwise_iff_getElem] at h
  exact List.findIdx?_eq_some_iff_getElem.2
    ⟨hj, by simp [Text.sameName], fun i hi => h i j (by omega) hj hi⟩

theorem findIdx?_of_countP_le_one {p : α → Bool} (h : xs.countP p ≤ 1) (hx : xs[j]? = some x)
    (hp : p x) : xs.findIdx? p = some j := by
  induction xs generalizing j with
  | nil => cases hx
  | cons y xs ih =>
    rw [List.countP_cons] at h
    cases j with
    | zero =>
      cases hx
      rw [List.findIdx?_cons, if_pos hp]
    | succ j =>
      have later : 0 < xs.countP p := List.countP_pos_iff.2 ⟨x, List.mem_of_getElem? hx, hp⟩
      have first : ¬ p y := by
        intro hy
        rw [if_pos hy] at h
        omega
      rw [List.findIdx?_cons, if_neg first, ih (by omega) hx]
      rfl

end Position

theorem Table.isKeyedBy_numbered {c : ColumnDefinition}
    (h : Table.ofDefinitions? name cs key = some t) (hc : c ∈ cs) (numbered : c.numbered) :
    t.IsKeyedBy [c.name] := by
  obtain ⟨_, _, defined⟩ := exists_isDefinedBy h
  obtain ⟨j, hj⟩ := List.mem_iff_getElem?.1 hc
  have rowId := defined.rowId_eq
  rw [findIdx?_of_countP_le_one defined.once hj numbered, Option.some_or] at rowId
  have place : t.place? c.name = some j :=
    (place?_eq defined.names _).trans (findIdx?_of_distinct defined.distinct hj)
  simp [IsKeyedBy, locate?, keyPlaces, place, rowId]

theorem Table.isKeyedBy_declared (h : Table.ofDefinitions? name cs key = some t) (hk : key ≠ []) :
    t.IsKeyedBy key := by
  obtain ⟨places, single, defined⟩ := exists_isDefinedBy h
  have key_eq := defined.key_eq
  have rowId := defined.rowId_eq
  have none_numbered : cs.findIdx? ColumnDefinition.numbered = none :=
    Option.not_isSome_iff_eq_none.1 fun numbered => hk (defined.alone numbered)
  rw [none_numbered, Option.none_or] at rowId
  have placed : List.Forall₂ (fun n i => t.place? n = some i) key places := by
    simpa only [Table.place?_eq defined.names] using mapM_eq_some.1 defined.places_eq
  obtain rfl | ⟨i, rfl, rfl⟩ := defined.single_eq
  · have places_eq : t.keyPlaces = places.map .cell := by simp [keyPlaces, rowId, key_eq]
    rw [IsKeyedBy, places_eq, List.forall₂_map_right_iff]
    exact placed.imp fun n i hn => by simp [locate?, hn, rowId]
  · have places_eq : t.keyPlaces = [.id] := by simp [keyPlaces, rowId]
    obtain ⟨n, _, hn, rest, rfl⟩ := List.forall₂_cons_right_iff.1 placed
    cases rest
    rw [IsKeyedBy, places_eq]
    exact .cons (by simp [locate?, hn, rowId]) .nil

end Declared

section Execution

variable {db db' : Database} {name : String} {t u : Table} {s : Scope} {c condition : Option Term}
  {rows gone kept : List Row} {args : List Datum} {stmt : Statement} {n : Nat}

theorem table?_congr {name' : String} (h : Text.sameName name name') :
    db.table? name = db.table? name' := by
  simp only [Text.sameName, beq_iff_eq] at h
  simp only [table?, Text.sameName, h]

theorem table?_replace : (db.replace u).table? name =
    (db.table? name).map fun t => if Text.sameName t.name u.name then u else t := by
  unfold table? replace
  rw [List.find?_map]
  have same (t : Table) : Text.sameName (if Text.sameName t.name u.name then u else t).name name =
      Text.sameName t.name name := by
    split
    · next h =>
      simp only [Text.sameName, beq_iff_eq] at h ⊢
      rw [h]
    · rfl
  simp only [Function.comp_def, same]

theorem exists_change_replace {name' : String} (ht : db.table? name = some t)
    (hu : db.table? name' = some u) {u' : Table} (h : u.Change u') :
    ∃ t', (db.replace u').table? name = some t' ∧ t.Change t' := by
  have name_eq : u'.name = u.name := by rw [h.layout]
  rw [table?_replace, ht, Option.map_some]
  split
  · next same =>
    have found : db.table? name = db.table? name' := by
      have named := sameName_of_table? ht
      have named' := sameName_of_table? hu
      refine table?_congr ?_
      simp only [Text.sameName, beq_iff_eq, name_eq] at same named named' ⊢
      exact named.symm.trans (same.trans named')
    obtain rfl : t = u := Option.some.inj (ht.symm.trans (found.trans hu))
    exact ⟨u', rfl, h⟩
  · exact ⟨t, rfl, .keep⟩

theorem Scope.partition_sublist (h : s.partition c rows = .ok (gone, kept)) :
    kept.Sublist rows := by
  induction rows generalizing gone kept with
  | nil =>
    cases h
    exact .refl []
  | cons r rows ih =>
    simp only [partition, bind_eq_ok] at h
    obtain ⟨b, _, ⟨inside, outside⟩, rest, h⟩ := h
    split at h <;> cases h
    · exact (ih rest).cons r
    · exact (ih rest).cons_cons r

theorem table?_of_prepare (h : db.prepare name condition args = .ok (s, c)) :
    db.table? name = some s.table := by
  obtain ⟨_, _, h⟩ := bind_eq_ok.1 h
  dsimp only at h
  split at h
  · cases h
  · next t ht =>
    split at h
    · obtain ⟨_, _, h⟩ := bind_eq_ok.1 h
      cases h
      exact ht
    · cases h
      exact ht

theorem exists_command_of_execute {stmt : Statement} {r : Nat × Database}
    (h : db.execute stmt = .ok r) : ∃ cmd, Sql.Command.ofText? stmt.sql = some cmd := by
  cases hc : Sql.Command.ofText? stmt.sql with
  | none =>
    rw [execute, hc] at h
    cases h
  | some cmd => exact ⟨cmd, rfl⟩

theorem insert_eq_ok {columns : List String} (h : db.insert name columns args = .ok (n, db')) :
    ∃ t given added t', db.table? name = some t ∧ t.given? columns args = some given ∧
      t.Adds (db.indicesOf t) given added t' ∧ n = added.toList.length ∧
      db' = { db.replace t' with lastId := (added.map Row.id).getD db.lastId } := by
  unfold insert at h
  split at h
  · cases h
  next t ht =>
    split at h
    · cases h
    next given hg =>
      obtain ⟨_, _, h⟩ := bind_eq_ok.1 h
      obtain ⟨⟨added, t'⟩, hadd, h⟩ := bind_eq_ok.1 h
      refine ⟨t, given, added, t', ht, hg, Table.adds_of_add hadd, ?_⟩
      cases added with
      | none =>
        cases h
        exact ⟨rfl, rfl⟩
      | some r =>
        unfold withAdded at h
        dsimp only at h
        split at h <;> cases h
        exact ⟨rfl, rfl⟩

theorem delete_eq_ok (h : db.delete name condition args = .ok (n, db')) :
    ∃ s c gone kept, db.prepare name condition args = .ok (s, c) ∧
      s.partition c s.table.rows = .ok (gone, kept) ∧ n = gone.length ∧
      db' = db.replace { s.table with rows := kept } := by
  obtain ⟨⟨s, c⟩, prepared, h⟩ := bind_eq_ok.1 h
  obtain ⟨_, _, h⟩ := bind_eq_ok.1 h
  obtain ⟨_, _, h⟩ := bind_eq_ok.1 h
  obtain ⟨⟨gone, kept⟩, parted, h⟩ := bind_eq_ok.1 h
  obtain ⟨_, h⟩ := ite_throw_eq_ok.1 h
  cases h
  exact ⟨s, c, gone, kept, prepared, parted, rfl, rfl⟩

theorem exists_change_of_execute (ht : db.table? name = some t)
    (h : db.execute stmt = .ok (n, db')) : ∃ t', db'.table? name = some t' ∧ t.Change t' := by
  unfold execute at h
  split at h
  · obtain ⟨db₁, made, h⟩ := bind_eq_ok.1 h
    cases h
    obtain ⟨_, rfl⟩ | ⟨_, _, u, _, rfl⟩ := createTable_eq_ok.1 made
    · exact ⟨t, ht, .keep⟩
    · refine ⟨t, ?_, .keep⟩
      unfold table? at ht ⊢
      rw [List.find?_append, ht]
      rfl
  · obtain ⟨db₁, made, h⟩ := bind_eq_ok.1 h
    cases h
    obtain ⟨_, _, _, _, _, rfl⟩ := createIndex_eq_ok.1 made
    exact ⟨t, ht, .keep⟩
  · obtain ⟨u, given, added, u', hu, _, adds, _, rfl⟩ := insert_eq_ok h
    exact exists_change_replace ht hu (.add adds)
  · obtain ⟨s, c, gone, kept, prepared, parted, _, rfl⟩ := delete_eq_ok h
    exact exists_change_replace ht (table?_of_prepare prepared)
      (.narrow (Scope.partition_sublist parted))
  · cases h

end Execution

end Tabular.Database
