import Tabular.Proofs.Database.Keys

namespace Tabular

/-- The statement makes a table. -/
def Statement.MakesTable (stmt : Statement) : Prop :=
  ∃ table cs key, Sql.Command.ofText? stmt.sql = some (.createTable table cs key)

namespace Database

variable {db : Database} {t t' : Table} {name : String} {r : Sql.Reference}

namespace Table

theorem Change.name_eq (h : t.Change t') : t'.name = t.name := by rw [h.layout]

theorem Change.references_eq (h : t.Change t') : t'.references = t.references := by
  rw [h.layout]
  rfl

theorem Change.target?_eq (h : t.Change t') (indices : List TableIndex) (column : Option String) :
    t'.target? indices column = t.target? indices column := by
  rw [h.layout]
  rfl

theorem references_eq_nil (h : ∀ c ∈ t.columns, c.references = []) : t.references = [] := by
  simp only [references, List.flatMap_eq_nil_iff, List.map_eq_nil_iff]
  exact fun x hx => h x.1 ((List.mem_zipIdx' hx).2 ▸ List.getElem_mem _)

end Table

theorem mem_tables_of_table? (ht : db.table? name = some t) : t ∈ db.tables :=
  List.mem_of_find?_eq_some ht

theorem target_replace (ht : db.table? name = some t) (h : t.Change t') :
    discard ((db.replace t').target r) = discard (db.target r) := by
  unfold target
  rw [table?_replace]
  cases hw : db.table? r.table with
  | none => rfl
  | some w =>
    rw [Option.map_some]
    by_cases same : Text.sameName w.name t'.name
    · have found : db.table? r.table = db.table? name := by
        have named := sameName_of_table? ht
        have named' := sameName_of_table? hw
        refine table?_congr ?_
        simp only [Text.sameName, beq_iff_eq, h.name_eq] at same named named' ⊢
        exact named'.symm.trans (same.trans named)
      obtain rfl : w = t := Option.some.inj (hw.symm.trans (found.trans ht))
      have indices : (db.replace t').indicesOf t' = db.indicesOf w := by
        rw [indicesOf, indicesOf, h.name_eq]
        rfl
      rw [if_pos same]
      dsimp only
      rw [indices, h.target?_eq]
      cases w.target? (db.indicesOf w) r.column <;> rfl
    · rw [if_neg same]
      rfl

theorem checkTargets_replace (ht : db.table? name = some t) (h : t.Change t') :
    (db.replace t').checkTargets t' = db.checkTargets t := by
  unfold checkTargets
  rw [h.references_eq]
  exact congrArg (t.references.reverse.forM ·) (funext fun _ => target_replace ht h)

theorem checkTargets_of_references (h : t.references = []) : db.checkTargets t = .ok () := by
  rw [checkTargets, h]
  rfl

theorem referencesTo_eq_nil : db.referencesTo name = [] ↔
    ∀ t ∈ db.tables, ∀ r ∈ t.references, ¬ Text.sameName r.2.table name := by
  simp [referencesTo]

theorem referencesTo_congr {name' : String} (h : Text.sameName name name') :
    db.referencesTo name = db.referencesTo name' := by
  simp only [Text.sameName, beq_iff_eq] at h
  simp only [referencesTo, Text.sameName, h]

theorem referencesTo_replace (ht : t ∈ db.tables) (h : t.Change t')
    (free : db.referencesTo name = []) : (db.replace t').referencesTo name = [] := by
  rw [referencesTo_eq_nil] at free ⊢
  unfold replace
  rw [List.forall_mem_map]
  intro w hw
  split
  · rw [h.references_eq]
    exact free t ht
  · exact free w hw

theorem checkSources_of_free (free : db.referencesTo t.name = []) : db.checkSources t = .ok () := by
  rw [checkSources, free]
  rfl

theorem refersToAny_of_free (free : db.referencesTo t.name = []) (gone : List Row) :
    db.refersToAny t gone = false := by
  rw [refersToAny, free]
  rfl

def deleteWhere (db : Database) (t : Table) (f : Row → Bool) : Except Refusal (Nat × Database) := do
  db.checkTargets t
  db.checkSources t
  let left := db.replace { t with rows := t.rows.filter fun r => !f r }
  if left.refersToAny t (t.rows.filter f) then throw .foreignKey
  return ((t.rows.filter f).length, left)

theorem deleteWhere_of_free (ht : db.table? name = some t) (free : db.referencesTo name = [])
    (f : Row → Bool) : db.deleteWhere t f = (db.checkTargets t).map fun _ =>
      ((t.rows.filter f).length, db.replace { t with rows := t.rows.filter fun r => !f r }) := by
  have alone : db.referencesTo t.name = [] :=
    (referencesTo_congr (sameName_of_table? ht)).trans free
  have left := referencesTo_replace (mem_tables_of_table? ht)
    (.narrow (List.filter_sublist (p := fun r => !f r))) alone
  simp only [deleteWhere, bind, Except.bind, checkSources_of_free alone, refersToAny_of_free left]
  cases db.checkTargets t <;> rfl

theorem references_replace (ht : t ∈ db.tables) (h : t.Change t')
    (none : ∀ u ∈ db.tables, u.references = []) :
    ∀ u ∈ (db.replace t').tables, u.references = [] := by
  unfold replace
  rw [List.forall_mem_map]
  intro u hu
  split
  · rw [h.references_eq]
    exact none t ht
  · exact none u hu

theorem references_of_execute {db' : Database} {stmt : Statement} {n : Nat}
    (h : db.execute stmt = .ok (n, db')) (keeps : ¬ stmt.MakesTable)
    (none : ∀ t ∈ db.tables, t.references = []) : ∀ t ∈ db'.tables, t.references = [] := by
  unfold execute at h
  split at h
  · next text => exact absurd ⟨_, _, _, text⟩ keeps
  · obtain ⟨db₁, made, h⟩ := bind_eq_ok.1 h
    cases h
    obtain ⟨_, _, _, _, _, rfl⟩ := createIndex_eq_ok.1 made
    exact none
  · obtain ⟨t, given, added, t', ht, _, adds, _, rfl⟩ := insert_eq_ok h
    exact references_replace (mem_tables_of_table? ht) (.add adds) none
  · obtain ⟨s, c, gone, kept, prepared, parted, _, rfl⟩ := delete_eq_ok h
    exact references_replace (mem_tables_of_table? (table?_of_prepare prepared))
      (.narrow (Scope.partition_sublist parted)) none
  · cases h

end Database

end Tabular
