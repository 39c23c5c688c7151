import Tabular.Proofs.Database.Selection

namespace Tabular

/-- Whether a statement asks for the id of the row that was inserted last. -/
def Statement.asksLastId (stmt : Statement) : Bool :=
  match Sql.Command.ofText? stmt.sql with
  | some (.select _ _ (some t) _ _) => Database.asksLastId t
  | _ => false

namespace Database

open Sql (Term Operator)

theorem asksLastId_joined {op : Operator} {left right : Term}
    (h : asksLastId (.joined op left right)) : asksLastId left ∨ asksLastId right := by
  unfold Term.joined at h
  split at h
  · cases h
  split at h
  · cases h
  split at h
  · cases h
  · simpa [asksLastId] using h

mutual

theorem asksLastId_of_pruned (t : Term) (h : asksLastId t.pruned) : asksLastId t := by
  cases t with
  | brackets items =>
    cases items with
    | nil => simpa [Term.pruned, Term.prunedAll] using h
    | cons u us =>
      cases us with
      | nil =>
        rw [Term.pruned] at h
        have := asksLastId_of_pruned u h
        simp [asksLastId, anyAsksLastId, this]
      | cons v vs =>
        rw [Term.pruned] at h
        · exact anyAsksLastId_of_prunedAll (u :: v :: vs) h
        · simp
  | apply f args =>
    rw [Term.pruned, asksLastId, Bool.or_eq_true] at h
    rw [asksLastId, Bool.or_eq_true]
    exact h.imp_right (anyAsksLastId_of_prunedAll args)
  | binary op left right =>
    rw [Term.pruned] at h
    rw [asksLastId, Bool.or_eq_true]
    refine (asksLastId_joined h).imp (asksLastId_of_pruned left) fun h => ?_
    split at h
    · exact asksLastId_of_prunedCollection right h
    · exact asksLastId_of_pruned right h
  | _ => simpa [Term.pruned] using h
termination_by (sizeOf t, 0)

theorem asksLastId_of_prunedCollection (t : Term) (h : asksLastId t.prunedCollection) :
    asksLastId t := by
  by_cases list : ∃ items, t = .brackets items
  · obtain ⟨items, rfl⟩ := list
    rw [Term.prunedCollection] at h
    exact anyAsksLastId_of_prunedAll items h
  · rw [Term.prunedCollection] at h
    · exact asksLastId_of_pruned t h
    · exact fun items eq => list ⟨items, eq⟩
termination_by (sizeOf t, 1)

theorem anyAsksLastId_of_prunedAll (ts : List Term) (h : anyAsksLastId (Term.prunedAll ts)) :
    anyAsksLastId ts := by
  cases ts with
  | nil => simpa [Term.prunedAll] using h
  | cons t ts =>
    rw [Term.prunedAll, anyAsksLastId, Bool.or_eq_true] at h
    rw [anyAsksLastId, Bool.or_eq_true]
    exact h.imp (asksLastId_of_pruned t) (anyAsksLastId_of_prunedAll ts)
termination_by (sizeOf ts, 0)

end

@[simp] theorem table?_content (db : Database) (name : String) :
    db.content.table? name = db.table? name := rfl

@[simp] theorem hasWidth_content (db : Database) (name : String) (width : Nat) :
    db.content.hasWidth name width = db.hasWidth name width := rfl

mutual

theorem missingTable?_content (db : Database) (t : Term) :
    db.content.missingTable? t = db.missingTable? t := by
  cases t with
  | brackets items => exact missingTableIn?_content db items
  | apply f args => exact missingTableIn?_content db args
  | binary op left right =>
    simp only [missingTable?, missingTable?_content db left, missingTable?_content db right,
      table?_content]
    rfl
  | _ => rfl

theorem missingTableIn?_content (db : Database) (ts : List Term) :
    db.content.missingTableIn? ts = db.missingTableIn? ts := by
  cases ts with
  | nil => rfl
  | cons t ts =>
    simp only [missingTableIn?, missingTable?_content db t, missingTableIn?_content db ts]

end

theorem isSupported_content (db : Database) (t : Term) :
    db.content.isSupported t = db.isSupported t := by
  induction t using isSupported.induct
    (motive_2 := fun ts => db.content.allSupported ts = db.allSupported ts) with
  | case1 items ih => rw [isSupported, isSupported, ih]
  | case2 f args ih => rw [isSupported, isSupported, ih]
  | case3 op l m ls right items list =>
    cases right with
    | brackets es => simp only [isSupported, items, show _ = _ from list]
    | _ => simp only [isSupported, items, hasWidth_content]
  | case4 op left right single ihl list ihr =>
    cases right <;> simp_all [isSupported]
  | case5 t => rw [isSupported, isSupported] <;> assumption
  | case6 => rfl
  | case7 t ts ih ihs => rw [allSupported, allSupported, ih, ihs]

theorem checkCondition_content (db : Database) (t : Term) :
    checkCondition db.content t = checkCondition db t := by
  unfold checkCondition
  rw [missingTable?_content, isSupported_content]

theorem eq_of_content {db db' : Database} (same : db.content = db'.content)
    (id : db.lastId = db'.lastId) : db = db' := by
  cases db
  cases db'
  cases same
  cases id
  rfl

theorem prepare_content (db : Database) (table : String) {condition : Option Term}
    (steady : ∀ t ∈ condition, ¬ asksLastId t) (args : List Datum) :
    db.content.prepare table condition args = db.prepare table condition args := by
  have shown : db.shownTo (condition.map Term.pruned) = db.content := by
    cases condition with
    | none => rfl
    | some t =>
      have quiet := mt (asksLastId_of_pruned t) (steady t rfl)
      rw [Option.map_some, shownTo, Option.any_some, if_neg quiet]
  have shown' : db.content.shownTo (condition.map Term.pruned) = db.content := by
    unfold shownTo
    split <;> rfl
  unfold prepare
  simp only [shown, shown', table?_content, checkCondition_content]

theorem fetch_content (db : Database) {stmt : Statement} (steady : ¬ stmt.asksLastId) :
    db.content.fetch stmt = db.fetch stmt := by
  unfold fetch
  split
  · next projection table condition order p text =>
    have quiet : ∀ t ∈ condition, ¬ asksLastId t := by
      rintro t rfl
      simpa only [Statement.asksLastId, text] using steady
    unfold select
    rw [prepare_content db table quiet]
  · rfl

theorem fetch_congr {db db' : Database} {stmt : Statement} (same : db.content = db'.content)
    (id : stmt.asksLastId → db.lastId = db'.lastId) : db.fetch stmt = db'.fetch stmt := by
  by_cases asks : stmt.asksLastId
  · rw [eq_of_content same (id asks)]
  · rw [← db.fetch_content asks, same, db'.fetch_content asks]

end Database

end Tabular
