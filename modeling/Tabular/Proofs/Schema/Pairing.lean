import Tabular.Proofs.Schema.Filling
import Tabular.Proofs.Schema.Naming
import Tabular.Proofs.Sql.Marked

/-! Which value goes to which column when a row is inserted. Members that are not stored have left
no column, and the numbered column takes no value, so a place among the columns that are filled is
not one among the values: it is the column that knows the place of its member. -/

namespace Tabular

open Marked (ofString Whole whole_ofString whole_quoteIdentifier)
open Sql (namesIn? namesIn?_append)

namespace RecordType

variable {type : RecordType} {conventions : Conventions} {rules : StorageRules} {p : Provider}
  {m : TableMapping}

theorem pairwise_stored : ((type.stored p).map Prod.snd).Pairwise (· < ·) := by
  have places : (type.members.zipIdx.map Prod.snd).Pairwise (· < ·) := by
    rw [List.zipIdx_map_snd]
    exact List.pairwise_lt_range'
  exact places.sublist (List.filter_sublist.map Prod.snd)

/-- A member that is stored in a column, and which one it is. -/
structure Stores (type : RecordType) (p : Provider) (x : Member) (c : Column) : Prop where
  member : type.members[c.memberIndex]? = some x
  writable : x.writable
  not_ignored : (p.facts x).ignored = false
  name : c.name = (p.facts x).column
  property : c.property = x.name

variable (hm : TableMapping.resolve type conventions rules p = .ok m)

include hm

theorem exists_stores {c : Column} (hc : c ∈ m.columns) : ∃ x, type.Stores p x c := by
  obtain ⟨⟨x, place⟩, hx, describes⟩ := exists_of_forall₂ (described_columns hm) hc
  obtain ⟨present, stored⟩ := List.mem_filter.1 hx
  simp only [Bool.and_eq_true, Bool.not_eq_true'] at stored
  refine ⟨x, ?_, stored.1, stored.2, describes.name, describes.property⟩
  rw [describes.memberIndex]
  exact List.mk_mem_zipIdx_iff_getElem?.1 present

theorem pairwise_memberIndex : (m.columns.map Column.memberIndex).Pairwise (· < ·) := by
  have same : (type.stored p).map Prod.snd = m.columns.map Column.memberIndex := by
    rw [← List.forall₂_eq_eq_eq, List.forall₂_map_left_iff, List.forall₂_map_right_iff]
    exact (described_columns hm).imp fun _ _ h => h.memberIndex.symm
  exact same ▸ pairwise_stored

theorem eq_of_memberIndex {c d : Column} (hc : c ∈ m.columns) (hd : d ∈ m.columns)
    (same : c.memberIndex = d.memberIndex) : c = d :=
  List.inj_on_of_nodup_map ((pairwise_memberIndex hm).imp Nat.ne_of_lt) hc hd same

end RecordType

namespace TableMapping

variable {m : TableMapping} {values values' : List Value} {stmt : Statement} {args : List Datum}
  {c : Column}

theorem mem_inserted : c ∈ m.inserted ↔ c ∈ m.columns ∧ c.autoIncrement = false := by
  simp [inserted]

def commaSeparated (texts : List Marked) : Marked := (ofString ", ").intercalate texts

def insertion (m : TableMapping) (args : List Datum) : Marked :=
  ofString "insert into " ++ ofString m.quotedName ++
    if m.inserted.isEmpty then ofString " default values"
    else
      ofString " (" ++ commaSeparated (m.inserted.map fun c => ofString c.quotedName) ++
        ofString ") values (" ++ commaSeparated (args.map fun d => [.datum d]) ++ ofString ")"

theorem whole_insertion (m : TableMapping) (args : List Datum) : Whole (m.insertion args) := by
  have start : Whole (ofString "insert into ") := by decide
  have comma : Whole (ofString ", ") := by decide
  refine (start.append (whole_quoteIdentifier m.tableName)).append ?_
  split
  · exact (by decide : Whole (ofString " default values"))
  · have opening : Whole (ofString " (") := by decide
    have middle : Whole (ofString ") values (") := by decide
    have closing : Whole (ofString ")") := by decide
    have names : Whole (commaSeparated (m.inserted.map fun c => ofString c.quotedName)) :=
      comma.intercalate (List.forall_mem_map.2 fun c _ => whole_quoteIdentifier c.name)
    have places : Whole (commaSeparated (args.map fun d => [.datum d])) :=
      comma.intercalate (List.forall_mem_map.2 fun _ _ => rfl)
    exact (((opening.append names).append middle).append places).append closing

theorem args_insertion (hl : args.length = m.inserted.length) : (m.insertion args).args = args := by
  unfold insertion
  split
  · next none =>
    have no_args : args = [] := by simpa [List.isEmpty_iff.1 none] using hl
    simp [no_args]
  · have comma : (ofString ", ").args = [] := Marked.args_ofString _
    simp [commaSeparated, Marked.args_intercalate _ comma, List.flatMap_map]

theorem exists_insert_iff : (∃ stmt, m.insert values = .ok stmt) ↔
    ∀ c ∈ m.columns, c.autoIncrement = false →
      ∃ v, values[c.memberIndex]? = some v ∧ ∃ d, m.bind v = .ok d := by
  constructor
  · rintro ⟨stmt, h⟩ c hc plain
    obtain ⟨args, bound, _⟩ := bind_eq_ok.1 h
    obtain ⟨d, _, hd⟩ := exists_of_mapM_eq_ok bound c (mem_inserted.2 ⟨hc, plain⟩)
    obtain ⟨v, hv, hd⟩ := insertArgument_eq_ok.1 hd
    exact ⟨v, hv, d, hd⟩
  · intro h
    obtain ⟨args, bound⟩ : ∃ args, m.inserted.mapM (m.insertArgument values) = .ok args := by
      refine exists_mapM_eq_ok fun c hc => ?_
      obtain ⟨present, plain⟩ := mem_inserted.1 hc
      obtain ⟨v, hv, d, hd⟩ := h c present plain
      exact ⟨d, insertArgument_eq_ok.2 ⟨v, hv, hd⟩⟩
    exact ⟨_, bind_eq_ok.2 ⟨args, bound, rfl⟩⟩

theorem insert_congr
    (h : ∀ c ∈ m.inserted, values'[c.memberIndex]? = values[c.memberIndex]?) :
    m.insert values' = m.insert values := by
  have same : m.inserted.mapM (m.insertArgument values') =
      m.inserted.mapM (m.insertArgument values) :=
    mapM_congr fun c hc => by rw [insertArgument, h c hc, insertArgument]
  rw [insert, insert, same]

section Inserted

variable (h : m.insert values = .ok stmt)

include h

theorem insert_arguments : List.Forall₂ (fun c d => m.insertArgument values c = .ok d)
    m.inserted stmt.args := by
  obtain ⟨args, bound, h⟩ := bind_eq_ok.1 h
  cases h
  exact mapM_eq_ok.1 bound

theorem text_insertion : (m.insertion stmt.args).text = stmt.sql.toList := by
  have count := (insert_arguments h).length_eq
  obtain ⟨args, _, h⟩ := bind_eq_ok.1 h
  cases h
  have names : (commaSeparated (m.inserted.map fun c => ofString c.quotedName)).text =
      (", ".intercalate (m.inserted.map Column.quotedName)).toList := by
    simp [commaSeparated, Marked.text_intercalate, Function.comp_def]
  have places : (commaSeparated (args.map fun d => [.datum d])).text =
      (placeholders ", " m.inserted.length).toList := by
    simp [commaSeparated, Marked.text_intercalate, placeholders, Function.comp_def, count]
  unfold insertion
  split <;>
    simp only [Marked.text_append, Marked.text_ofString, String.toList_append, names, places]

theorem fill_insert :
    countPlaceholders .outside stmt.sql.toList = m.inserted.length ∧
      fill .outside stmt.sql.toList stmt.args = some (m.insertion stmt.args) := by
  have count := (insert_arguments h).length_eq
  have whole := m.whole_insertion stmt.args
  have args_eq := args_insertion count.symm
  have places := Marked.countPlaceholders_text whole
  have filled := Marked.fill_text whole
  rw [text_insertion h, args_eq] at places filled
  exact ⟨places.trans count.symm, filled⟩

theorem insert_defaults :
    stmt.sql = "insert into " ++ m.quotedName ++ " default values" ↔ m.inserted = [] := by
  constructor
  · intro text
    have table : namesIn? ("insert into " ++ m.quotedName).toList = some [m.tableName] :=
      namesIn?_table (by decide) m
    have rest : namesIn? " default values".toList = some [] := by decide
    have names := namesIn?_append table rest rfl
    rw [← String.toList_append, ← text, insert_names h] at names
    simpa using names
  · intro none
    obtain ⟨args, _, h⟩ := bind_eq_ok.1 h
    cases h
    rw [none]
    rfl

end Inserted

/-- An insertion names the columns that are filled. It has a placeholder for each of them and an
argument in its place, which is made of the value of the member that the column stores. -/
structure Pairs (m : TableMapping) (type : RecordType) (p : Provider) (values : List Value)
    (stmt : Statement) : Prop where
  names : namesIn? stmt.sql.toList = some (m.tableName :: m.inserted.map Column.name)
  placeholders : countPlaceholders .outside stmt.sql.toList = m.inserted.length
  filled : fill .outside stmt.sql.toList stmt.args = some (m.insertion stmt.args)
  arguments : List.Forall₂ (fun c d => ∃ x v, type.Stores p x c ∧
    values[c.memberIndex]? = some v ∧ m.bind v = .ok d) m.inserted stmt.args
  ordered : (m.inserted.map Column.memberIndex).Pairwise (· < ·)
  defaults : stmt.sql = "insert into " ++ m.quotedName ++ " default values" ↔ m.inserted = []

section Resolved

variable {type : RecordType} {conventions : Conventions} {rules : StorageRules} {p : Provider}
  (hm : resolve type conventions rules p = .ok m)

include hm

theorem pairs_of_insert (h : m.insert values = .ok stmt) : m.Pairs type p values stmt := by
  obtain ⟨count, filled⟩ := fill_insert h
  have own : ∀ c ∈ m.inserted, ∃ x, type.Stores p x c := fun c hc =>
    RecordType.exists_stores hm (mem_inserted.1 hc).1
  refine ⟨insert_names h, count, filled, ?_, ?_, insert_defaults h⟩
  · refine ((List.forall₂_and_left _ _).2 ⟨own, insert_arguments h⟩).imp ?_
    rintro c d ⟨⟨x, stores⟩, bound⟩
    obtain ⟨v, hv, hd⟩ := insertArgument_eq_ok.1 bound
    exact ⟨x, v, stores, hv, hd⟩
  · exact (RecordType.pairwise_memberIndex hm).sublist (List.filter_sublist.map Column.memberIndex)

theorem insert_pairs (values : List Value) :
    ((∃ stmt, m.insert values = .ok stmt) ↔ ∀ c ∈ m.columns, c.autoIncrement = false →
      ∃ v, values[c.memberIndex]? = some v ∧ ∃ d, m.bind v = .ok d) ∧
    (∀ stmt, m.insert values = .ok stmt → m.Pairs type p values stmt) ∧
    ∀ values' : List Value,
      (∀ k x, type.members[k]? = some x → x.writable → (p.facts x).ignored = false →
        (∀ c ∈ m.columns, c.memberIndex = k → c.autoIncrement = false) →
        values'[k]? = values[k]?) →
      m.insert values' = m.insert values := by
  refine ⟨exists_insert_iff, fun stmt h => pairs_of_insert hm h, fun values' agree => ?_⟩
  refine insert_congr fun c hc => ?_
  obtain ⟨present, plain⟩ := mem_inserted.1 hc
  obtain ⟨x, stores⟩ := RecordType.exists_stores hm present
  refine agree c.memberIndex x stores.member stores.writable stores.not_ignored fun d hd same => ?_
  rw [RecordType.eq_of_memberIndex hm hd present same]
  exact plain

end Resolved

def parcels : RecordType where
  name := "Parcel"
  members := [
    { name := "draft", kind := .text, attributes := [.ignore] },
    { name := "to", kind := .text, attributes := [.name "what?"] },
    { name := "weight", kind := .float64, writable := false },
    { name := "id", kind := .int64, attributes := [.primaryKey, .autoIncrement] },
    { name := "note", kind := .text } ]

theorem insert_pairs_parcels : ∃ m stmt, resolve parcels {} {} .attributes = .ok m ∧
    m.insert [.null, .text "a", .null, .null, .text "b"] = .ok stmt ∧
    stmt = ⟨"insert into \"Parcel\" (\"what?\", \"note\") values (?, ?)", [.text "a", .text "b"]⟩ ∧
    m.Pairs parcels .attributes [.null, .text "a", .null, .null, .text "b"] stmt ∧
    (∀ draft weight id, m.insert [draft, .text "a", weight, id, .text "b"] = .ok stmt) ∧
    ¬ ∃ stmt, m.insert [.null, .text "a", .null, .null] = .ok stmt := by
  obtain ⟨m, stmt, hm, inserted, text, columns⟩ : ∃ m stmt,
      resolve parcels {} {} .attributes = .ok m ∧
      m.insert [.null, .text "a", .null, .null, .text "b"] = .ok stmt ∧
      stmt = ⟨"insert into \"Parcel\" (\"what?\", \"note\") values (?, ?)",
        [.text "a", .text "b"]⟩ ∧
      m.columns.map (fun c => (c.memberIndex, c.autoIncrement)) =
        [(1, false), (3, true), (4, false)] := ⟨_, _, by rfl, by rfl, by rfl, by rfl⟩
  have column : ∀ e ∈ [(1, false), (3, true), (4, false)],
      ∃ c ∈ m.columns, c.memberIndex = e.1 ∧ c.autoIncrement = e.2 := by
    rw [← columns, List.forall_mem_map]
    exact fun c hc => ⟨c, hc, rfl, rfl⟩
  obtain ⟨_, pairs, alike⟩ := insert_pairs hm [.null, .text "a", .null, .null, .text "b"]
  obtain ⟨succeeds, _, _⟩ := insert_pairs hm [.null, .text "a", .null, .null]
  refine ⟨m, stmt, hm, inserted, text, pairs stmt inserted, fun draft weight id => ?_, ?_⟩
  · rw [alike [draft, .text "a", weight, id, .text "b"] fun k x hx writable stored plain => ?_]
    · exact inserted
    · match k with
      | 0 =>
        cases hx
        cases stored
      | 2 =>
        cases hx
        cases writable
      | 3 =>
        obtain ⟨c, hc, place, numbered⟩ := column (3, true) (by decide)
        rw [plain c hc place] at numbered
        cases numbered
      | 1 | 4 => rfl
      | k + 5 => cases hx
  · rw [succeeds]
    intro all
    obtain ⟨c, hc, place, plain⟩ := column (4, false) (by decide)
    obtain ⟨v, hv, _⟩ := all c hc plain
    rw [place] at hv
    cases hv

end TableMapping

end Tabular
