import Tabular.Proofs.Value.Casting

namespace Tabular

/-- The least number of a kind of whole numbers, and the one after the greatest. The numbers of an
enumeration fill a signed word. -/
def Kind.range? : Kind → Option (Int × Int)
  | .int8 => some (-2 ^ 7, 2 ^ 7)
  | .int16 => some (-2 ^ 15, 2 ^ 15)
  | .int32 => some (-2 ^ 31, 2 ^ 31)
  | .int64 | .enum => some (-2 ^ 63, 2 ^ 63)
  | .uint8 => some (0, 2 ^ 8)
  | .uint16 => some (0, 2 ^ 16)
  | .uint32 => some (0, 2 ^ 32)
  | .uint64 => some (0, 2 ^ 64)
  | _ => none

namespace Value

/-- Nothing is of a custom kind, and lists, records and nulls are of none. -/
inductive IsOf : Value → Kind → Prop
  | bool (b : Bool) : IsOf (.bool b) .bool
  | whole {kind : Kind} {low high : Int} {n : Int64} :
    kind.range? = some (low, high) → low ≤ n.toInt → n.toInt < high → IsOf (.int n) kind
  | float32 (x : Binary64) : IsOf (.float x) .float32
  | float64 (x : Binary64) : IsOf (.float x) .float64
  | decimal (x : Binary64) : IsOf (.float x) .decimal
  | text (s : String) : IsOf (.text s) .text
  | document (s : String) : IsOf (.text s) .document
  | uuid (s : String) : IsOf (.text s) .uuid
  | datetime (m : Calendar.Moment) : IsOf (.moment m) .datetime
  | duration (d : Calendar.Span) : IsOf (.span d) .duration
  | blob (b : List UInt8) : IsOf (.blob b) .blob

variable {v w : Value} {kind : Kind} {n : Int64}

theorem isWhole_iff : kind.isWhole ↔ ∃ r, kind.range? = some r := by
  cases kind <;> simp [Kind.isWhole, Kind.isInteger, Kind.range?]

theorem holds_iff {low high : Int} (h : kind.range? = some (low, high)) :
    kind.holds n.toInt ↔ low ≤ n.toInt ∧ n.toInt < high := by
  have least := n.le_toInt
  have most := n.toInt_lt
  cases kind <;> cases h
  all_goals
    simp only [Kind.holds, decide_eq_true_eq, true_iff]
    omega

theorem isOf_of_convert? (h : v.convert? kind = some w) : w.IsOf kind := by
  by_cases whole : kind.isWhole
  · obtain ⟨⟨low, high⟩, range⟩ := isWhole_iff.1 whole
    rw [convert?_whole whole, Option.map_eq_some_iff] at h
    obtain ⟨n, hn, rfl⟩ := h
    have fits := (holds_iff range).1 (Option.filter_eq_some_iff.1 hn).2
    exact .whole range fits.1 fits.2
  · cases kind
    case int8 | int16 | int32 | int64 | uint8 | uint16 | uint32 | uint64 | enum =>
      exact absurd rfl whole
    case uuid | datetime | duration | blob =>
      cases v <;> cases h
      constructor
    case custom => cases h
    all_goals
      obtain ⟨_, _, rfl⟩ := Option.map_eq_some_iff.1 h
      constructor

theorem IsOf.convert? (h : v.IsOf kind) : v.convert? kind = some v := by
  cases h with
  | @whole _ low high n range least most =>
    have fits : kind.holds n.toInt := (holds_iff range).2 ⟨least, most⟩
    rw [convert?_whole (isWhole_iff.2 ⟨_, range⟩), toInteger?, Option.filter_some, if_pos fits]
    rfl
  | _ => rfl

theorem IsOf.isNull (h : v.IsOf kind) : v.isNull = false := by
  cases h <;> rfl

theorem convert_eq_self_iff : v.convert kind = .ok v ↔ v.isNull ∨ v.IsOf kind := by
  rw [convert_eq_ok]
  constructor
  · rintro (⟨null, _⟩ | ⟨_, cast⟩)
    · exact .inl null
    · exact .inr (isOf_of_convert? cast)
  · rintro (null | isOf)
    · cases v <;> cases null
      exact .inl ⟨rfl, rfl⟩
    · exact .inr ⟨isOf.isNull, isOf.convert?⟩

theorem eq_conversion_of_convert {fault : Fault} (h : v.convert kind = .error fault) :
    fault = .conversion v kind := by
  unfold convert at h
  split at h
  · cases h
  · split at h <;> cases h
    rfl

theorem convert_custom (h : v.isNull = false) (name : String) :
    v.convert (.custom name) = .error (.conversion v (.custom name)) := by
  rw [convert, h]
  rfl

theorem convert_compound (h : (∃ items, v = .list items) ∨ ∃ members, v = .record members)
    (kind : Kind) : v.convert kind = .error (.conversion v kind) := by
  rcases h with ⟨items, rfl⟩ | ⟨members, rfl⟩ <;> cases kind <;> rfl

theorem convert_typed (v : Value) (kind : Kind) :
    (∀ w, v.convert kind = .ok w →
      (w.isNull ↔ v.isNull) ∧ w.convert kind = .ok w ∧ (w.isNull = false → w.IsOf kind)) ∧
    (∀ fault, v.convert kind = .error fault → fault = .conversion v kind) ∧
    (v.isNull = false → ∀ name, kind = .custom name →
      v.convert kind = .error (.conversion v kind)) ∧
    ((∃ items, v = .list items) ∨ (∃ members, v = .record members) →
      v.convert kind = .error (.conversion v kind)) ∧
    (v.convert kind = .ok v ↔ v.isNull ∨ v.IsOf kind) := by
  refine ⟨fun w hw => ?_, fun fault => eq_conversion_of_convert, ?_, fun compound => ?_,
    convert_eq_self_iff⟩
  · have kept : w.isNull = v.isNull := isNull_convert hw
    have typed : w.isNull ∨ w.IsOf kind := by
      rcases convert_eq_ok.1 hw with ⟨_, rfl⟩ | ⟨_, cast⟩
      · exact .inl rfl
      · exact .inr (isOf_of_convert? cast)
    refine ⟨by rw [kept], convert_eq_self_iff.2 typed, fun nonnull => ?_⟩
    exact typed.resolve_left (by rw [nonnull]; exact Bool.false_ne_true)
  · rintro nonnull name rfl
    exact convert_custom nonnull name
  · exact convert_compound compound kind

theorem convert_typed_text :
    let v : Value := .text "\t300 "
    let w : Value := .int 300
    (v.convert .uint16 = .ok w ∧ w.isNull = false ∧ w.convert .uint16 = .ok w ∧
      w.IsOf .uint16) ∧
    (∃ fault, v.convert .uint8 = .error fault ∧ fault = .conversion v .uint8) ∧
    (v.isNull = false ∧
      v.convert (.custom "Point") = .error (.conversion v (.custom "Point"))) ∧
    (Value.list [v]).convert .text = .error (.conversion (.list [v]) .text) := by
  intro v w
  have cast : v.convert .uint16 = .ok w := by rfl
  have beyond : v.convert .uint8 = .error (.conversion v .uint8) := by rfl
  obtain ⟨_, same, isOf⟩ := (convert_typed v .uint16).1 w cast
  exact ⟨⟨cast, rfl, same, isOf rfl⟩, ⟨_, beyond, (convert_typed v .uint8).2.1 _ beyond⟩,
    ⟨rfl, (convert_typed v (.custom "Point")).2.2.1 rfl "Point" rfl⟩,
    (convert_typed (.list [v]) .text).2.2.2.1 (.inl ⟨_, rfl⟩)⟩

end Value

end Tabular
