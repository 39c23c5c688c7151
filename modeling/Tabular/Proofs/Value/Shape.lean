import Tabular.Proofs.Except
import Tabular.Value.Conversion

namespace Tabular.Value

def isScalar : Value → Bool
  | .bool _ | .int _ | .float _ | .blob _ | .moment _ | .span _ => true
  | .null | .text _ | .list _ | .record _ => false

/-- The items of lists may be anything, the members of records have to correspond. -/
inductive SameShape : Value → Value → Prop
  | null : SameShape .null .null
  | text (s s' : String) : SameShape (.text s) (.text s')
  | scalar {v v' : Value} : v.isScalar → v'.isScalar → SameShape v v'
  | list {items items' : List Value} :
    items.length = items'.length → SameShape (.list items) (.list items')
  | record {ms ms' : List (String × Value)} :
    ms.map Prod.fst = ms'.map Prod.fst →
    List.Forall₂ SameShape (ms.map Prod.snd) (ms'.map Prod.snd) →
    SameShape (.record ms) (.record ms')

variable {v v' w w' : Value}

namespace SameShape

theorem isNull_eq (h : v.SameShape v') : v.isNull = v'.isNull := by
  cases h with
  | null | text | list | record => rfl
  | scalar hv hv' => cases v <;> cases hv <;> cases v' <;> cases hv' <;> rfl

theorem isText_eq (h : v.SameShape v') : v.isText = v'.isText := by
  cases h with
  | null | text | list | record => rfl
  | scalar hv hv' => cases v <;> cases hv <;> cases v' <;> cases hv' <;> rfl

theorem lookup {ms ms' : List (String × Value)} (hn : ms.map Prod.fst = ms'.map Prod.fst)
    (hv : List.Forall₂ SameShape (ms.map Prod.snd) (ms'.map Prod.snd)) {name : String}
    (h : ms.lookup name = some w) (h' : ms'.lookup name = some w') : w.SameShape w' := by
  induction ms generalizing ms' with
  | nil => cases h
  | cons m ms ih =>
    obtain _ | ⟨m', ms'⟩ := ms'
    · cases h'
    obtain ⟨n, v⟩ := m
    obtain ⟨n', v'⟩ := m'
    simp only [List.map_cons, List.cons.injEq, List.forall₂_cons] at hn hv
    obtain ⟨rfl, hn⟩ := hn
    cases hb : name == n with
    | false =>
      rw [List.lookup_cons, hb] at h h'
      exact ih hn hv.2 h h'
    | true =>
      rw [List.lookup_cons, hb] at h h'
      cases h
      cases h'
      exact hv.1

theorem member? (h : v.SameShape v') {name : String} (hw : v.member? name = some w)
    (hw' : v'.member? name = some w') : w.SameShape w' := by
  cases h with
  | null => cases hw
  | text s s' =>
    simp only [Value.member?, Option.ite_none_right_eq_some, Option.some.injEq] at hw hw'
    obtain ⟨_, rfl⟩ := hw
    obtain ⟨_, rfl⟩ := hw'
    exact .scalar rfl rfl
  | scalar hv hv' => cases v <;> cases hv <;> cases hw
  | list hl =>
    simp only [Value.member?, Option.ite_none_right_eq_some, Option.some.injEq] at hw hw'
    obtain ⟨_, rfl⟩ := hw
    obtain ⟨_, rfl⟩ := hw'
    exact .scalar rfl rfl
  | record hn hv => exact lookup hn hv hw hw'

theorem of_convert? {kind : Kind} (h : v.convert? kind = some w) (h' : v'.convert? kind = some w') :
    w.SameShape w' := by
  cases kind <;> simp only [convert?, Option.map_eq_some_iff] at h h'
  case uuid =>
    cases v <;> cases h
    cases v' <;> cases h'
    exact .text ..
  case datetime | duration | blob =>
    cases v <;> cases h
    cases v' <;> cases h'
    exact .scalar rfl rfl
  case custom => cases h
  case text | document =>
    obtain ⟨_, _, rfl⟩ := h
    obtain ⟨_, _, rfl⟩ := h'
    exact .text ..
  all_goals
    obtain ⟨_, _, rfl⟩ := h
    obtain ⟨_, _, rfl⟩ := h'
    exact .scalar rfl rfl

theorem convert (h : v.SameShape v') {kind : Kind} (hw : v.convert kind = .ok w)
    (hw' : v'.convert kind = .ok w') : w.SameShape w' := by
  rcases convert_eq_ok.1 hw with ⟨hv, rfl⟩ | ⟨hv, hw⟩
  · rcases convert_eq_ok.1 hw' with ⟨_, rfl⟩ | ⟨hv', _⟩
    · exact .null
    · rw [h.isNull_eq, hv'] at hv
      cases hv
  · rcases convert_eq_ok.1 hw' with ⟨hv', _⟩ | ⟨_, hw'⟩
    · rw [h.isNull_eq, hv'] at hv
      cases hv
    · exact of_convert? hw hw'

end SameShape

end Tabular.Value
