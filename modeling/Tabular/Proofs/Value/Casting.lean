import Tabular.Proofs.Decimal
import Tabular.Proofs.Text.Blank
import Tabular.Value.Conversion

namespace Tabular

def Kind.isWhole : Kind → Bool
  | .enum => true
  | kind => kind.isInteger

namespace Value

variable {v w : Value} {kind via : Kind} {n : Int64} {b : Bool} {s : String}
  {left right : List Char}

theorem convert?_whole (h : kind.isWhole) (v : Value) :
    v.convert? kind = (v.toInteger?.filter fun n => kind.holds n.toInt).map .int := by
  cases kind
  case int8 | int16 | int32 | int64 | uint8 | uint16 | uint32 | uint64 | enum => rfl
  all_goals cases h

theorem convert?_textual (h : kind.isTextual) (v : Value) :
    v.convert? kind = v.toText?.map .text := by
  cases kind
  case text | document => rfl
  all_goals cases h

theorem convert_whole (h : kind.isWhole) (hv : v.toInteger? = some n) : v.convert kind =
    if kind.holds n.toInt then .ok (.int n) else .error (.conversion v kind) := by
  have ne : v.isNull = false := by
    cases v with
    | null => cases hv
    | _ => rfl
  rw [convert, ne, convert?_whole h, hv, Option.filter_some]
  cases kind.holds n.toInt <;> rfl

def surrounded (left : List Char) (s : String) (right : List Char) : Value :=
  .text (String.ofList (left ++ s.toList ++ right))

theorem surrounded_nil (s : String) : surrounded [] s [] = .text s := by simp [surrounded]

theorem toInteger?_surrounded (hl : ∀ c ∈ left, Text.isBlank c) (hr : ∀ c ∈ right, Text.isBlank c) :
    (surrounded left (Value.int n).render right).toInteger? = some n := by
  have solid : ∀ c ∈ Decimal.ofInt n.toInt, Text.isBlank c = false := by
    intro c hc
    rcases Decimal.sign_or_digit hc with rfl | digit
    · decide
    · exact Text.isBlank_of_isDigit digit
  rw [surrounded, toInteger?, render, String.toList_ofList, String.toList_ofList,
    Text.trim_surrounded hl hr (Decimal.ofInt_ne_nil _) solid, readInt?, Decimal.int?_ofInt]
  exact Decimal.toInt64?_eq_some.2 rfl

theorem toBool?_surrounded (hl : ∀ c ∈ left, Text.isBlank c) (hr : ∀ c ∈ right, Text.isBlank c) :
    (surrounded left (Value.bool b).render right).toBool? = some b := by
  have ne : (Value.bool b).render.toList ≠ [] := by cases b <;> decide
  have solid : (Value.bool b).render.toList.all (Text.isBlank · == false) := by cases b <;> rfl
  rw [surrounded, toBool?, String.toList_ofList,
    Text.trim_surrounded hl hr ne fun c hc => eq_of_beq (List.all_eq_true.1 solid c hc)]
  cases b <;> rfl

theorem convert_int_textual (h : via.isTextual) :
    (Value.int n).convert via = .ok (.text (Value.int n).render) := by
  rw [convert, convert?_textual h]
  rfl

theorem convert_bool_textual (h : via.isTextual) :
    (Value.bool b).convert via = .ok (.text (Value.bool b).render) := by
  rw [convert, convert?_textual h]
  rfl

theorem eq_of_convert_int (h : via.isWhole ∨ via.isTextual)
    (hw : (Value.int n).convert via = .ok w) : w = .int n ∨ w = .text (Value.int n).render := by
  rcases h with whole | textual
  · rw [convert_whole whole rfl] at hw
    split at hw <;> cases hw
    exact .inl rfl
  · rw [convert_int_textual textual] at hw
    cases hw
    exact .inr rfl

theorem convert_eq_mapError (h : kind.isWhole) (hw : w.toInteger? = some n) :
    w.convert kind = ((Value.int n).convert kind).mapError fun _ => .conversion w kind := by
  rw [convert_whole h hw, convert_whole h rfl]
  split <;> rfl

theorem convert_through :
    (∀ (n : Int64) (kind via : Kind) (w : Value), kind.isWhole → via.isWhole ∨ via.isTextual →
      (Value.int n).convert via = .ok w →
        w.convert kind = ((Value.int n).convert kind).mapError (fun _ => .conversion w kind) ∧
        ∀ s left right, w = .text s →
          (∀ c ∈ left, Text.isBlank c) → (∀ c ∈ right, Text.isBlank c) →
          (surrounded left s right).convert kind =
            ((Value.int n).convert kind).mapError
              fun _ => .conversion (surrounded left s right) kind) ∧
    ∀ (b : Bool) (via : Kind), via.isTextual →
      ∃ s, (Value.bool b).convert via = .ok (.text s) ∧
        ∀ left right, (∀ c ∈ left, Text.isBlank c) → (∀ c ∈ right, Text.isBlank c) →
          (surrounded left s right).convert .bool = .ok (.bool b) := by
  constructor
  · intro n kind via w whole inter hw
    rcases eq_of_convert_int inter hw with rfl | rfl
    · exact ⟨convert_eq_mapError whole rfl, fun s left right text => by cases text⟩
    · have written : ∀ {left right}, (∀ c ∈ left, Text.isBlank c) → (∀ c ∈ right, Text.isBlank c) →
          (surrounded left (Value.int n).render right).toInteger? = some n := toInteger?_surrounded
      refine ⟨?_, fun s left right text hl hr => ?_⟩
      · rw [← surrounded_nil]
        exact convert_eq_mapError whole (written (by simp) (by simp))
      · cases text
        exact convert_eq_mapError whole (written hl hr)
  · intro b via textual
    refine ⟨_, convert_bool_textual textual, fun left right hl hr => ?_⟩
    refine convert_eq_ok.2 (.inr ⟨rfl, ?_⟩)
    rw [convert?, toBool?_surrounded hl hr]
    rfl

theorem convert_through_least :
    let v : Value := .int Int64.minValue
    let w : Value := surrounded ['\t'] "-9223372036854775808" ['\u2003', '\n']
    ((Kind.int64.isWhole ∧ Kind.int32.isWhole ∧ Kind.text.isTextual) ∧
      v.convert .text = .ok (.text "-9223372036854775808") ∧ Text.isBlank '\t' ∧
      Text.isBlank '\u2003' ∧ Text.isBlank '\n') ∧
      w.convert .int64 = .ok v ∧ w.convert .int32 = .error (.conversion w .int32) := by
  intro v w
  have hv : v.convert .text = .ok (.text "-9223372036854775808") := convert_int_textual rfl
  have around : (∀ c ∈ ['\t'], Text.isBlank c) ∧ ∀ c ∈ ['\u2003', '\n'], Text.isBlank c :=
    ⟨List.all_eq_true.1 rfl, List.all_eq_true.1 rfl⟩
  have back := (convert_through.1 _ .int64 .text _ rfl (.inr rfl) hv).2 _ _ _ rfl around.1 around.2
  have short := (convert_through.1 _ .int32 .text _ rfl (.inr rfl) hv).2 _ _ _ rfl around.1 around.2
  exact ⟨⟨⟨rfl, rfl, rfl⟩, hv, by decide, by decide, by decide⟩, back, short⟩

end Value

end Tabular
