import Tabular.Proofs.Compile.Inversion
import Tabular.Value.Conversion

namespace Tabular

namespace Expr

/-- The value that an expression stands for, if it is a literal, a captured value or read from one,
perhaps under casts. -/
def carried : Expr → Option Value
  | .constant v => some v
  | .captured _ v => some v
  | .member .parameter _ => none
  | .member target name => (do readMember target name (← target.evaluate)).toOption
  | .convert operand kind => operand.carried.bind fun v => (v.convert kind).toOption
  | _ => none

def isNull (e : Expr) : Bool := e.carried.any Value.isNull

theorem carried_member {target : Expr} (h : target ≠ .parameter) (name : String) :
    carried (.member target name) =
      (do readMember target name (← target.evaluate)).toOption := by
  cases target <;> first | exact absurd rfl h | rfl

theorem carried_eq_evaluate (e : Expr) : e.carried = e.evaluate.toOption := by
  induction e using Expr.induction with
  | member target name hn =>
    rw [carried_member hn, evaluate_member hn]
  | convert operand kind ih =>
    rw [carried, ih, evaluate]
    cases operand.evaluate <;> rfl
  | _ => rfl

end Expr

namespace TableMapping

def isTextual (t : TableMapping) : Expr → Bool
  | .constant v => v.isText
  | .captured _ v => v.isText
  | .member .parameter name => (t.columnOf name).toOption.any fun c => c.kind.isTextual
  | .member target name => (Expr.carried (.member target name)).any Value.isText
  | .convert operand kind => t.isTextual operand || kind.isTextual
  | .invoke _ method args => args.isEmpty && method == "to_lower"
  | _ => false

theorem isTextual_member (t : TableMapping) {target : Expr} (h : target ≠ .parameter)
    (name : String) :
    t.isTextual (.member target name) =
      (Expr.carried (.member target name)).any Value.isText := by
  cases target <;> first | exact absurd rfl h | rfl

end TableMapping

namespace Fragment

/-- A fragment that carries what the expression stands for. A null is one placeholder. -/
structure Carries (f : Fragment) (value : Option Value) (textual : Bool) : Prop where
  value_eq : f.value = value
  textual_eq : f.textual = textual
  sql_of_null : value.any Value.isNull → f.sql = "?"

variable {f : Fragment} {value : Option Value} {textual : Bool}

theorem Carries.isNull_eq (h : f.Carries value textual) : f.isNull = value.any Value.isNull := by
  rw [isNull, h.value_eq]
  cases hv : value.any Value.isNull with
  | false => simp
  | true => simp [h.sql_of_null hv]

theorem Carries.of_none (hv : f.value = none) (ht : f.textual = textual) :
    f.Carries none textual :=
  ⟨hv, ht, by simp⟩

theorem call_carries {e : Expr} {method : String} {args : List Fragment}
    (h : call e method args = .ok f) : f.Carries none false := by
  unfold call at h
  split at h
  · split at h
    · cases h; exact .of_none rfl rfl
    · split at h <;> cases h <;> exact .of_none rfl rfl
  · split at h
    · cases h
    · cases h; exact .of_none rfl rfl

theorem invoke_carries (receiver : Fragment) (method : String) (args : List Fragment) :
    (receiver.invoke method args).Carries none (args.isEmpty && method == "to_lower") := by
  unfold invoke
  split
  · split
    · next h => exact .of_none rfl (by simp [lowerCase, h])
    · next h => exact .of_none rfl (by simp [apply, h])
  · refine .of_none ?_ ?_ <;> (repeat' split) <;> rfl
  · next hn _ =>
    refine .of_none rfl ?_
    cases args with
    | nil => exact absurd rfl hn
    | cons _ _ => rfl

end Fragment

namespace TableMapping

variable {t : TableMapping} {f : Fragment}

theorem placeholder_carries {v : Value} (h : t.placeholder v = .ok f) :
    f.Carries (some v) v.isText := by
  obtain ⟨d, _, rfl⟩ := placeholder_eq_ok.1 h
  exact ⟨rfl, rfl, fun _ => rfl⟩

theorem expand_carries {v : Value} (h : t.expand v = .ok f) : f.Carries (some v) v.isText := by
  rcases expand_eq_ok.1 h with ⟨items, args, rfl, _, rfl⟩ | ⟨_, h⟩
  · exact ⟨rfl, rfl, by simp [Value.isNull]⟩
  · exact placeholder_carries h

theorem fragment_member_eq_ok {target : Expr} (h : target ≠ .parameter) (name : String) :
    t.fragment (.member target name) = .ok f ↔
      ∃ v, Expr.carried (.member target name) = some v ∧ t.expand v = .ok f := by
  rw [fragment_member h, Expr.carried_member h]
  cases target.evaluate with
  | error e => simp [Bind.bind, Except.bind]
  | ok base =>
    simp only [Bind.bind, Except.bind]
    cases Expr.readMember target name base <;> simp

theorem fragment_carries {e : Expr} (h : t.fragment e = .ok f) :
    f.Carries e.carried (t.isTextual e) := by
  induction e using Expr.induction generalizing f with
  | constant v => exact placeholder_carries (by simpa [fragment] using h)
  | parameter => simp [fragment] at h
  | captured name v => exact expand_carries (by simpa [fragment] using h)
  | column name =>
    obtain ⟨c, hc, rfl⟩ := fragment_column_eq_ok.1 h
    exact .of_none rfl (by simp [isTextual, hc])
  | member target name hn =>
    obtain ⟨v, hv, h⟩ := (fragment_member_eq_ok hn name).1 h
    rw [isTextual_member t hn, hv]
    exact expand_carries h
  | binary op left right =>
    obtain ⟨l, r, _, _, h⟩ := fragment_binary_eq_ok.1 h
    rcases Fragment.binary_eq_ok.1 h with ⟨_, h⟩ | ⟨_, _, h⟩ | ⟨_, _, token, _, rfl⟩
    · rcases Fragment.nullTest_eq_ok.1 h with ⟨_, rfl⟩ | ⟨_, rfl⟩ <;> exact .of_none rfl rfl
    · rcases Fragment.nullTest_eq_ok.1 h with ⟨_, rfl⟩ | ⟨_, rfl⟩ <;> exact .of_none rfl rfl
    · exact .of_none rfl rfl
  | not operand =>
    obtain ⟨g, _, ⟨_, rfl⟩ | ⟨_, rfl⟩⟩ := fragment_not_eq_ok.1 h <;> exact .of_none rfl rfl
  | convert operand kind ih =>
    obtain ⟨g, hg, h⟩ := fragment_convert_eq_ok.1 h
    have ih := ih hg
    rcases Fragment.convert_eq_ok.1 h with ⟨hv, rfl⟩ | ⟨v, w, hv, hw, rfl⟩
    · have hc : operand.carried = none := ih.value_eq ▸ hv
      exact ⟨by simp [Expr.carried, hc, hv], by simp [isTextual, ih.textual_eq],
        by simp [Expr.carried, hc]⟩
    · have hc : operand.carried = some v := ih.value_eq ▸ hv
      refine ⟨by simp [Expr.carried, hc, hw], by simp [isTextual, ih.textual_eq], ?_⟩
      intro hn
      refine ih.sql_of_null ?_
      simpa [Expr.carried, hc, hw, Value.isNull_convert hw] using hn
  | call method args =>
    obtain ⟨fs, _, h⟩ := fragment_call_eq_ok.1 h
    exact Fragment.call_carries h
  | invoke receiver method args =>
    obtain ⟨r, fs, _, hfs, rfl⟩ := fragment_invoke_eq_ok.1 h
    have hargs : fs.isEmpty = args.isEmpty := by cases hfs <;> rfl
    rw [isTextual, ← hargs]
    exact Fragment.invoke_carries r method fs
  | lambda => simp [fragment] at h

end TableMapping

end Tabular
