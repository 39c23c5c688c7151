import Tabular.Proofs.Compile.Inversion
import Tabular.Proofs.Value.Shape

namespace Tabular

open Value (SameShape)

/-- Equal but for the values, which have the same shapes. -/
inductive Expr.Alike : Expr → Expr → Prop
  | constant {v v' : Value} : v.SameShape v' → Alike (.constant v) (.constant v')
  | parameter : Alike .parameter .parameter
  | captured (name : String) {v v' : Value} :
    v.SameShape v' → Alike (.captured name v) (.captured name v')
  | member {target target' : Expr} (name : String) :
    Alike target target' → Alike (.member target name) (.member target' name)
  | binary (op : BinaryOp) {left left' right right' : Expr} :
    Alike left left' → Alike right right' →
    Alike (.binary op left right) (.binary op left' right')
  | not {operand operand' : Expr} : Alike operand operand' → Alike (.not operand) (.not operand')
  | convert {operand operand' : Expr} (kind : Kind) :
    Alike operand operand' → Alike (.convert operand kind) (.convert operand' kind)
  | call (method : String) {args args' : List Expr} :
    List.Forall₂ Alike args args' → Alike (.call method args) (.call method args')
  | invoke {receiver receiver' : Expr} (method : String) {args args' : List Expr} :
    Alike receiver receiver' → List.Forall₂ Alike args args' →
    Alike (.invoke receiver method args) (.invoke receiver' method args')
  | lambda (arity : Nat) {body body' : Expr} :
    Alike body body' → Alike (.lambda arity body) (.lambda arity body')

structure Fragment.Alike (f f' : Fragment) : Prop where
  sql : f.sql = f'.sql
  length : f.args.length = f'.args.length
  textual : f.textual = f'.textual
  value : Option.Rel SameShape f.value f'.value

namespace Expr.Alike

variable {e e' : Expr} {v v' : Value}

theorem eq_parameter_iff (h : e.Alike e') : e = .parameter ↔ e' = .parameter := by
  cases h <;> simp

theorem eq_field_iff (h : e.Alike e') (name : String) : e = field name ↔ e' = field name := by
  cases h with
  | member _ h => simp [field, h.eq_parameter_iff]
  | _ => simp [field]

theorem eq_convert_field_iff (h : e.Alike e') (name : String) (kind : Kind) :
    e = .convert (field name) kind ↔ e' = .convert (field name) kind := by
  cases h with
  | convert _ h => simp [h.eq_field_iff]
  | _ => simp

theorem readMember {name : String} (h : v.SameShape v') {w w' : Value}
    (hw : Expr.readMember e name v = .ok w) (hw' : Expr.readMember e' name v' = .ok w') :
    w.SameShape w' :=
  h.member? (readMember_eq_ok.1 hw).2 (readMember_eq_ok.1 hw').2

theorem evaluate (h : e.Alike e') (hv : e.evaluate = .ok v) (hv' : e'.evaluate = .ok v') :
    v.SameShape v' := by
  induction e using Expr.induction generalizing e' v v' with
  | constant =>
    cases h with
    | constant h =>
      cases hv
      cases hv'
      exact h
  | captured =>
    cases h with
    | captured _ h =>
      cases hv
      cases hv'
      exact h
  | member target name hn ih =>
    cases h with
    | member _ h =>
      rw [evaluate_member hn, bind_eq_ok] at hv
      rw [evaluate_member (mt h.eq_parameter_iff.2 hn), bind_eq_ok] at hv'
      obtain ⟨base, hb, hv⟩ := hv
      obtain ⟨base', hb', hv'⟩ := hv'
      exact readMember (ih h hb hb') hv hv'
  | convert operand kind ih =>
    cases h with
    | convert _ h =>
      simp only [Expr.evaluate, bind_eq_ok] at hv hv'
      obtain ⟨w, hw, hv⟩ := hv
      obtain ⟨w', hw', hv'⟩ := hv'
      exact (ih h hw hw').convert hv hv'
  | parameter | column | binary | not | call | invoke | lambda => cases hv

end Expr.Alike

namespace Fragment

variable {f f' g g' : Fragment} {fs fs' : List Fragment}

namespace Alike

theorem isNull_eq (h : f.Alike f') : f.isNull = f'.isNull := by
  have any_eq {x x' : Option Value} (hx : Option.Rel SameShape x x') :
      x.any Value.isNull = x'.any Value.isNull := by
    cases hx with
    | none => rfl
    | some hx => exact hx.isNull_eq
  rw [isNull, isNull, h.sql, any_eq h.value]

theorem of_none (hs : f.sql = f'.sql) (hl : f.args.length = f'.args.length)
    (ht : f.textual = f'.textual) (hv : f.value = none) (hv' : f'.value = none) : f.Alike f' :=
  ⟨hs, hl, ht, by rw [hv, hv']; exact .none⟩

theorem infixed (hf : f.Alike f') (hg : g.Alike g') (op : String) :
    (f.infixed op g).Alike (f'.infixed op g') :=
  .of_none (by simp [Fragment.infixed, hf.sql, hg.sql])
    (by simp [Fragment.infixed, hf.length, hg.length]) rfl rfl rfl

theorem equals (hf : f.Alike f') (hg : g.Alike g') : (f.equals g).Alike (f'.equals g') :=
  .of_none (by simp [Fragment.equals, hf.sql, hg.sql])
    (by simp [Fragment.equals, hf.length, hg.length]) rfl rfl rfl

theorem startsWith (hf : f.Alike f') (hg : g.Alike g') :
    (f.startsWith g).Alike (f'.startsWith g') :=
  .of_none (by simp [Fragment.startsWith, hf.sql, hg.sql])
    (by simp [Fragment.startsWith, hf.length, hg.length]) rfl rfl rfl

theorem endsWith (hf : f.Alike f') (hg : g.Alike g') : (f.endsWith g).Alike (f'.endsWith g') :=
  .of_none (by simp [Fragment.endsWith, hf.sql, hg.sql])
    (by simp [Fragment.endsWith, hf.length, hg.length]) rfl rfl rfl

theorem containsText (hf : f.Alike f') (hg : g.Alike g') :
    (f.containsText g).Alike (f'.containsText g') :=
  .of_none (by simp [Fragment.containsText, hf.sql, hg.sql])
    (by simp [Fragment.containsText, hf.length, hg.length]) rfl rfl rfl

theorem lowerCase (hf : f.Alike f') : f.lowerCase.Alike f'.lowerCase :=
  .of_none (by simp [Fragment.lowerCase, hf.sql]) hf.length rfl rfl rfl

theorem isFalse (hf : f.Alike f') : f.isFalse.Alike f'.isFalse :=
  .of_none (by simp [Fragment.isFalse, hf.sql]) hf.length rfl rfl rfl

theorem negatedCall (hf : f.Alike f') : f.negatedCall.Alike f'.negatedCall :=
  .of_none (by simp [Fragment.negatedCall, hf.sql]) hf.length rfl rfl rfl

theorem map_sql (h : List.Forall₂ Alike fs fs') :
    fs.map Fragment.sql = fs'.map Fragment.sql := by
  induction h with
  | nil => rfl
  | cons hf _ ih => rw [List.map_cons, List.map_cons, hf.sql, ih]

theorem length_flatMap (h : List.Forall₂ Alike fs fs') :
    (fs.flatMap args).length = (fs'.flatMap args).length := by
  induction h with
  | nil => rfl
  | cons hf _ ih =>
    rw [List.flatMap_cons, List.flatMap_cons, List.length_append, List.length_append, hf.length, ih]

theorem apply (h : List.Forall₂ Alike fs fs') (function : String) :
    (Fragment.apply function fs).Alike (Fragment.apply function fs') :=
  .of_none (by simp [Fragment.apply, map_sql h]) (length_flatMap h) rfl rfl rfl

theorem binary {e e' : Expr} {op : BinaryOp} (hl : f.Alike f') (hr : g.Alike g') {b b' : Fragment}
    (hb : Fragment.binary e op f g = .ok b) (hb' : Fragment.binary e' op f' g' = .ok b') :
    b.Alike b' := by
  have nullTest {other other' null null' : Fragment} (ho : other.Alike other')
      (hn : null.Alike null') (hb : Fragment.nullTest e op other null = .ok b)
      (hb' : Fragment.nullTest e' op other' null' = .ok b') : b.Alike b' := by
    cases op <;> cases hb <;> cases hb' <;>
      exact .of_none (by simp [ho.sql]) (by simp [ho.length, hn.length]) rfl rfl rfl
  unfold Fragment.binary at hb hb'
  rw [← hl.isNull_eq, ← hr.isNull_eq] at hb'
  split at hb
  · next hn =>
    rw [if_pos hn] at hb'
    exact nullTest hr hl hb hb'
  next hn =>
  rw [if_neg hn] at hb'
  split at hb
  · next hm =>
    rw [if_pos hm] at hb'
    exact nullTest hl hr hb hb'
  · next hm =>
    rw [if_neg hm] at hb'
    cases ht : op.token? with
    | none => simp [ht] at hb
    | some token =>
      simp only [ht, Except.ok.injEq] at hb hb'
      rw [← hb, ← hb']
      exact hl.infixed hr token

theorem convert {kind : Kind} (h : f.Alike f') (hg : f.convert kind = .ok g)
    (hg' : f'.convert kind = .ok g') : g.Alike g' := by
  have hv := h.value
  rcases convert_eq_ok.1 hg with ⟨hn, rfl⟩ | ⟨v, w, hn, hw, rfl⟩ <;>
    rcases convert_eq_ok.1 hg' with ⟨hn', rfl⟩ | ⟨v', w', hn', hw', rfl⟩ <;>
    rw [hn, hn'] at hv <;> cases hv
  · exact .of_none h.sql h.length (by simp [h.textual]) hn hn'
  · next hs => exact ⟨h.sql, h.length, by simp [h.textual], .some (hs.convert hw hw')⟩

theorem call {e e' : Expr} {method : String} (h : List.Forall₂ Alike fs fs')
    (hg : Fragment.call e method fs = .ok g) (hg' : Fragment.call e' method fs' = .ok g') :
    g.Alike g' := by
  have generic := apply h (Text.lower method)
  unfold Fragment.call at hg hg'
  rcases h with _ | ⟨ha, _ | ⟨hb, _ | ⟨hc, h⟩⟩⟩
  case cons.cons.nil =>
    simp only at hg hg'
    split at hg
    · next hm =>
      rw [if_pos hm] at hg'
      cases hg
      cases hg'
      exact ha.infixed hb "like"
    next hm =>
    rw [if_neg hm] at hg'
    split at hg
    · next hm =>
      rw [if_pos hm] at hg'
      cases hg
      cases hg'
      exact hb.infixed ha "in"
    · next hm =>
      rw [if_neg hm] at hg'
      cases hg
      cases hg'
      exact generic
  all_goals
    simp only at hg hg'
    split at hg <;> cases hg
    split at hg' <;> cases hg'
    exact generic

theorem invoke (hr : f.Alike f') (h : List.Forall₂ Alike fs fs') (method : String) :
    (f.invoke method fs).Alike (f'.invoke method fs') := by
  have generic := apply (.cons hr h) (Text.lower method)
  unfold Fragment.invoke
  rcases h with _ | ⟨ha, _ | ⟨hb, h⟩⟩
  · simp only
    split
    · exact hr.lowerCase
    · exact generic
  · simp only [← hr.textual]
    split
    · split
      · exact hr.containsText ha
      · exact ha.infixed hr "in"
    split
    · exact hr.startsWith ha
    split
    · exact hr.endsWith ha
    split
    · exact hr.equals ha
    · exact generic
  · exact generic

end Alike

end Fragment

namespace TableMapping

variable {t : TableMapping} {f f' : Fragment} {v v' : Value}

open Tabular.Expr (Alike)

theorem placeholder_alike (h : v.SameShape v') (hf : t.placeholder v = .ok f)
    (hf' : t.placeholder v' = .ok f') : f.Alike f' := by
  obtain ⟨_, _, rfl⟩ := placeholder_eq_ok.1 hf
  obtain ⟨_, _, rfl⟩ := placeholder_eq_ok.1 hf'
  exact ⟨rfl, rfl, h.isText_eq, .some h⟩

theorem expand_alike (h : v.SameShape v') (hf : t.expand v = .ok f)
    (hf' : t.expand v' = .ok f') : f.Alike f' := by
  rcases expand_eq_ok.1 hf with ⟨items, args, rfl, ha, rfl⟩ | ⟨hn, hf⟩
  · rcases expand_eq_ok.1 hf' with ⟨items', args', rfl, ha', rfl⟩ | ⟨hn', _⟩
    · have hl : args.length = args'.length := by
        cases h with
        | list hl => rw [← (mapM_eq_ok.1 ha).length_eq, hl, (mapM_eq_ok.1 ha').length_eq]
        | scalar hv => cases hv
      exact ⟨by rw [hl], hl, rfl, .some h⟩
    · cases h with
      | list => exact absurd rfl (hn' _)
      | scalar hv => cases hv
  · rcases expand_eq_ok.1 hf' with ⟨items', _, rfl, _⟩ | ⟨_, hf'⟩
    · cases h with
      | list => exact absurd rfl (hn _)
      | scalar _ hv => cases hv
    · exact placeholder_alike h hf hf'

theorem fragments_alike {es es' : List Expr} (h : List.Forall₂ Alike es es')
    {fs fs' : List Fragment}
    (hfs : List.Forall₂ (fun e f => t.fragment e = .ok f) es fs)
    (hfs' : List.Forall₂ (fun e f => t.fragment e = .ok f) es' fs')
    (ih : ∀ e ∈ es, ∀ e' f f', e.Alike e' → t.fragment e = .ok f → t.fragment e' = .ok f' →
      f.Alike f') : List.Forall₂ Fragment.Alike fs fs' := by
  induction h generalizing fs fs' with
  | nil =>
    cases hfs
    cases hfs'
    exact .nil
  | cons he _ ihs =>
    obtain _ | ⟨hf, hfs⟩ := hfs
    obtain _ | ⟨hf', hfs'⟩ := hfs'
    exact .cons (ih _ (by simp) _ _ _ he hf hf') (ihs hfs hfs' fun e he => ih e (by simp [he]))

theorem fragment_alike {e e' : Expr} (h : e.Alike e') (hf : t.fragment e = .ok f)
    (hf' : t.fragment e' = .ok f') : f.Alike f' := by
  induction e using Expr.induction generalizing e' f f' with
  | constant v =>
    cases h with
    | constant h =>
      rw [fragment] at hf hf'
      exact placeholder_alike h hf hf'
  | parameter => simp [fragment] at hf
  | captured name v =>
    cases h with
    | captured _ h =>
      rw [fragment] at hf hf'
      exact expand_alike h hf hf'
  | column name =>
    cases h with
    | member _ h =>
      cases h
      rw [hf] at hf'
      cases hf'
      obtain ⟨c, _, rfl⟩ := fragment_column_eq_ok.1 hf
      exact .of_none rfl rfl rfl rfl rfl
  | member target name hn ih =>
    cases h with
    | member _ h =>
      rw [fragment_member hn] at hf
      rw [fragment_member (mt h.eq_parameter_iff.2 hn)] at hf'
      simp only [bind_eq_ok] at hf hf'
      obtain ⟨base, hb, v, hv, hf⟩ := hf
      obtain ⟨base', hb', v', hv', hf'⟩ := hf'
      exact expand_alike (Alike.readMember (h.evaluate hb hb') hv hv') hf hf'
  | binary op left right ihl ihr =>
    cases h with
    | binary _ hl hr =>
      obtain ⟨l, r, hfl, hfr, hf⟩ := fragment_binary_eq_ok.1 hf
      obtain ⟨l', r', hfl', hfr', hf'⟩ := fragment_binary_eq_ok.1 hf'
      exact (ihl hl hfl hfl').binary (ihr hr hfr hfr') hf hf'
  | not operand ih =>
    cases h with
    | not h =>
      simp only [fragment, bind_eq_ok] at hf hf'
      obtain ⟨g, hg, hf⟩ := hf
      obtain ⟨g', hg', hf'⟩ := hf'
      have alike := ih h hg hg'
      -- How an operand is negated depends on its constructor alone.
      cases h <;> cases hf <;> cases hf' <;> first | exact alike.isFalse | exact alike.negatedCall
  | convert operand kind ih =>
    cases h with
    | convert _ h =>
      obtain ⟨g, hg, hf⟩ := fragment_convert_eq_ok.1 hf
      obtain ⟨g', hg', hf'⟩ := fragment_convert_eq_ok.1 hf'
      exact (ih h hg hg').convert hf hf'
  | call method args ih =>
    cases h with
    | call _ h =>
      obtain ⟨fs, hfs, hf⟩ := fragment_call_eq_ok.1 hf
      obtain ⟨fs', hfs', hf'⟩ := fragment_call_eq_ok.1 hf'
      have := fragments_alike h hfs hfs' fun e he _ _ _ => ih e he
      exact .call this hf hf'
  | invoke receiver method args ihr ih =>
    cases h with
    | invoke _ hr h =>
      obtain ⟨r, fs, hfr, hfs, rfl⟩ := fragment_invoke_eq_ok.1 hf
      obtain ⟨r', fs', hfr', hfs', rfl⟩ := fragment_invoke_eq_ok.1 hf'
      exact (ihr hr hfr hfr').invoke (fragments_alike h hfs hfs' fun e he _ _ _ => ih e he) method
  | lambda => simp [fragment] at hf

end TableMapping

end Tabular
