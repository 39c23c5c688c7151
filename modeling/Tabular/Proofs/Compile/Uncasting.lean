import Tabular.Proofs.Compile.Support
import Tabular.Proofs.Value.Typing

namespace Tabular

/-- The same expression without some of its casts, none of them to text. What a member is read from
stays as it is. -/
inductive Expr.Uncast : Expr → Expr → Prop
  | constant (v : Value) : Uncast (.constant v) (.constant v)
  | parameter : Uncast .parameter .parameter
  | captured (name : String) (v : Value) : Uncast (.captured name v) (.captured name v)
  | member (target : Expr) (name : String) : Uncast (.member target name) (.member target name)
  | binary (op : BinaryOp) {left left' right right' : Expr} :
    Uncast left left' → Uncast right right' →
    Uncast (.binary op left right) (.binary op left' right')
  | not {operand operand' : Expr} : Uncast operand operand' → Uncast (.not operand) (.not operand')
  | convert (kind : Kind) {operand operand' : Expr} :
    Uncast operand operand' → Uncast (.convert operand kind) (.convert operand' kind)
  | dropped {kind : Kind} {operand operand' : Expr} :
    kind.isTextual = false → Uncast operand operand' → Uncast (.convert operand kind) operand'
  | call (method : String) {args args' : List Expr} :
    List.Forall₂ Uncast args args' → Uncast (.call method args) (.call method args')
  | invoke (method : String) {receiver receiver' : Expr} {args args' : List Expr} :
    Uncast receiver receiver' → List.Forall₂ Uncast args args' →
    Uncast (.invoke receiver method args) (.invoke receiver' method args')
  | lambda (arity : Nat) {body body' : Expr} :
    Uncast body body' → Uncast (.lambda arity body) (.lambda arity body')

/-- Equal but for the value that is carried along, which is null in both or in neither. -/
structure Fragment.Agrees (f f' : Fragment) : Prop where
  sql : f.sql = f'.sql
  args : f.args = f'.args
  textual : f.textual = f'.textual
  null : f.value.any Value.isNull = f'.value.any Value.isNull

namespace Fragment

variable {f f' g g' k : Fragment} {fs fs' : List Fragment} {e e' : Expr} {kind : Kind}

namespace Agrees

theorem trans {f'' : Fragment} (h : f.Agrees f') (h' : f'.Agrees f'') : f.Agrees f'' :=
  ⟨h.sql.trans h'.sql, h.args.trans h'.args, h.textual.trans h'.textual, h.null.trans h'.null⟩

theorem of_eq (h : f = f') : f.Agrees f' := h ▸ ⟨rfl, rfl, rfl, rfl⟩

theorem exists_value (h : f.Agrees f') : ∃ v, f' = { f with value := v } := by
  obtain ⟨sql, args, value, textual⟩ := f
  obtain ⟨sql', args', value', textual'⟩ := f'
  obtain ⟨rfl, rfl, rfl, _⟩ := h
  exact ⟨value', rfl⟩

theorem isNull_eq (h : f.Agrees f') : f.isNull = f'.isNull := by
  rw [isNull, isNull, h.sql, h.null]

theorem apply_eq (h : List.Forall₂ Agrees fs fs') (function : String) :
    apply function fs = apply function fs' := by
  have written : fs.map Fragment.sql = fs'.map Fragment.sql ∧
      fs.flatMap Fragment.args = fs'.flatMap Fragment.args := by
    induction h with
    | nil => exact ⟨rfl, rfl⟩
    | cons hf _ ih => simp [hf.sql, hf.args, ih.1, ih.2]
  simp only [apply, written]

theorem binary (hf : f.Agrees f') (hg : g.Agrees g') {op : BinaryOp}
    (h : Fragment.binary e op f g = .ok k) : Fragment.binary e' op f' g' = .ok k := by
  rw [binary_eq_ok] at h ⊢
  simpa only [nullTest_eq_ok, infixed, hf.isNull_eq, hg.isNull_eq, hf.sql, hf.args, hg.sql, hg.args]
    using h

theorem call {method : String} (hfs : List.Forall₂ Agrees fs fs')
    (h : Fragment.call e method fs = .ok k) : Fragment.call e' method fs' = .ok k := by
  have generic := apply_eq hfs (Text.lower method)
  have length := hfs.length_eq
  rcases hfs with _ | ⟨ha, _ | ⟨hb, _ | ⟨hc, hfs⟩⟩⟩
  case cons.cons.nil =>
    obtain ⟨v, rfl⟩ := ha.exists_value
    obtain ⟨w, rfl⟩ := hb.exists_value
    exact h
  all_goals
    unfold Fragment.call at h ⊢
    dsimp only at h ⊢
    split at h
    · cases h
    · next free =>
      rw [length] at free
      rw [if_neg free, ← generic]
      exact h

theorem invoke (hf : f.Agrees f') (hfs : List.Forall₂ Agrees fs fs') (method : String) :
    f.invoke method fs = f'.invoke method fs' := by
  have generic := apply_eq (.cons hf hfs) (Text.lower method)
  obtain ⟨v, rfl⟩ := hf.exists_value
  rcases hfs with _ | ⟨ha, _ | ⟨hb, hfs⟩⟩
  · rfl
  · obtain ⟨w, rfl⟩ := ha.exists_value
    rfl
  · exact generic

theorem negate {operand operand' : Expr} (hf : f.Agrees f')
    (read : operand.isRead = operand'.isRead) (call : operand.isCall = operand'.isCall)
    (h : operand.isRead ∧ k = f.isFalse ∨ operand.isCall ∧ k = f.negatedCall) :
    operand'.isRead ∧ k = f'.isFalse ∨ operand'.isCall ∧ k = f'.negatedCall := by
  obtain ⟨v, rfl⟩ := hf.exists_value
  rw [← read, ← call]
  exact h

theorem of_convert (text : kind.isTextual = false) (h : f.convert kind = .ok g) : g.Agrees f := by
  rcases convert_eq_ok.1 h with ⟨none, rfl⟩ | ⟨v, w, some, cast, rfl⟩
  · exact ⟨rfl, rfl, by simp [text], rfl⟩
  · exact ⟨rfl, rfl, by simp [text], by simp [some, Value.isNull_convert cast]⟩

theorem convert (hf : f.Agrees f') (h : f.convert kind = .ok g) :
    (∃ g', f'.convert kind = .ok g' ∧ g.Agrees g') ∨ ∃ v, f'.value = some v ∧
      v.convert kind = .error (.conversion v kind) ∧
      f'.convert kind = .error (.conversion v kind) := by
  have null : g.value.any Value.isNull = f'.value.any Value.isNull := by
    rw [← hf.null]
    rcases convert_eq_ok.1 h with ⟨_, rfl⟩ | ⟨v, w, some, cast, rfl⟩
    · rfl
    · simp [some, Value.isNull_convert cast]
  have written : g.sql = f'.sql ∧ g.args = f'.args ∧
      g.textual = (f'.textual || kind.isTextual) := by
    rw [← hf.sql, ← hf.args, ← hf.textual]
    rcases convert_eq_ok.1 h with ⟨_, rfl⟩ | ⟨_, _, _, _, rfl⟩ <;> exact ⟨rfl, rfl, rfl⟩
  obtain ⟨text, data, textual⟩ := written
  cases hv : f'.value with
  | none => exact .inl ⟨_, convert_eq_ok.2 (.inl ⟨hv, rfl⟩), text, data, textual, null⟩
  | some v =>
    cases cast : v.convert kind with
    | ok w =>
      refine .inl ⟨_, convert_eq_ok.2 (.inr ⟨v, w, hv, cast, rfl⟩), text, data, textual, ?_⟩
      simpa [hv, Value.isNull_convert cast] using null
    | error fault =>
      cases Value.eq_conversion_of_convert cast
      have failed : f'.convert kind = .error (.conversion v kind) := by
        rw [Fragment.convert, hv]
        simp only [cast]
        rfl
      exact .inr ⟨v, rfl, cast, failed⟩

end Agrees

end Fragment

namespace Expr

variable {e e' : Expr}

theorem Uncast.kept (h : e.Uncast e') (he : e.isRead ∨ e.isCall) :
    e.isRead = e'.isRead ∧ e.isCall = e'.isCall := by
  cases h with
  | dropped => simp [isRead, isCall] at he
  | _ => exact ⟨rfl, rfl⟩

def CastsSucceed (e : Expr) : Prop :=
  ∀ operand kind, .convert operand kind ∈ e.nodes → ∀ v, operand.evaluate = .ok v →
    ∃ w, v.convert kind = .ok w

end Expr

namespace TableMapping

variable {t : TableMapping} {e e' a : Expr} {f : Fragment}

/-- The expression has no SQL because of a cast that is written in it. -/
def Miscasts (t : TableMapping) (e : Expr) : Prop :=
  ∃ operand kind v, .convert operand kind ∈ e.nodes ∧ operand.evaluate = .ok v ∧
    v.convert kind = .error (.conversion v kind) ∧ t.fragment e = .error (.conversion v kind)

theorem Miscasts.of_operand (h : t.Miscasts a) (ha : a ∈ e.operands)
    (first : ∀ fault, t.fragment a = .error fault → t.fragment e = .error fault) :
    t.Miscasts e := by
  obtain ⟨operand, kind, v, node, hv, cast, failed⟩ := h
  exact ⟨operand, kind, v, Expr.mem_nodes.2 (.inr ⟨a, ha, node⟩), hv, cast, first _ failed⟩

theorem Miscasts.of_first (h : t.Miscasts a) (ha : a ∈ e.operands)
    {rest : Fragment → Except Fault Fragment} (first : t.fragment e = t.fragment a >>= rest) :
    t.Miscasts e := by
  refine h.of_operand ha fun fault failed => ?_
  rw [first, failed]
  rfl

theorem fragments_uncast {es es' : List Expr} (h : List.Forall₂ Expr.Uncast es es')
    {fs : List Fragment} (hfs : List.Forall₂ (fun e f => t.fragment e = .ok f) es fs)
    (ih : ∀ a ∈ es, ∀ a' f, a.Uncast a' → t.fragment a = .ok f →
      (∃ f', t.fragment a' = .ok f' ∧ f.Agrees f') ∨ t.Miscasts a') :
    (∃ fs', List.Forall₂ (fun e f => t.fragment e = .ok f) es' fs' ∧
      List.Forall₂ Fragment.Agrees fs fs') ∨
      ∃ a ∈ es', t.Miscasts a ∧
        ∀ fault, t.fragment a = .error fault → t.fragments es' = .error fault := by
  induction h generalizing fs with
  | nil =>
    cases hfs
    exact .inl ⟨[], .nil, .nil⟩
  | @cons a a' es es' ha _ ihs =>
    obtain _ | ⟨hf, hfs⟩ := hfs
    have rest := ihs hfs fun b hb => ih b (by simp [hb])
    rcases ih a (by simp) a' _ ha hf with ⟨f', hf', agrees⟩ | miscasts
    · rcases rest with ⟨fs', hfs', all⟩ | ⟨b, hb, miscasts, first⟩
      · exact .inl ⟨f' :: fs', .cons hf' hfs', .cons agrees all⟩
      · refine .inr ⟨b, by simp [hb], miscasts, fun fault failed => ?_⟩
        rw [fragments, hf', first fault failed]
        rfl
    · refine .inr ⟨a', by simp, miscasts, fun fault failed => ?_⟩
      rw [fragments, failed]
      rfl

theorem fragment_uncast (h : e.Uncast e') (hf : t.fragment e = .ok f) :
    (∃ f', t.fragment e' = .ok f' ∧ f.Agrees f') ∨ t.Miscasts e' := by
  -- On the expression, since the relation goes through lists of operands.
  induction e using Expr.induction generalizing e' f with
  | constant | parameter | captured | column | member =>
    cases h
    exact .inl ⟨f, hf, .of_eq rfl⟩
  | binary op left right ihl ihr =>
    cases h with
    | @binary _ _ left' _ right' hl hr =>
      obtain ⟨l, r, hfl, hfr, hf⟩ := fragment_binary_eq_ok.1 hf
      rcases ihl hl hfl with ⟨l', hfl', agreesl⟩ | miscasts
      · rcases ihr hr hfr with ⟨r', hfr', agreesr⟩ | miscasts
        · exact .inl ⟨f, fragment_binary_eq_ok.2 ⟨l', r', hfl', hfr', agreesl.binary agreesr hf⟩,
            .of_eq rfl⟩
        · refine .inr (miscasts.of_operand (by simp [Expr.operands]) fun fault failed => ?_)
          rw [fragment, hfl', failed]
          rfl
      · exact .inr (miscasts.of_first (by simp [Expr.operands]) (by rw [fragment]))
  | not operand ih =>
    cases h with
    | @not _ operand' ho =>
      obtain ⟨g, hg, hf⟩ := fragment_not_eq_ok.1 hf
      have kept := ho.kept (hf.imp And.left And.left)
      rcases ih ho hg with ⟨g', hg', agrees⟩ | miscasts
      · exact .inl ⟨f, fragment_not_eq_ok.2 ⟨g', hg', agrees.negate kept.1 kept.2 hf⟩, .of_eq rfl⟩
      · exact .inr (miscasts.of_first (by simp [Expr.operands]) (by rw [fragment]))
  | convert operand kind ih =>
    obtain ⟨g, hg, hf⟩ := fragment_convert_eq_ok.1 hf
    cases h with
    | @convert _ _ operand' ho =>
      rcases ih ho hg with ⟨g', hg', agrees⟩ | miscasts
      · rcases agrees.convert hf with ⟨f', hf', agrees⟩ | ⟨v, hv, cast, failed⟩
        · exact .inl ⟨f', fragment_convert_eq_ok.2 ⟨g', hg', hf'⟩, agrees⟩
        · refine .inr ⟨operand', kind, v, Expr.mem_nodes_self _, ?_, cast, ?_⟩
          · exact (value_eq_some_iff hg').1 hv
          · rw [fragment, hg']
            exact failed
      · exact .inr (miscasts.of_first (by simp [Expr.operands]) (by rw [fragment]))
    | dropped text ho =>
      rcases ih ho hg with ⟨f', hf', agrees⟩ | miscasts
      · exact .inl ⟨f', hf', (Fragment.Agrees.of_convert text hf).trans agrees⟩
      · exact .inr miscasts
  | call method args ih =>
    cases h with
    | @call _ _ args' hargs =>
      obtain ⟨fs, hfs, hf⟩ := fragment_call_eq_ok.1 hf
      rcases fragments_uncast hargs hfs fun a ha a' g => ih a ha with
        ⟨fs', hfs', agrees⟩ | ⟨a, ha, miscasts, first⟩
      · have written := fragment_call_eq_ok.2 ⟨fs', hfs', Fragment.Agrees.call agrees hf⟩
        exact .inl ⟨f, written, .of_eq rfl⟩
      · refine .inr (miscasts.of_operand ha fun fault failed => ?_)
        rw [fragment, first fault failed]
        rfl
  | invoke receiver method args ihr ih =>
    cases h with
    | @invoke _ _ receiver' _ args' hr hargs =>
      obtain ⟨r, fs, hfr, hfs, rfl⟩ := fragment_invoke_eq_ok.1 hf
      rcases ihr hr hfr with ⟨r', hfr', agreesr⟩ | miscasts
      · rcases fragments_uncast hargs hfs fun a ha a' g => ih a ha with
          ⟨fs', hfs', agrees⟩ | ⟨a, ha, miscasts, first⟩
        · refine .inl ⟨r'.invoke method fs', ?_, .of_eq (agreesr.invoke agrees method)⟩
          exact fragment_invoke_eq_ok.2 ⟨r', fs', hfr', hfs', rfl⟩
        · refine .inr (miscasts.of_operand (by simp [Expr.operands, ha]) fun fault failed => ?_)
          rw [fragment, hfr', first fault failed]
          rfl
      · exact .inr (miscasts.of_first (by simp [Expr.operands]) (by rw [fragment]))
  | lambda => simp [fragment] at hf

theorem castsSucceed_of_fragment (h : t.fragment e = .ok f) : e.CastsSucceed := by
  intro operand kind node
  obtain ⟨g, hg⟩ := exists_fragment_of_mem_nodes h node
  exact settles_of_fragment hg

theorem Miscasts.not_castsSucceed (h : t.Miscasts e) : ¬ e.CastsSucceed := by
  obtain ⟨operand, kind, v, node, hv, cast, _⟩ := h
  intro succeed
  obtain ⟨w, ok⟩ := succeed operand kind node v hv
  cases cast.symm.trans ok

theorem compile_uncast (t : TableMapping) (e e' : Expr) (params params' : List Datum) (f : Fragment)
    (h : e.Uncast e') (hc : t.compile e params = (.ok f, params')) :
    (e'.CastsSucceed → ∃ f', t.compile e' params = (.ok f', params') ∧ f'.sql = f.sql) ∧
    ((∀ operand kind, .convert operand kind ∈ e'.nodes → .convert operand kind ∈ e.nodes) →
      e'.CastsSucceed) ∧
    (¬ e'.CastsSucceed →
      ∃ v kind, t.compile e' params = (.error (.conversion v kind), params)) := by
  obtain ⟨hf, rfl⟩ := compile_eq_ok.1 hc
  have kept (old : ∀ operand kind, .convert operand kind ∈ e'.nodes →
      .convert operand kind ∈ e.nodes) : e'.CastsSucceed := fun operand kind node =>
    castsSucceed_of_fragment hf operand kind (old operand kind node)
  rcases fragment_uncast h hf with ⟨f', hf', agrees⟩ | miscasts
  · refine ⟨fun _ => ⟨f', ?_, agrees.sql.symm⟩, kept, fun fails => ?_⟩
    · rw [compile_eq_ok, agrees.args]
      exact ⟨hf', rfl⟩
    · exact absurd (castsSucceed_of_fragment hf') fails
  · refine ⟨fun succeed => absurd succeed miscasts.not_castsSucceed, kept, fun _ => ?_⟩
    obtain ⟨_, kind, v, _, _, _, failed⟩ := miscasts
    exact ⟨v, kind, by rw [compile, failed]⟩

theorem compile_uncast_notes :
    let compared (e : Expr) : Expr := .binary .eq (.field "Id") e
    let one : Expr := .constant (.text "1")
    let e : Expr := compared (.convert (.convert one .int64) .bool)
    let outer : Expr := compared (.convert one .int64)
    let inner : Expr := compared (.convert one .bool)
    ∃ f, notes.compile e [] = (.ok f, [.text "1"]) ∧
      ((e.Uncast outer ∧ ∀ operand kind, .convert operand kind ∈ outer.nodes →
          .convert operand kind ∈ e.nodes) ∧
        outer.CastsSucceed ∧
        ∃ g, notes.compile outer [] = (.ok g, [.text "1"]) ∧ g.sql = f.sql) ∧
      (e.Uncast inner ∧ ¬ inner.CastsSucceed) ∧
        ∃ v kind, notes.compile inner [] = (.error (.conversion v kind), []) := by
  intro compared one e outer inner
  have field : (Expr.field "Id").Uncast (.field "Id") := .member _ _
  have uncast_outer : e.Uncast outer :=
    .binary _ field (.dropped rfl (.convert _ (.constant _)))
  have uncast_inner : e.Uncast inner := .binary _ field (.convert _ (.dropped rfl (.constant _)))
  have old : ∀ operand kind, .convert operand kind ∈ outer.nodes →
      .convert operand kind ∈ e.nodes := by
    intro operand kind node
    simp_all [e, outer, compared, Expr.field, Expr.nodes]
  have fails : ¬ inner.CastsSucceed := by
    intro succeed
    obtain ⟨w, ok⟩ := succeed one .bool (by simp [inner, compared, Expr.nodes]) _ rfl
    cases ok
  have compiled : ∃ f, notes.compile e [] = (.ok f, [.text "1"]) := ⟨_, rfl⟩
  obtain ⟨f, hf⟩ := compiled
  obtain ⟨same, kept, _⟩ := compile_uncast notes e outer [] _ f uncast_outer hf
  exact ⟨f, hf, ⟨⟨uncast_outer, old⟩, kept old, same (kept old)⟩, ⟨uncast_inner, fails⟩,
    (compile_uncast notes e inner [] _ f uncast_inner hf).2.2 fails⟩

theorem uncast_refused :
    let compared (e : Expr) : Expr := .binary .eq (.field "Id") e
    let one : Expr := .constant (.text "1")
    let e : Expr := compared (.convert (.convert one .int64) .bool)
    let e' : Expr := compared (.convert one .bool)
    e.Uncast e' ∧
      (∃ f, notes.compile e [] = (.ok f, [.text "1"]) ∧ f.sql = "(\"id\" = ?)") ∧
      notes.compile e' [] = (.error (.conversion (.text "1") .bool), []) :=
  ⟨.binary _ (.member _ _) (.convert _ (.dropped rfl (.constant _))), ⟨_, rfl, by decide⟩, rfl⟩

end TableMapping

end Tabular
