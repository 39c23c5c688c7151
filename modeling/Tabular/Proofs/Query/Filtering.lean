import Tabular.Proofs.Compile.Nulls
import Tabular.Proofs.Query.Building

namespace Tabular

theorem Fragment.sql_infixed_and (f g : Fragment) :
    (f.infixed "and" g).sql = "(" ++ f.sql ++ " and " ++ g.sql ++ ")" := by
  have spaced : " " ++ "and" ++ " " = " and " := by decide
  unfold infixed
  rw [← spaced]
  simp only [String.append_assoc]

namespace TableMapping

variable {t : TableMapping} {l r : Expr} {f g : Fragment}

theorem isNull_eq_false (h : t.fragment l = .ok f) (hl : l.evaluate ≠ .ok .null) :
    f.isNull = false := by
  rw [(fragment_carries h).isNull_eq]
  exact Bool.eq_false_iff.2 (mt isNull_iff.1 hl)

theorem fragment_infixed (hl : t.fragment l = .ok f) (hr : t.fragment r = .ok g)
    (nl : l.evaluate ≠ .ok .null) (nr : r.evaluate ≠ .ok .null) {op : BinaryOp} {token : String}
    (ho : op.token? = some token) : t.fragment (.binary op l r) = .ok (f.infixed token g) := by
  rw [fragment, hl, hr]
  simp only [Bind.bind, Except.bind, Fragment.binary, isNull_eq_false hl nl, isNull_eq_false hr nr,
    ho]
  rfl

end TableMapping

namespace Query

variable {q p : Query} {e body : Expr} {condition added : String} {args more : List Datum}

def selecting (q : Query) (condition : String) (args : List Datum) : Statement :=
  ⟨"select * from " ++ q.mapping.quotedName ++ " where " ++ condition ++ q.orderClause ++
    q.pageClause, args⟩

theorem selecting_inj {condition' : String} {args' : List Datum} :
    q.selecting condition args = q.selecting condition' args' ↔
      condition = condition' ∧ args = args' := by
  unfold selecting
  rw [Statement.mk.injEq, String.append_left_inj, String.append_left_inj, String.append_right_inj]

theorem selecting_predicate (q : Query) (predicate : Option Expr) :
    { q with predicate }.selecting = q.selecting := rfl

theorem statement_eq (h : q.predicate = some e) :
    q.statement = (do let f ← q.mapping.fragment e; return q.selecting f.sql f.args) := by
  have start : "select " ++ "*" ++ " from " = "select * from " := by decide
  rw [statement, build, whereClause, h]
  cases he : q.mapping.fragment e with
  | error fault => simp only [he, bind, Except.bind]
  | ok f =>
    simp only [he, bind, Except.bind, pure, Except.pure]
    unfold selecting
    rw [start, ← String.append_assoc]

theorem statement_eq_selecting (h : q.predicate = some e) :
    q.statement = .ok (q.selecting condition args) ↔
      ∃ f, q.mapping.fragment e = .ok f ∧ f.sql = condition ∧ f.args = args := by
  simp only [statement_eq h, bind_eq_ok, pure, Except.pure, Except.ok.injEq, selecting_inj]

theorem filter_of_predicate (h : q.predicate = some e) (body : Expr) :
    q.filter (.lambda 1 body) = .ok { q with predicate := some (.binary .and e body) } := by
  rw [filter_lambda, h]
  rfl

theorem statement_filter (h : q.predicate = some e)
    (hq : q.statement = .ok (q.selecting condition args))
    (hf : (ofMapping q.mapping).filter (.lambda 1 body) = .ok p)
    (hp : p.statement = .ok (p.selecting added more)) :
    ∃ q', q.filter (.lambda 1 body) = .ok q' ∧
      (e.evaluate ≠ .ok .null → body.evaluate ≠ .ok .null → q'.statement =
        .ok (q.selecting ("(" ++ condition ++ " and " ++ added ++ ")") (args ++ more))) ∧
      (e.evaluate = .ok .null ∨ body.evaluate = .ok .null → q'.statement =
        .error (.uncompilable (.againstNull .and (.binary .and e body)))) := by
  obtain ⟨f, he, rfl, rfl⟩ := (statement_eq_selecting h).1 hq
  rw [filter_lambda] at hf
  cases hf
  obtain ⟨g, hb, rfl, rfl⟩ := (statement_eq_selecting rfl).1 hp
  refine ⟨_, filter_of_predicate h body, fun ne nb => ?_, fun null => ?_⟩
  · have joined : q.mapping.fragment (.binary .and e body) = .ok (f.infixed "and" g) :=
      TableMapping.fragment_infixed he hb ne nb rfl
    rw [statement_eq rfl, selecting_predicate]
    refine bind_eq_ok.2 ⟨_, joined, ?_⟩
    rw [Fragment.sql_infixed_and]
    rfl
  · have refused : q.mapping.fragment (.binary .and e body) =
        .error (.uncompilable (.againstNull .and (.binary .and e body))) := by
      rcases null with hn | hn
      · exact (TableMapping.fragment_against_null hb hn .and).2
      · exact (TableMapping.fragment_against_null he hn .and).1
    rw [statement_eq rfl, refused]
    rfl

theorem statement_filter_notes :
    let early : Expr := .binary .lt (.field "Id") (.constant (.int 9))
    let untitled : Expr := .not (.field "Title")
    let q := (ofMapping .notes).after
      [.filter (.lambda 1 early), .orderBy (.lambda 1 (.field "Title")), .take 3]
    let p := (ofMapping .notes).after [.filter (.lambda 1 untitled)]
    (q.predicate = some early ∧ q.statement = .ok (q.selecting "(\"id\" < ?)" [.integer 9]) ∧
      (ofMapping .notes).filter (.lambda 1 untitled) = .ok p ∧
      p.statement = .ok (p.selecting "\"title\" = 0" []) ∧
      early.evaluate ≠ .ok .null ∧ untitled.evaluate ≠ .ok .null) ∧
    ∃ q', q.filter (.lambda 1 untitled) = .ok q' ∧ q'.statement = .ok
      ⟨"select * from \"notes\" where ((\"id\" < ?) and \"title\" = 0) order by \"title\" limit 3",
        [.integer 9]⟩ := by
  intro early untitled q p
  have hq : q.statement = .ok (q.selecting "(\"id\" < ?)" [.integer 9]) :=
    (statement_eq_selecting rfl).2 ⟨_, rfl, by decide, by decide⟩
  have hp : p.statement = .ok (p.selecting "\"title\" = 0" []) :=
    (statement_eq_selecting rfl).2 ⟨_, rfl, by decide, by decide⟩
  have ne : early.evaluate ≠ .ok .null := by simp [early, Expr.evaluate]
  have nb : untitled.evaluate ≠ .ok .null := by simp [untitled, Expr.evaluate]
  obtain ⟨q', hf, joined, _⟩ := statement_filter (q := q) rfl hq rfl hp
  refine ⟨⟨rfl, hq, rfl, hp, ne, nb⟩, q', hf, (joined ne nb).trans (congrArg _ ?_)⟩
  decide

theorem filter_null_refused :
    let one : Expr := .binary .eq (.field "Id") (.constant (.int 1))
    let null : Expr := .captured "wanted" .null
    let q := (ofMapping .notes).after [.filter (.lambda 1 one)]
    let p := (ofMapping .notes).after [.filter (.lambda 1 null)]
    q.statement = .ok (q.selecting "(\"id\" = ?)" [.integer 1]) ∧
      p.statement = .ok (p.selecting "?" [.null]) ∧
      ∃ q', q.filter (.lambda 1 null) = .ok q' ∧ q'.statement =
        .error (.uncompilable (.againstNull .and (.binary .and one null))) := by
  intro one null q p
  exact ⟨(statement_eq_selecting rfl).2 ⟨_, rfl, by decide, by decide⟩,
    (statement_eq_selecting rfl).2 ⟨_, rfl, by decide, by decide⟩, _, rfl, rfl⟩

end Query

end Tabular
