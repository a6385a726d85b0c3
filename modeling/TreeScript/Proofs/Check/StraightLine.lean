/-
What a check finds in code without branches. A check looks at every part of a tree, while a run may skip some: the body
of a loop, the branch of a condition that is not taken, the right operand of a logical operator. A straight tree has
none of these, so the run comes to all that the check looks at, in frames that know the same names, as long as it has
not failed. Each thing that the check complains about is one that the run does not get past. A run that gets to the end
therefore leaves nothing to complain about, and a straight program in which the check finds an error fails.
-/
import TreeScript.Proofs.Check.Soundness
import TreeScript.Proofs.Run.Emission
import TreeScript.Proofs.Run.Safety

namespace TreeScript

/-! ## Straight trees -/

/-- An expression node all of whose operands are evaluated. -/
def Expr.IsStrict : Expr → Prop
  | .binary _ _ op _ => op.isLogical = false
  | _ => True

/-- A statement node that is neither a loop nor a condition and has no logical operator in its expressions. -/
def Stmt.IsStraight (s : Stmt) : Prop :=
  (∀ e ∈ s.exprs, ∀ n ∈ e.nodes, n.IsStrict) ∧
  match s with
  | .forLoop .. => False
  | .whileLoop .. => False
  | .ifElse .. => False
  | _ => True

/-! ## Steps that succeed -/

section

variable {scope : Scope} {span : Span}

theorem Expr.eval_binary_eq_ok {left right : Expr} {op : Token} {v : Value} (hop : op.isLogical = false)
    (h : (binary span left op right).eval scope = .ok v) :
    ∃ a b, left.eval scope = .ok a ∧ right.eval scope = .ok b := by
  rw [eval] at h
  cases ha : left.eval scope with
  | error f =>
    rw [ha] at h
    cases h
  | ok a =>
    rw [ha, hop] at h
    cases hb : right.eval scope with
    | error f =>
      rw [hb] at h
      cases h
    | ok b => exact ⟨a, b, rfl, rfl⟩

theorem Expr.eval_unary_eq_ok {operand : Expr} {op : Token} {v : Value}
    (h : (unary span op operand).eval scope = .ok v) : ∃ a, operand.eval scope = .ok a := by
  rw [eval] at h
  cases ha : operand.eval scope with
  | error f =>
    rw [ha] at h
    cases h
  | ok a => exact ⟨a, rfl⟩

theorem Expr.evalAll_cons_eq_ok {e : Expr} {rest : List Expr} {values : List Value}
    (h : evalAll scope (e :: rest) = .ok values) :
    ∃ v others, e.eval scope = .ok v ∧ evalAll scope rest = .ok others := by
  rw [evalAll] at h
  cases hv : e.eval scope with
  | error f =>
    rw [hv] at h
    cases h
  | ok v =>
    rw [hv] at h
    obtain ⟨others, hothers, -⟩ := exists_of_map_eq_ok h
    exact ⟨v, others, rfl, hothers⟩

/-- A call that emits names a method of a built-in object that no variable hides. -/
theorem Expr.callRecord_eq_ok {receiver : Expr} {method : String} {args : List Expr} {r : Record}
    (h : callRecord scope span receiver method args = .ok r) :
    (∃ receiverSpan object, receiver = .identifier receiverSpan object ∧ scope.isDefined object = false ∧
      (Builtin.Registry.standard.method? object method).isSome = true) ∧
    ∃ values, evalAll scope args = .ok values := by
  cases receiver with
  | identifier receiverSpan object =>
    rw [callRecord] at h
    by_cases hbuiltin : (!scope.isDefined object && Builtin.Registry.standard.hasObject object) = true
    · rw [if_pos hbuiltin] at h
      rw [Bool.and_eq_true, Bool.not_eq_true'] at hbuiltin
      cases hm : Builtin.Registry.standard.method? object method with
      | none =>
        rw [hm] at h
        cases h
      | some m =>
        rw [hm] at h
        obtain ⟨values, hvalues, -⟩ := exists_of_map_eq_ok h
        exact ⟨⟨receiverSpan, object, rfl, hbuiltin.1, by rw [hm]; rfl⟩, values, hvalues⟩
    · -- A variable has no methods.
      rw [if_neg hbuiltin] at h
      cases hl : scope.lookup object with
      | error cause =>
        rw [hl] at h
        cases h
      | ok v =>
        rw [hl] at h
        cases h
  | _ => cases h

theorem Scope.execAssign_of_value {target : Target} {value : Expr} {f : Failure} (hf : value.eval scope = .error f)
    (op : Token) : ∃ f', scope.execAssign span target value op = .error f' := by
  unfold execAssign
  rw [hf]
  split
  · exact ⟨f, rfl⟩
  · split
    · exact ⟨_, rfl⟩
    · split
      · exact ⟨_, rfl⟩
      · exact ⟨f, rfl⟩

end

/-! ## Runs that come to an end -/

namespace Outcome

/-- A run that comes to an end, and to a state of this kind unless it fails. -/
def Halts (good : State → Prop) : Outcome → Prop
  | finished st => good st
  | failed _ _ => True
  | unfinished => False

variable {good good' : State → Prop} {st : State}

theorem Halts.imp {o : Outcome} (h : o.Halts good) (hgood : ∀ st, good st → good' st) : o.Halts good' := by
  cases o with
  | finished st => exact hgood st h
  | failed f st => trivial
  | unfinished => exact h

theorem halts_ofStep {α : Type} {step : Except Failure α} {next : α → Outcome}
    (h : ∀ a, step = .ok a → (next a).Halts good) : (ofStep st step next).Halts good := by
  cases step with
  | ok a => exact h a rfl
  | error f => trivial

theorem halts_inFrame {name : String} {body : State → Outcome}
    (h : (body (st.push name)).Halts fun st => good st.pop) : (inFrame name body st).Halts good := by
  unfold inFrame
  cases hbody : body (st.push name) with
  | finished st => rwa [hbody] at h
  | failed f st => trivial
  | unfinished => rwa [hbody] at h

theorem halts_execAll_cons {limit : Nat} {s : Stmt} {rest : List Stmt} (hs : (s.exec limit st).Halts good')
    (hrest : ∀ st, good' st → (execAll limit rest st).Halts good) : (execAll limit (s :: rest) st).Halts good := by
  unfold execAll
  cases h : s.exec limit st with
  | finished st' =>
    rw [h] at hs
    exact hrest st' hs
  | failed f st' => trivial
  | unfinished => rwa [h] at hs

end Outcome

namespace Check

/-! ## Expressions -/

/-- A scope of a run that knows the same names as the frames of a check, in each frame. -/
abbrev AgreesFully (scope : Scope) (st : State) : Prop := Agrees True True scope st

theorem AgreesFully.resolve_eq {scope : Scope} {st : State} (h : AgreesFully scope st) (name : String) :
    st.resolve? name = scope.mutability? name :=
  ((h.resolve name).same trivial trivial).symm

variable {scope : Scope} {st : State} {span : Span}

theorem literal_of_eval {l : Literal} {v : Value} (hv : l.eval span = .ok v) : st.literal l span = st := by
  unfold State.literal
  split
  · rename_i s
    rw [Literal.eval] at hv
    cases hs : Integer.parse s with
    | ok n => rfl
    | error fault =>
      rw [hs] at hv
      cases hv
  · rename_i d
    rw [Literal.eval] at hv
    cases hd : Integer.ofDatum d with
    | ok n => rfl
    | error fault =>
      rw [hd] at hv
      cases hv
  · rfl

/-- In an expression that has a value there is nothing to complain about. -/
theorem expr_of_eval {e : Expr} (hs : ∀ n ∈ e.nodes, n.IsStrict) (h : AgreesFully scope st) {v : Value}
    (hv : e.eval scope = .ok v) : expr st e = st := by
  induction e using Expr.induction generalizing v with
  | literal span l => exact literal_of_eval hv
  | identifier span name =>
    have hbound := Scope.isDefined_of_lookup (placed_eq_ok hv)
    rw [Scope.isDefined_eq, ← h.resolve_eq] at hbound
    rw [expr, if_pos hbound]
  | binary span left op right ihLeft ihRight =>
    rw [Expr.nodes, List.forall_mem_cons, List.forall_mem_append] at hs
    obtain ⟨hop, hleft, hright⟩ := hs
    obtain ⟨a, b, ha, hb⟩ := Expr.eval_binary_eq_ok hop hv
    rw [expr, ihLeft hleft ha, ihRight hright hb]
  | unary span op operand ih =>
    rw [Expr.nodes, List.forall_mem_cons] at hs
    obtain ⟨a, ha⟩ := Expr.eval_unary_eq_ok hv
    rw [expr, ih hs.2 ha]
  | call span receiver method args _ _ => cases hv
  | stray s => rfl

theorem exprs_of_evalAll {args : List Expr} (hs : ∀ e ∈ args, ∀ n ∈ e.nodes, n.IsStrict) (h : AgreesFully scope st)
    {values : List Value} (hv : Expr.evalAll scope args = .ok values) : exprs st args = st := by
  induction args generalizing values with
  | nil => rfl
  | cons e rest ih =>
    obtain ⟨he, hrest⟩ := List.forall_mem_cons.mp hs
    obtain ⟨v, others, hv, hothers⟩ := Expr.evalAll_cons_eq_ok hv
    rw [exprs, expr_of_eval he h hv, ih hrest hothers]

/-- Nor is there in a call that emits, or in another expression that stands as a statement and has a value. -/
theorem effect_of_expressionRecord {e : Expr} (hs : ∀ n ∈ e.nodes, n.IsStrict) (h : AgreesFully scope st)
    {record : Option Record} (hr : scope.expressionRecord e = .ok record) : effect st e = st := by
  cases e with
  | call callSpan receiver method args =>
    rw [Expr.nodes, List.forall_mem_cons, forall_argNodes] at hs
    obtain ⟨r, hcall, -⟩ := exists_of_map_eq_ok hr
    obtain ⟨⟨receiverSpan, object, rfl, hhidden, hmethod⟩, values, hargs⟩ := Expr.callRecord_eq_ok hcall
    rw [Scope.isDefined_eq, ← h.resolve_eq] at hhidden
    have hknown : st.isKnownMethod (.identifier receiverSpan object) method = true := by
      simpa [State.isKnownMethod, hmethod] using hhidden
    rw [effect, State.callee, if_pos hknown, exprs_of_evalAll hs.2 h hargs]
  | stray s => rfl
  | _ =>
    obtain ⟨v, hv, -⟩ := exists_of_map_eq_ok hr
    exact expr_of_eval hs h hv

/-! ## Statements -/

/-- What may be assigned to is no target to complain about. -/
theorem target_of_assign {name : String} {v : Value} {scope' : Scope} (h : AgreesFully scope st)
    (hassign : scope.assign name v = .ok scope') : st.target name span = st := by
  obtain ⟨b, hb, hmutable⟩ := Scope.mutable_of_assign hassign
  have hresolve : st.resolve? name = some true := by
    rw [h.resolve_eq, Scope.mutability?, hb, Option.map_some, hmutable]
  rw [State.target, hresolve]

/-- A name that can be declared is one that the current frame of the check does not have. -/
theorem collector_declare {name : String} {v : Value} {isMutable : Bool} {scope' : Scope} (h : AgreesFully scope st)
    (hdeclare : scope.declare name v isMutable = .ok scope') :
    (st.declare name isMutable span).collector = st.collector := by
  obtain ⟨hnew, -⟩ := Scope.declare_eq_ok hdeclare
  rw [Frame.owns_eq, (h.current name).same trivial trivial] at hnew
  rw [State.declare, if_neg (by simp [hnew])]

/-- Where a run comes to after a statement, the frames of the check know the same names, and the check has found
nothing in the statement. -/
def Uncontested (limit : Nat) (s : Stmt) : Prop :=
  ∀ (run : TreeScript.State) (check : State), AgreesFully run.scope check → check.isFull = false →
    (s.exec limit run).Halts fun run' =>
      AgreesFully run'.scope (stmt check s) ∧ (stmt check s).collector = check.collector

variable {limit : Nat}

theorem execAll_uncontested {statements : List Stmt} (hs : ∀ s ∈ statements, Uncontested limit s)
    {run : TreeScript.State} {check : State} (h : AgreesFully run.scope check) (hfull : check.isFull = false) :
    (execAll limit statements run).Halts fun run' =>
      AgreesFully run'.scope (stmts check statements) ∧ (stmts check statements).collector = check.collector := by
  induction statements generalizing run check with
  | nil => exact ⟨h, rfl⟩
  | cons s rest ih =>
    obtain ⟨hfirst, hrest⟩ := List.forall_mem_cons.mp hs
    rw [stmts, if_neg (by simp [hfull])]
    refine Outcome.halts_execAll_cons (hfirst run check h hfull) ?_
    rintro run' ⟨h', hcollector⟩
    rw [← hcollector]
    apply ih hrest h'
    rw [State.isFull, hcollector]
    exact hfull

theorem exec_uncontested_of_isSimple {s : Stmt} (hs : s.IsStraight) (hsimple : s.isSimple = true) :
    Uncontested limit s := by
  intro run check h hfull
  cases s with
  | declare span name isMutable init =>
    rw [Stmt.exec]
    refine Outcome.halts_ofStep ?_
    intro scope' hok
    obtain ⟨e, v, rfl, hv, hdeclare⟩ := Scope.execDeclare_eq_ok hok
    have hinit : expr check e = check := expr_of_eval (hs.1 e (List.mem_singleton_self _)) h hv
    rw [stmt, optionalExpr, hinit]
    exact ⟨h.declare span hdeclare, collector_declare h hdeclare⟩
  | assign span target value op =>
    rw [Stmt.exec]
    refine Outcome.halts_ofStep ?_
    intro scope' hok
    obtain ⟨v, hassign⟩ := Scope.execAssign_eq_ok hok
    -- The target may be looked at before the value, but the statement does not succeed without both.
    have hvalue : expr check value = check := by
      cases hv : value.eval run.scope with
      | ok operand => exact expr_of_eval (hs.1 value (List.mem_singleton_self _)) h hv
      | error f =>
        obtain ⟨f', hf'⟩ := Scope.execAssign_of_value hv op
        cases hok.symm.trans hf'
    rw [stmt, hvalue, target_of_assign h hassign, Scope.assign_eq_ok hassign]
    exact ⟨h.set target.name v, rfl⟩
  | update span target op =>
    rw [Stmt.exec]
    refine Outcome.halts_ofStep ?_
    intro scope' hok
    obtain ⟨v, hassign⟩ := Scope.execUpdate_eq_ok hok
    rw [stmt, target_of_assign h hassign, Scope.assign_eq_ok hassign]
    exact ⟨h.set target.name v, rfl⟩
  | output span level argument =>
    rw [Stmt.exec]
    refine Outcome.halts_ofStep ?_
    intro record hok
    have hargument : expr check argument = check := by
      cases hv : argument.eval run.scope with
      | ok v => exact expr_of_eval (hs.1 argument (List.mem_singleton_self _)) h hv
      | error f =>
        obtain ⟨f', hf'⟩ := Scope.outputRecord_of_argument level hv
        obtain ⟨r, hr, -⟩ := exists_of_map_eq_ok hok
        cases hr.symm.trans hf'
    rw [stmt, hargument]
    cases record <;> exact ⟨h, rfl⟩
  | expression span e =>
    rw [Stmt.exec]
    refine Outcome.halts_ofStep ?_
    intro record hok
    rw [stmt, effect_of_expressionRecord (hs.1 e (List.mem_singleton_self _)) h hok]
    cases record <;> exact ⟨h, rfl⟩
  | stray e => trivial
  | block | forLoop | whileLoop | ifElse => cases hsimple

/-- A straight statement comes to an end, and if it does not fail the check finds nothing in it. -/
theorem exec_uncontested {s : Stmt} (hs : s.All Stmt.IsStraight) : Uncontested limit s := by
  induction s using Stmt.induction with
  | block body ih =>
    obtain ⟨-, hbody⟩ := Stmt.all_block.mp hs
    intro run check h hfull
    obtain ⟨blockSpan, statements⟩ := body
    have hinside : (execAll limit statements ((run.visit (.block (.mk blockSpan statements))).push "block")).Halts
        fun run' => AgreesFully run'.scope (stmts check.push statements) ∧
          (stmts check.push statements).collector = check.collector :=
      execAll_uncontested (fun s hm => ih s hm (hbody s hm)) (h.push "block") hfull
    rw [Stmt.exec, stmt, block, State.collector_pop]
    refine Outcome.halts_inFrame (hinside.imp ?_)
    rintro run' ⟨h', hcollector⟩
    exact ⟨h'.pop, hcollector⟩
  | forLoop span init test update body _ _ _ => exact hs.self.2.elim
  | whileLoop span test body _ => exact hs.self.2.elim
  | ifElse span test thenBranch elseBranch _ _ _ => exact hs.self.2.elim
  | _ => exact exec_uncontested_of_isSimple hs.self rfl

/-! ## Programs -/

/-- If a check of a straight program that a document gives reports an error, then the program fails, with an error of
evaluation. The limit on tests of loops does not matter, since there are none. -/
theorem check_error_fails {filename : Option String} {name d : Document} {p : Program}
    (hp : Program.ofDocument filename name d = .ok p) (hstraight : ∀ n ∈ p.nodes, n.IsStraight) {maxErrors : Int}
    (hpos : 1 ≤ maxErrors) (hfound : (Check.run p maxErrors).hasErrors = true) (limit : Nat) :
    ∃ e, (p.run limit).ending = .error e ∧ e.cause.isEvaluation = true := by
  have hsound : ∀ s ∈ p.statements, s.Sound := Program.ofDocument_yields filename name d p hp
  have hsafe : (p.exec limit .fresh).Safe := execAll_safe hsound .fresh .fresh
  have hempty : (State.fresh maxErrors).isFull = false := by
    rw [State.isFull, Collector.isFull_eq_false_iff]
    exact hpos
  have hhalts : (p.exec limit .fresh).Halts fun run' =>
      AgreesFully run'.scope (stmts (.fresh maxErrors) p.statements) ∧
        (stmts (.fresh maxErrors) p.statements).collector = .empty maxErrors :=
    execAll_uncontested (fun s hs => exec_uncontested (forall_statementNodes.mp hstraight s hs)) (.fresh maxErrors)
      hempty
  rw [Program.run]
  cases ho : p.exec limit .fresh with
  | finished st =>
    -- The run is through, so the check has found nothing.
    rw [ho] at hhalts
    rw [Check.run, Check.program, hhalts.2] at hfound
    cases hfound
  | failed f st =>
    rw [ho] at hsafe
    obtain ⟨⟨e, rfl, he⟩, -⟩ := hsafe
    exact ⟨e, rfl, he⟩
  | unfinished =>
    rw [ho] at hhalts
    exact hhalts.elim

/-- In a block a variable hides a constant of the same name, and after the block the constant is assigned to. -/
theorem check_error_fails_hidden_constant :
    ∃ p e, Program.ofDocument none .null (.list [declarationDocument "const",
        nodeDocument "Block" [("body", .list [declarationDocument "let", assignmentDocument])],
        assignmentDocument]) = .ok p ∧
      (Check.run p 1).hasErrors = true ∧ (∀ n ∈ p.nodes, n.IsStraight) ∧
      (p.run 0).ending = .error e ∧ e.cause.isEvaluation = true := by
  let yes : Expr := .literal .none (.boolean true)
  let assignment : Stmt := .assign .none ⟨.none, "x"⟩ yes .assign
  let p : Program := ⟨[.declare .none "x" false yes, .block (.mk .none [.declare .none "x" true yes, assignment]),
    assignment], .null⟩
  have hp : Program.ofDocument none .null (.list [declarationDocument "const",
      nodeDocument "Block" [("body", .list [declarationDocument "let", assignmentDocument])],
      assignmentDocument]) = .ok p := rfl
  have hstraight : ∀ n ∈ p.nodes, n.IsStraight := by
    simp [p, assignment, yes, Program.nodes, statementNodes, Stmt.nodes, Block.nodes, Stmt.IsStraight, Stmt.exprs,
      Expr.nodes, Expr.IsStrict]
  have hfound : (Check.run p 1).hasErrors = true := rfl
  obtain ⟨e, hrun, he⟩ := check_error_fails hp hstraight (le_refl 1) hfound 0
  exact ⟨p, e, hp, hfound, hstraight, hrun, he⟩

end Check

end TreeScript
