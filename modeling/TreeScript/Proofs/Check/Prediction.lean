/-
A check foresees what a run can fail with. The run is followed along the tree: as long as it has not
failed, its scope agrees with the frames that the check has in the same place, and a failure
comes from a node that the check has looked at in such frames. A loop body runs any number of times, but
always in frames that agree with the ones it was checked in; a branch that is not taken is checked
nevertheless, and leaves the frames as they are. The check must not have stopped for its limit.
-/
import TreeScript.Proofs.Check.Foresight
import TreeScript.Proofs.Run.Outcome
import TreeScript.Proofs.Tree.Reading

namespace TreeScript.Check

variable {loops branches : Prop}

/-! ## Reports -/

/-- An error that is reported before the collector is full is there afterwards. -/
theorem State.reports_report {st : State} {f : Finding} {span : Span} (hf : f.isError)
    (hfull : (st.report f span).isFull = false) :
    (st.report f span).collector.Reports f.code f.message (some span) := by
  have hst : st.isFull = false := (st.walks_report f span).isFull_eq_false hfull
  rw [report, hst, Bool.and_false, if_neg Bool.false_ne_true]
  refine ⟨f.diagnostic span, ?_, hf, rfl, rfl, rfl⟩
  simp [Collector.add]

theorem State.foresees_report {st : State} {cause : Cause} {span : Span} (hc : cause.isWrongCall = false)
    (hfull : (st.report (.fault cause) span).isFull = false) :
    (st.report (.fault cause) span).collector.Foresees loops branches (cause.at span) :=
  .of_report (reports_report rfl hfull) hc

/-! ## Expressions -/

variable {scope : Scope} {st : State} {span : Span}

/-- A literal of a sound tree fails only if the check finds it malformed. -/
theorem literal_foreseen {l : Literal} (hl : l.WellFormed) (hfull : (st.literal l span).isFull = false) :
    Fails ((st.literal l span).collector.Foresees loops branches) (l.eval span) := by
  cases l with
  | integer s =>
    refine .placed ?_
    intro cause h
    cases hp : Integer.parse s with
    | ok n =>
      rw [hp] at h
      cases h
    | error fault =>
      rw [hp, Integer.parse_eq_error hp] at h
      cases h
      rw [State.literal, hp] at hfull ⊢
      exact State.foresees_report rfl hfull
  | text s => exact .ok _
  | boolean b => exact .ok _
  | mistyped d t => exact hl.elim

/-- Reading a name fails only if the check does not know it either. -/
theorem identifier_foreseen {name : String} (h : Agrees loops branches scope st)
    (hfull : (expr st (.identifier span name)).isFull = false) :
    Fails ((expr st (.identifier span name)).collector.Foresees loops branches)
      ((Expr.identifier span name).eval scope) := by
  rw [Expr.eval]
  refine .placed ?_
  intro cause hc
  obtain ⟨hnone, rfl⟩ := Scope.lookup_eq_error hc
  have hknown := h.resolve name
  rw [hnone] at hknown
  by_cases hr : (st.resolve? name).isSome
  · rw [expr, if_pos hr]
    exact .of_not_covered (fun hb => absurd (hknown.reached hb hr) Bool.false_ne_true) rfl
  · rw [expr, if_neg hr] at hfull ⊢
    exact State.foresees_report rfl hfull

/-- What the evaluation of an expression can fail with, the check of it has found. -/
theorem eval_foreseen {e : Expr} (hs : e.Sound) (h : Agrees loops branches scope st)
    (hfull : (expr st e).isFull = false) :
    Fails ((expr st e).collector.Foresees loops branches) (e.eval scope) := by
  induction e using Expr.induction generalizing st with
  | literal span l => exact literal_foreseen (Expr.sound_literal.mp hs) hfull
  | identifier span name => exact identifier_foreseen h hfull
  | binary span left op right ihLeft ihRight =>
    obtain ⟨-, hleft, hright⟩ := Expr.sound_binary.mp hs
    obtain ⟨m, hm⟩ := walks_expr left
    obtain ⟨n, hn⟩ := walks_expr right
    have hfails : Fails ((expr st (.binary span left op right)).collector.Foresees loops branches)
        (left.eval scope) :=
      Collector.fails_extend (ihLeft hleft h ((hn _).isFull_eq_false hfull)) (hn _).found
    have hfails' := ihRight hright (h.walk (hm st)) hfull
    rw [Expr.eval]
    split
    · exact hfails.propagate ‹_›
    · split
      · -- A logical operator may end with its left operand, which the check does not know.
        split
        · exact Fails.propagate (.placed fun cause hc => .of_values (Value.requireBoolean_error hc)) ‹_›
        · split
          · exact .ok _
          · split
            · exact hfails'.propagate ‹_›
            · exact .placed fun cause hc => .of_values (Value.requireBoolean_error (Value.map_error hc))
      · split
        · exact hfails'.propagate ‹_›
        · exact Value.binary_fails.imp fun e he => .of_values he
  | unary span op operand ih =>
    have hfails := ih (Expr.sound_unary.mp hs).2 h hfull
    rw [Expr.eval]
    split
    · exact hfails.propagate ‹_›
    · exact Value.unary_fails.imp fun e he => .of_values he
  | call span receiver method args _ _ =>
    obtain ⟨n, hn⟩ := walks_exprs fun e (_ : e ∈ args) => walks_expr e
    have hw := (State.walks_callee (st.report (.fault (.typeMismatch (.noValue (calleeName receiver method)))) span)
      receiver method span).step (hn _)
    have hreport := State.reports_report rfl (hw.isFull_eq_false hfull)
    rw [Expr.eval]
    exact .fail (.of_wrongCall rfl fun _ => ⟨_, hreport.extend hw.found⟩)
  | stray s =>
    rw [Expr.eval]
    exact .defect _

theorem evalAll_foreseen {args : List Expr} (hs : ∀ e ∈ args, e.Sound) (h : Agrees loops branches scope st)
    (hfull : (exprs st args).isFull = false) :
    Fails ((exprs st args).collector.Foresees loops branches) (Expr.evalAll scope args) := by
  induction args generalizing st with
  | nil => exact .ok _
  | cons e rest ih =>
    rw [List.forall_mem_cons] at hs
    obtain ⟨m, hm⟩ := walks_expr e
    obtain ⟨n, hn⟩ := walks_exprs fun e (_ : e ∈ rest) => walks_expr e
    rw [exprs] at hfull ⊢
    have hfails := eval_foreseen hs.1 h ((hn _).isFull_eq_false hfull)
    rw [Expr.evalAll]
    split
    · exact (Collector.fails_extend hfails (hn _).found).propagate ‹_›
    · exact (ih hs.2 (h.walk (hm st)) hfull).map

theorem condition_foreseen {statement : Branching} {e : Expr} (hs : e.Sound) (h : Agrees loops branches scope st)
    (hfull : (expr st e).isFull = false) :
    Fails ((expr st e).collector.Foresees loops branches) (e.condition statement scope) := by
  have hfails := eval_foreseen hs h hfull
  unfold Expr.condition
  split
  · exact hfails.propagate ‹_›
  · exact .ok _
  · exact .fail (.of_values rfl)

/-! ## Calls -/

/-- The check complains about a call of an object that is bound or lacks the method. -/
theorem callee_reports {receiverSpan : Span} {object method : String}
    (hunknown : (st.resolve? object).isSome ∨ Builtin.Registry.standard.method? object method = none)
    (hfull : (st.callee (.identifier receiverSpan object) method span).isFull = false) :
    ∃ message, (st.callee (.identifier receiverSpan object) method span).collector.Reports "E405" message
      (some span) := by
  have hknown : st.isKnownMethod (.identifier receiverSpan object) method = false := by
    unfold State.isKnownMethod
    rw [Bool.and_eq_false_iff]
    rcases hunknown with hbound | hmethod
    · left
      rwa [Option.isNone_eq_false_iff]
    · right
      rw [hmethod]
      rfl
  rw [State.callee, hknown, if_neg Bool.false_ne_true] at hfull ⊢
  exact ⟨_, State.reports_report rfl hfull⟩

/-! ## Steps of simple statements -/

/-- A name that cannot be assigned to is one that the check complains about. -/
theorem target_foreseen {name : String} (h : Agrees loops branches scope st)
    (hfull : (st.target name span).isFull = false) {cause : Cause} (hc : scope.currentForUpdate name = .error cause) :
    (st.target name span).collector.Foresees loops branches (cause.at span) := by
  have hknown := h.resolve name
  rw [State.target] at hfull ⊢
  rcases Scope.currentForUpdate_eq_error hc with ⟨hnone, rfl⟩ | ⟨hconst, rfl⟩
  · rw [hnone] at hknown
    cases hr : st.resolve? name with
    | none =>
      rw [hr] at hfull
      exact State.foresees_report rfl hfull
    | some m =>
      rw [hr] at hknown
      exact .of_not_covered (fun hb => absurd (hknown.reached hb rfl) Bool.false_ne_true) rfl
  · by_cases hr : st.resolve? name = some false
    · rw [hr] at hfull ⊢
      exact State.foresees_report rfl hfull
    · rw [hconst] at hknown
      exact .of_not_covered (fun hboth => absurd (hknown.same hboth.1 hboth.2).symm hr) rfl

theorem execDeclare_foreseen {name : String} {isMutable : Bool} {init : Option Expr} (hs : ∀ e ∈ init, e.Sound)
    (h : Agrees loops branches scope st) (hfull : (stmt st (.declare span name isMutable init)).isFull = false) :
    Fails ((stmt st (.declare span name isMutable init)).collector.Foresees loops branches)
      (scope.execDeclare span name isMutable init) := by
  rw [stmt] at hfull ⊢
  unfold Scope.execDeclare
  split
  · exact .fail (.of_values rfl)
  · rename_i e
    obtain ⟨n, hn⟩ := walks_expr e
    have hdeclare := State.walks_declare (expr st e) name isMutable span
    have hfails := eval_foreseen (hs e rfl) h (hdeclare.isFull_eq_false hfull)
    split
    · exact (Collector.fails_extend hfails hdeclare.found).propagate ‹_›
    · refine .placed ?_
      intro cause hc
      obtain ⟨hsome, rfl⟩ := Scope.declare_eq_error hc
      have hknown := (h.walk (hn st)).current name
      rw [optionalExpr, State.declare] at hfull ⊢
      by_cases hseen : ((expr st e).current.lookup name).isSome
      · rw [if_pos hseen] at hfull ⊢
        exact State.foresees_report rfl hfull
      · exact .of_not_covered (fun hl => absurd (hknown.checked hl hsome) hseen) rfl

theorem execAssign_foreseen {target : Target} {value : Expr} {op : Token} (hs : value.Sound)
    (htarget : target.span = span) (h : Agrees loops branches scope st)
    (hfull : (stmt st (.assign span target value op)).isFull = false) :
    Fails ((stmt st (.assign span target value op)).collector.Foresees loops branches)
      (scope.execAssign span target value op) := by
  subst htarget
  rw [stmt] at hfull ⊢
  obtain ⟨n, hn⟩ := walks_expr value
  have hwalk := State.walks_target (expr st value) target.name target.span
  have hvalue : Fails (((expr st value).target target.name target.span).collector.Foresees loops branches)
      (value.eval scope) :=
    Collector.fails_extend (eval_foreseen hs h (hwalk.isFull_eq_false hfull)) hwalk.found
  have hread (cause : Cause) (hc : scope.currentForUpdate target.name = .error cause) :=
    target_foreseen (h.walk (hn st)) hfull hc
  unfold Scope.execAssign
  split
  · split
    · exact hvalue.propagate ‹_›
    · exact .placed fun cause hc => hread cause (Scope.assign_eq_error hc)
  · split
    · exact .defect _
    · split
      · exact Fails.propagate (.placed fun cause hc => hread cause hc) ‹_›
      · split
        · exact hvalue.propagate ‹_›
        · split
          · exact Fails.propagate (.placed fun cause hc => .of_values (Value.arithmetic_error hc)) ‹_›
          · exact .placed fun cause hc => hread cause (Scope.assign_eq_error hc)

theorem execUpdate_foreseen {target : Target} {op : Token} (htarget : target.span = span)
    (h : Agrees loops branches scope st) (hfull : (stmt st (.update span target op)).isFull = false) :
    Fails ((stmt st (.update span target op)).collector.Foresees loops branches)
      (scope.execUpdate span target op) := by
  subst htarget
  rw [stmt] at hfull ⊢
  have hread (cause : Cause) (hc : scope.currentForUpdate target.name = .error cause) := target_foreseen h hfull hc
  unfold Scope.execUpdate
  split
  · exact Fails.propagate (.placed fun cause hc => hread cause hc) ‹_›
  · split
    · exact .placed fun cause hc => hread cause (Scope.assign_eq_error hc)
    · exact .placed fun cause hc => hread cause (Scope.assign_eq_error hc)
    · exact .defect _
  · exact .fail (.of_values rfl)

theorem outputRecord_foreseen {level : Level} {argument : Expr} (hs : argument.Sound)
    (h : Agrees loops branches scope st) (hfull : (expr st argument).isFull = false) :
    Fails ((expr st argument).collector.Foresees loops branches) (scope.outputRecord level argument) := by
  have hlevel : Fails ((expr st argument).collector.Foresees loops branches) level.severity := by
    unfold Level.severity
    split
    · exact .ok _
    · split
      · exact .ok _
      · exact .defect _
  unfold Scope.outputRecord
  split
  · exact hlevel.propagate ‹_›
  · exact (eval_foreseen hs h hfull).map

/-! ## Statements -/

/-- A run that has come to where the check is, or that has failed in a way which the findings foretell. -/
def Follows (loops branches : Prop) (check : State) (found : Collector) (o : Outcome) : Prop :=
  o.Ends (fun run => Agrees loops branches run.scope check ∧ run.Quiet)
    fun f run => ∀ e, f = .error e → found.Foretells loops branches run e

section

variable {check check' : State} {found found' : Collector} {run : TreeScript.State} {n : Nat}

theorem Follows.extend {o : Outcome} (h : Follows loops branches check found o) (he : found.Extends n found') :
    Follows loops branches check found' o :=
  Outcome.Ends.imp h (fun _ hgood => hgood) fun _ _ hbad e hf => (hbad e hf).extend he

theorem Follows.move {o : Outcome} (h : Follows loops branches check found o)
    (hcheck : ∀ scope, Agrees loops branches scope check → Agrees loops branches scope check') :
    Follows loops branches check' found o :=
  Outcome.Ends.imp h (fun _ hgood => ⟨hcheck _ hgood.1, hgood.2⟩) fun _ _ hbad => hbad

/-- A step that fails in a quiet state. -/
theorem foretells_of_fails {α : Type} {step : Except Failure α} (hquiet : run.Quiet)
    (hfails : Fails (found.Foresees loops branches) step) :
    ∀ f, step = .error f → ∀ e, f = .error e → found.Foretells loops branches run e := by
  rintro f hstep e rfl
  exact (hfails e hstep).foretells hquiet

/-- A step that changes the scope, in a quiet state. -/
theorem rescope_follows {step : Except Failure Scope} (hquiet : run.Quiet)
    (hfails : Fails (found.Foresees loops branches) step)
    (hok : ∀ scope, step = .ok scope → Agrees loops branches scope check) :
    Follows loops branches check found (run.rescope step) :=
  State.ends_rescope (fun scope h => ⟨hok scope h, hquiet⟩) (foretells_of_fails hquiet hfails)

/-- A step that changes the log at most. -/
theorem emitIfAny_follows {step : Except Failure (Option Record)} (hquiet : run.Quiet)
    (hfails : Fails (found.Foresees loops branches) step) (hcheck : Agrees loops branches run.scope check) :
    Follows loops branches check found (run.emitIfAny step) :=
  State.ends_emitIfAny (fun _ => ⟨hcheck, hquiet⟩) (fun r _ => ⟨hcheck, hquiet.emit r⟩)
    (foretells_of_fails hquiet hfails)

theorem Follows.andThen {o : Outcome} {next : TreeScript.State → Outcome} (h : Follows loops branches check' found o)
    (hnext : ∀ run, Agrees loops branches run.scope check' → run.Quiet →
      Follows loops branches check found (next run)) :
    Follows loops branches check found (o.andThen next) :=
  Outcome.ends_andThen h fun run hrun => hnext run hrun.1 hrun.2

theorem Follows.inFrame {name : String} {body : TreeScript.State → Outcome}
    (h : Follows loops branches check found (body (run.push name))) :
    Follows loops branches check.pop found (Outcome.inFrame name body run) :=
  Outcome.ends_inFrame (Outcome.Ends.imp h (fun _ hgood => ⟨hgood.1.pop, hgood.2⟩) fun _ _ hbad e he =>
    -- Closing a frame leaves the log alone.
    ⟨(hbad e he).receiver, (hbad e he).other⟩)

/-- A call that stands as a statement. -/
theorem call_follows {receiverSpan callSpan : Span} {object method : String} {args : List Expr}
    (hargs : ∀ e ∈ args, e.Sound) (h : Agrees loops branches run.scope check)
    (hfull : (effect check (.call callSpan (.identifier receiverSpan object) method args)).isFull = false) :
    Follows loops branches (effect check (.call callSpan (.identifier receiverSpan object) method args))
      (effect check (.call callSpan (.identifier receiverSpan object) method args)).collector
      ((run.visit (.expression span (.call callSpan (.identifier receiverSpan object) method args))).emitIfAny
        (run.scope.expressionRecord (.call callSpan (.identifier receiverSpan object) method args))) := by
  obtain ⟨n, hn⟩ := walks_effect (.call callSpan (.identifier receiverSpan object) method args)
  obtain ⟨k, hk⟩ := walks_exprs fun e (_ : e ∈ args) => walks_expr e
  have hcallee := State.walks_callee check (.identifier receiverSpan object) method callSpan
  have hfullCallee := (hk _).isFull_eq_false hfull
  -- Whatever is wrong with the call, the check looks the method up before the arguments.
  have hreports (hunknown : (check.resolve? object).isSome ∨ Builtin.Registry.standard.method? object method = none) :
      ∃ message, (effect check (.call callSpan (.identifier receiverSpan object) method args)).collector.Reports
        "E405" message (some callSpan) := by
    obtain ⟨message, hreport⟩ := callee_reports hunknown hfullCallee
    exact ⟨message, hreport.extend (hk _).found⟩
  rw [Scope.expressionRecord]
  rcases Expr.callRecord_cases run.scope callSpan receiverSpan object method args with
    ⟨hobject, hrecord⟩ | ⟨hunknown, hrecord⟩ | ⟨m, hm, hrecord⟩
  · -- The receiver is not defined, so the check knows no method of it.
    have hmethod : Builtin.Registry.standard.method? object method = none := by
      by_contra hsome
      obtain ⟨m, hm⟩ := Option.ne_none_iff_exists'.mp hsome
      rw [Builtin.Registry.hasObject_of_method? hm] at hobject
      cases hobject
    rw [hrecord]
    rintro e ⟨⟩
    exact Collector.foretells_receiver hobject (hreports (.inr hmethod))
  · -- A variable hides the object, or the object lacks the method.
    rw [hrecord]
    rintro e ⟨⟩
    refine Collector.Foresees.foretells_of_wrongCall (.of_wrongCall rfl fun hl => ?_) rfl
    apply hreports
    refine hunknown.imp_left fun hdefined => (h.resolve object).checked hl ?_
    rwa [Scope.isDefined_eq] at hdefined
  · have hquiet :
        (run.visit (.expression span (.call callSpan (.identifier receiverSpan object) method args))).Quiet := by
      apply State.quiet_visit
      rintro _ ⟨⟩
      exact Builtin.Registry.hasObject_of_method? hm
    rw [hrecord]
    exact emitIfAny_follows hquiet (evalAll_foreseen hargs (h.walk hcallee) hfull).map.map (h.walk (hn check))

/-- An expression that stands as a statement. -/
theorem expression_follows {e : Expr} (span : Span) (hs : e.Sound) (h : Agrees loops branches run.scope check)
    (hfull : (effect check e).isFull = false) :
    Follows loops branches (effect check e) (effect check e).collector
      ((run.visit (.expression span e)).emitIfAny (run.scope.expressionRecord e)) := by
  cases e with
  | call callSpan receiver method args =>
    obtain ⟨⟨⟨object, rfl, -⟩, -⟩, hargs⟩ := Expr.sound_call.mp hs
    exact call_follows hargs h hfull
  | _ =>
    obtain ⟨n, hn⟩ := walks_effect _
    exact emitIfAny_follows (State.quiet_visit_of_object? rfl)
      ((eval_foreseen hs h hfull).map (f := fun _ => none)) (h.walk (hn check))

/-- Running a statement comes to where checking it does, from wherever the two agree. -/
def Followed (loops branches : Prop) (limit : Nat) (s : Stmt) : Prop :=
  ∀ run check, Agrees loops branches run.scope check → run.Quiet → (stmt check s).isFull = false →
    Follows loops branches (stmt check s) (stmt check s).collector (s.exec limit run)

theorem execAll_follows {limit : Nat} {statements : List Stmt}
    (hs : ∀ s ∈ statements, Followed loops branches limit s) (h : Agrees loops branches run.scope check)
    (hquiet : run.Quiet) (hfull : (stmts check statements).isFull = false) :
    Follows loops branches (stmts check statements) (stmts check statements).collector
      (execAll limit statements run) := by
  induction statements generalizing run check with
  | nil => exact ⟨h, hquiet⟩
  | cons s rest ih =>
    rw [List.forall_mem_cons] at hs
    obtain ⟨n, hn⟩ := walks_stmts fun s (_ : s ∈ rest) => walks_stmt s
    obtain ⟨d, hd⟩ := hn (stmt check s)
    rw [stmts] at hfull ⊢
    split at hfull
    · rename_i hcheck
      rw [hcheck] at hfull
      cases hfull
    · rename_i hcheck
      rw [if_neg hcheck]
      have hfirst := hs.1 run check h hquiet (hd.isFull_eq_false hfull)
      exact ends_execAll_cons (hfirst.extend hd.found) fun st hst =>
        ih hs.2 hst.1 hst.2 hfull

/-- A block in a frame of its own, whatever the frame is called. -/
theorem block_follows {limit : Nat} {body : Block} (hs : ∀ s ∈ body.statements, Followed loops branches limit s)
    (name : String) (h : Agrees loops branches run.scope check) (hquiet : run.Quiet)
    (hfull : (block check body).isFull = false) :
    Follows loops branches (block check body) (block check body).collector
      (Outcome.inFrame name (body.exec limit) run) := by
  cases body with
  | mk span statements =>
    rw [block] at hfull ⊢
    rw [State.isFull, State.collector_pop] at hfull
    rw [State.collector_pop]
    exact .inFrame (execAll_follows hs (h.push name) hquiet hfull)

theorem optional_follows {limit : Nat} {s? : Option Stmt} (hs : ∀ s ∈ s?, Followed loops branches limit s)
    (h : Agrees loops branches run.scope check) (hquiet : run.Quiet)
    (hfull : (optionalStmt check s?).isFull = false) :
    Follows loops branches (optionalStmt check s?) (optionalStmt check s?).collector (execOptional limit s? run) := by
  cases s? with
  | none => exact ⟨h, hquiet⟩
  | some s => exact hs s rfl run check h hquiet hfull

/-- The other branch of a condition, which is a block in a frame of its own or a statement as it stands. -/
theorem else_follows {limit : Nat} {s? : Option Stmt} (hs : ∀ s ∈ s?, Followed loops branches limit s)
    (hblock : ∀ body, .block body ∈ s? → ∀ s ∈ body.statements, Followed loops branches limit s)
    (h : Agrees loops branches run.scope check) (hquiet : run.Quiet)
    (hfull : (optionalStmt check s?).isFull = false) :
    Follows loops branches (optionalStmt check s?) (optionalStmt check s?).collector (execElse limit s? run) := by
  cases s? with
  | none => exact ⟨h, hquiet⟩
  | some s =>
    cases s with
    | block body => exact block_follows (hblock body rfl) "else" h hquiet hfull
    | _ => exact hs _ rfl run check h hquiet hfull

/-- The test of a loop; without a condition it cannot fail. -/
theorem loopTest_foreseen {statement : Branching} {test : Option Expr} (span : Span) (hs : ∀ e ∈ test, e.Sound)
    (h : Agrees loops branches run.scope check) (hfull : (loopTest check span test).isFull = false) :
    Fails ((loopTest check span test).collector.Foresees loops branches)
      (TreeScript.State.loopTest statement test run) := by
  cases test with
  | none => exact .ok _
  | some e => exact condition_foreseen (hs e rfl) h hfull

/-! ### Loops and conditions -/

variable {limit : Nat} {body : Block}

theorem whileLoop_followed {test : Expr} (htest : test.Sound)
    (hbody : ∀ s ∈ body.statements, Followed loops branches limit s) :
    Followed loops branches limit (.whileLoop span test body) := by
  intro run check h hquiet hfull
  obtain ⟨m, hm⟩ := walks_expr test
  obtain ⟨n, hn⟩ := walks_block fun s (_ : s ∈ body.statements) => walks_stmt s
  have hwalk := (hm check).step (hn _)
  have hback {scope : Scope} (hscope : Agrees loops branches scope (stmt check (.whileLoop span test body))) :
      Agrees loops branches scope check :=
    hscope.back hwalk fun _ => rfl
  rw [stmt] at hfull hback ⊢
  have htestFull := (hn _).isFull_eq_false hfull
  -- All along the loop the frames are those that the check began in.
  refine Outcome.ends_loop limit ?_ ?_ ⟨h.walk hwalk, State.quiet_visit_of_object? rfl⟩
  · intro st hst _
    exact block_follows hbody _ ((hback hst.1).walk (hm check)) hst.2 hfull
  · intro st f hst
    refine foretells_of_fails hst.2 (Collector.fails_extend ?_ (hn _).found) f
    exact condition_foreseen htest (hback hst.1) htestFull

/-- The passes of a loop keep to the frames that its test was checked in, and end there. -/
theorem passes_follow {test : Option Expr} {update : Option Stmt} {atTest : State} (htest : ∀ e ∈ test, e.Sound)
    (hupdate : ∀ s ∈ update, Followed loops branches limit s)
    (hbody : ∀ s ∈ body.statements, Followed loops branches limit s)
    (hsteady : loops → update.bind Stmt.declared? = none) (h : Agrees loops branches run.scope atTest)
    (hquiet : run.Quiet)
    (hfull : (optionalStmt (block (loopTest atTest span test) body) update).isFull = false) :
    Follows loops branches atTest (optionalStmt (block (loopTest atTest span test) body) update).collector
      (Outcome.loop (TreeScript.State.loopTest .forLoop test)
        (fun st => (Outcome.inFrame "for-body" (body.exec limit) st).andThen (execOptional limit update)) limit run) := by
  obtain ⟨l, hl⟩ := walks_loopTest span test
  obtain ⟨m, hm⟩ := walks_block fun s (_ : s ∈ body.statements) => walks_stmt s
  obtain ⟨n, hn⟩ := walks_optionalStmt fun s (_ : s ∈ update) => walks_stmt s
  have hpass := (hl atTest).step ((hm _).step (hn _))
  have hfullUpdate := (hn _).isFull_eq_false hfull
  have hfullBody := (hm _).isFull_eq_false hfullUpdate
  refine Outcome.ends_loop limit ?_ ?_ ⟨h, hquiet⟩
  · intro st hst _
    have hrun := block_follows hbody "for-body" (hst.1.walk (hl atTest)) hst.2 hfullUpdate
    refine (hrun.extend (hn _).found).andThen ?_
    intro st hscope hst
    -- What goes on after the body may not declare, so the pass ends where it began.
    refine (optional_follows hupdate hscope hst hfull).move ?_
    intro scope hscope
    exact hscope.back hpass hsteady
  · intro st f hst
    refine foretells_of_fails hst.2 (Collector.fails_extend ?_ ((hm _).found.trans (hn _).found)) f
    exact loopTest_foreseen span htest hst.1 hfullBody

theorem forLoop_followed {init update : Option Stmt} {test : Option Expr}
    (hinit : ∀ s ∈ init, Followed loops branches limit s) (htest : ∀ e ∈ test, e.Sound)
    (hupdate : ∀ s ∈ update, Followed loops branches limit s)
    (hbody : ∀ s ∈ body.statements, Followed loops branches limit s)
    (hsteady : loops → update.bind Stmt.declared? = none) :
    Followed loops branches limit (.forLoop span init test update body) := by
  intro run check h hquiet hfull
  obtain ⟨k, hk⟩ := walks_optionalStmt fun s (_ : s ∈ init) => walks_stmt s
  obtain ⟨l, hl⟩ := walks_loopTest span test
  obtain ⟨m, hm⟩ := walks_block fun s (_ : s ∈ body.statements) => walks_stmt s
  obtain ⟨n, hn⟩ := walks_optionalStmt fun s (_ : s ∈ update) => walks_stmt s
  rw [stmt] at hfull ⊢
  rw [State.isFull, State.collector_pop] at hfull
  rw [State.collector_pop]
  have hpass := (hl (optionalStmt check.push init)).step ((hm _).step (hn _))
  have hvisited : (run.visit (.forLoop span init test update body)).Quiet := State.quiet_visit_of_object? rfl
  have hfirst : Follows loops branches (optionalStmt check.push init) (optionalStmt check.push init).collector
      (execOptional limit init ((run.visit (.forLoop span init test update body)).push "for-loop")) :=
    optional_follows hinit (h.push "for-loop") hvisited (hpass.isFull_eq_false hfull)
  rw [Stmt.exec]
  -- The frame of the loop is closed after the last pass, and the frames outside are as they were.
  have hrun := (hfirst.extend hpass.found).andThen fun st hscope hst =>
    passes_follow htest hupdate hbody hsteady hscope hst hfull
  refine Follows.move (.inFrame hrun) ?_
  intro scope hscope
  exact (hscope.back (hk check.push).inFrame fun _ => rfl).walk ((hk check.push).trans hpass).inFrame

theorem ifElse_followed {test : Expr} {thenBranch : Block} {elseBranch : Option Stmt} (htest : test.Sound)
    (hthen : ∀ s ∈ thenBranch.statements, Followed loops branches limit s)
    (helse : ∀ s ∈ elseBranch, Followed loops branches limit s)
    (hblock : ∀ body, .block body ∈ elseBranch → ∀ s ∈ body.statements, Followed loops branches limit s)
    (hsteady : branches → elseBranch.bind Stmt.declared? = none) :
    Followed loops branches limit (.ifElse span test thenBranch elseBranch) := by
  intro run check h hquiet hfull
  obtain ⟨l, hl⟩ := walks_expr test
  obtain ⟨m, hm⟩ := walks_block fun s (_ : s ∈ thenBranch.statements) => walks_stmt s
  obtain ⟨n, hn⟩ := walks_optionalStmt fun s (_ : s ∈ elseBranch) => walks_stmt s
  rw [stmt] at hfull ⊢
  have hfullElse := (hn _).isFull_eq_false hfull
  have hfails : Fails ((expr check test).collector.Foresees loops branches) (test.condition .ifStatement run.scope) :=
    condition_foreseen htest h ((hm _).isFull_eq_false hfullElse)
  rw [Stmt.exec]
  have hvisited : (run.visit (.ifElse span test thenBranch elseBranch)).Quiet := State.quiet_visit_of_object? rfl
  have htested : Agrees loops branches (run.visit (.ifElse span test thenBranch elseBranch)).scope (expr check test) :=
    h.walk (hl check)
  split
  · rename_i f hf
    exact foretells_of_fails hvisited (Collector.fails_extend hfails ((hm _).found.trans (hn _).found)) f hf
  · -- The check goes on with the other branch, which the run skips.
    refine ((block_follows hthen "if-then" htested hvisited hfullElse).extend (hn _).found).move ?_
    intro scope hscope
    exact hscope.skip (hn _) hsteady
  · exact else_follows helse hblock (htested.walk (hm _)) hvisited hfull

/-! ### The whole tree -/

/-- What is asked of each node: it comes from a document, and it is steady as far as that matters. -/
structure Regular (loops branches : Prop) (s : Stmt) : Prop where
  sound : s.SoundNode
  loop : loops → s.SteadyLoop
  branch : branches → s.SteadyBranch

/-- Running any statement comes to where checking it does. -/
theorem exec_follows (limit : Nat) {s : Stmt} (hs : s.All (Regular loops branches)) :
    Followed loops branches limit s := by
  induction s using Stmt.induction with
  | declare span name isMutable init =>
    intro run check h _ hfull
    obtain ⟨n, hn⟩ := walks_optionalExpr init
    have hinit : ∀ e ∈ init, e.Sound := fun e he => hs.self.sound.1 e (Option.mem_toList.mpr he)
    refine rescope_follows (State.quiet_visit_of_object? rfl) (execDeclare_foreseen hinit h hfull) fun scope hok => ?_
    obtain ⟨_, v, -, -, hv⟩ := Scope.execDeclare_eq_ok hok
    exact (h.walk (hn check)).declare span hv
  | assign span target value op =>
    intro run check h _ hfull
    obtain ⟨n, hn⟩ := walks_expr value
    have hvalue : value.Sound := hs.self.sound.1 value (List.mem_singleton_self _)
    refine rescope_follows (State.quiet_visit_of_object? rfl)
      (execAssign_foreseen hvalue hs.self.sound.2.1 h hfull) fun scope hok => ?_
    obtain ⟨v, hv⟩ := Scope.execAssign_eq_ok hok
    rw [Scope.assign_eq_ok hv]
    exact ((h.walk (hn check)).walk (State.walks_target _ _ _)).set target.name v
  | update span target op =>
    intro run check h _ hfull
    refine rescope_follows (State.quiet_visit_of_object? rfl)
      (execUpdate_foreseen hs.self.sound.2.1 h hfull) fun scope hok => ?_
    obtain ⟨v, hv⟩ := Scope.execUpdate_eq_ok hok
    rw [Scope.assign_eq_ok hv]
    exact (h.walk (State.walks_target _ _ _)).set target.name v
  | output span level argument =>
    intro run check h _ hfull
    obtain ⟨n, hn⟩ := walks_expr argument
    have hargument : argument.Sound := hs.self.sound.1 argument (List.mem_singleton_self _)
    exact emitIfAny_follows (State.quiet_visit_of_object? rfl)
      (outputRecord_foreseen hargument h hfull).map (h.walk (hn check))
  | expression span e =>
    intro run check h _ hfull
    exact expression_follows span (hs.self.sound.1 e (List.mem_singleton_self _)) h hfull
  | block body ih =>
    intro run check h _ hfull
    have hbody := fun s hm => ih s hm ((Stmt.all_block.mp hs).2 s hm)
    exact block_follows hbody "block" h (State.quiet_visit_of_object? rfl) hfull
  | forLoop span init test update body ihInit ihUpdate ihBody =>
    obtain ⟨-, ⟨hinit, hupdate⟩, hbody⟩ := Stmt.all_forLoop.mp hs
    have htest : ∀ e ∈ test, e.Sound := fun e he => hs.self.sound.1 e (Option.mem_toList.mpr he)
    exact forLoop_followed (fun s hm => ihInit s hm (hinit s hm)) htest
      (fun s hm => ihUpdate s hm (hupdate s hm)) (fun s hm => ihBody s hm (hbody s hm)) hs.self.loop
  | whileLoop span test body ih =>
    obtain ⟨-, hbody⟩ := Stmt.all_whileLoop.mp hs
    have htest : test.Sound := hs.self.sound.1 test (List.mem_singleton_self _)
    exact whileLoop_followed htest fun s hm => ih s hm (hbody s hm)
  | ifElse span test thenBranch elseBranch ihThen ihElse ihBlock =>
    obtain ⟨-, hthen, helse⟩ := Stmt.all_ifElse.mp hs
    have htest : test.Sound := hs.self.sound.1 test (List.mem_singleton_self _)
    refine ifElse_followed htest (fun s hm => ihThen s hm (hthen s hm)) (fun s hm => ihElse s hm (helse s hm))
      (fun body hb s hm => ?_) hs.self.branch
    exact ihBlock body hb s hm ((Stmt.all_block.mp (helse _ hb)).2 s hm)
  | stray e => exact hs.self.sound.2.elim

end

/-! ## Programs -/

/-- What a program fails with, its check foretells, if the limit on errors was not reached. -/
theorem run_foretold {p : Program} {maxErrors : Int} (hs : ∀ s ∈ p.statements, s.All (Regular loops branches))
    (hfull : (Check.run p maxErrors).isFull = false) (limit : Nat) {e : Error}
    (he : (p.run limit).ending = .error e) :
    (Check.run p maxErrors).Foretells loops branches (p.run limit).final e := by
  have hfollows := execAll_follows (fun s hm => exec_follows limit (hs s hm)) (Agrees.fresh maxErrors)
    State.quiet_fresh hfull
  rw [Program.run, Program.exec] at he ⊢
  cases ho : execAll limit p.statements .fresh with
  | finished st =>
    rw [ho] at he
    cases he
  | failed f st =>
    rw [ho] at he hfollows
    cases f with
    | error e' =>
      cases he
      exact hfollows e rfl
    | defect d => cases he
  | unfinished =>
    rw [ho] at he
    cases he

end TreeScript.Check
