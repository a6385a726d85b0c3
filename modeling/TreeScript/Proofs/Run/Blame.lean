/-
Which nodes errors are about. An error of a program that a document gives names a place, and there is a node at that
place which can have the error: a literal with the text that is no number, a statement or an expression with the name
that is at fault, a division, or a node with the operator, the condition or the call that does not fit its values.
-/
import TreeScript.Proofs.Run.Rule
import TreeScript.Proofs.Run.Evaluate
import TreeScript.Proofs.Tree.Names
import TreeScript.Proofs.Tree.Reading

namespace TreeScript

/-! ## Nodes at fault -/

namespace Program

/-- The expressions of a program, at any depth. -/
def exprNodes (p : Program) : List Expr := p.nodes.flatMap fun s => s.exprs.flatMap Expr.nodes

/-- There is an assignment or an update of a name at a place. -/
def Targets (p : Program) (span : Span) (name : String) : Prop := ∃ s ∈ p.nodes, s.span = span ∧ s.target? = some name

/-- There is a call at a place that is referred to by this name. -/
def Calls (p : Program) (span : Span) (callee : String) : Prop :=
  ∃ receiver method args, .call span receiver method args ∈ p.exprNodes ∧ calleeName receiver method = callee

/-- There is a node at a place whose values can be of the wrong kind in this way. -/
def Misfits (p : Program) (span : Span) : Mismatch → Prop
  | .noInitializer isMutable name => .declare span name isMutable none ∈ p.nodes
  | .updateOperand op name _ => ∃ target : Target, target.name = name ∧ .update span target op ∈ p.nodes
  | .condition statement _ => ∃ s ∈ p.nodes, ∃ test, s.condition? = some (statement, test) ∧ test.span = span
  | .equality op _ _ => ∃ left right, .binary span left op right ∈ p.exprNodes
  | .integerOperands op _ _ => (∃ left right, .binary span left op right ∈ p.exprNodes) ∨
      ∃ target value op', .assign span target value op' ∈ p.nodes ∧ op'.compound? = some op
  | .booleanOperands op _ => (∃ left right, .binary span left op right ∈ p.exprNodes) ∨
      ∃ operand, .unary span op operand ∈ p.exprNodes
  | .negation _ => ∃ operand, .unary span .minus operand ∈ p.exprNodes
  | .noValue callee => p.Calls span callee
  | .notFunction callee => p.Calls span callee
  | .described .. => False

/-- There is a node at a place that can be at fault for a cause. -/
def Blames (p : Program) (span : Span) : Cause → Prop
  | .document _ => False
  | .malformedLiteral text => .literal span (.integer text) ∈ p.exprNodes
  | .redeclaration name => ∃ isMutable init, .declare span name isMutable init ∈ p.nodes
  | .undefinedVariable name => .identifier span name ∈ p.exprNodes ∨ p.Targets span name ∨
      ∃ method args, .call span (.identifier span name) method args ∈ p.exprNodes
  | .immutableAssignment name => p.Targets span name
  | .typeMismatch mismatch => p.Misfits span mismatch
  | .divisionByZero => ∃ left op right, .binary span left op right ∈ p.exprNodes ∧ (op = .slash ∨ op = .percent)

/-- An error has a place, and a node is there that can be at fault for it. -/
def Accounts (p : Program) (e : Error) : Prop := ∃ span, e.span = some span ∧ p.Blames span e.cause

variable {p : Program} {span : Span}

theorem accounts_at {cause : Cause} (h : p.Blames span cause) : p.Accounts (cause.at span) := ⟨span, rfl, h⟩

/-- The expressions in a statement of a program are nodes of the program. -/
theorem mem_exprNodes {s : Stmt} (hs : s ∈ p.nodes) {e : Expr} (he : e ∈ s.exprs) : ∀ n ∈ e.nodes, n ∈ p.exprNodes := by
  intro n hn
  exact List.mem_flatMap.mpr ⟨s, hs, List.mem_flatMap.mpr ⟨e, he, hn⟩⟩

end Program

/-! ## Expressions -/

section

variable {p : Program} {scope : Scope} {span : Span}

/-- A binary operator is at fault for what it complains about. -/
theorem Value.binary_accounted {op : Token} {left right : Expr} (h : .binary span left op right ∈ p.exprNodes)
    (a b : Value) : Fails p.Accounts (binary span op a b) := by
  unfold binary
  split
  · rename_i harith
    apply Fails.placed
    intro cause hc
    apply Program.accounts_at
    obtain rfl | ⟨rfl, hop⟩ := arithmetic_eq_error hc
    · exact .inl ⟨left, right, h⟩
    · refine ⟨left, op, right, h, ?_⟩
      -- Only the operators that divide are left.
      cases op <;> simp [Token.isArithmetic] at harith hop ⊢
  · have hequal {x : Except Cause Bool} {f : Bool → Value} (hx : x = equal op a b) :
        Fails p.Accounts (placed span (x.map f)) := by
      apply Fails.placed
      intro cause hc
      rw [hx] at hc
      rw [equal_eq_error (map_error hc)]
      exact Program.accounts_at ⟨left, right, h⟩
    have hordered : Fails p.Accounts (placed span ((ordered op a b).map boolean)) := by
      apply Fails.placed
      intro cause hc
      rw [ordered_eq_error (map_error hc)]
      exact Program.accounts_at (.inl ⟨left, right, h⟩)
    split
    · exact hequal rfl
    · exact hequal rfl
    · exact hordered
    · exact hordered
    · exact hordered
    · exact hordered
    · exact .defect _

theorem Value.unary_accounted {op : Token} {operand : Expr} (h : .unary span op operand ∈ p.exprNodes) (v : Value) :
    Fails p.Accounts (unary span op v) := by
  unfold unary
  split
  · split
    · exact .ok _
    · exact .fail (Program.accounts_at ⟨operand, h⟩)
  · apply Fails.placed
    intro cause hc
    rw [requireBoolean_eq_error (map_error hc)]
    exact Program.accounts_at (.inr ⟨operand, h⟩)
  · exact .defect _

theorem Literal.eval_accounted {l : Literal} (hl : l.WellFormed) (h : .literal span l ∈ p.exprNodes) :
    Fails p.Accounts (l.eval span) := by
  cases l with
  | integer text =>
    apply Fails.placed
    intro cause hc
    rw [Integer.eq_of_fault (fun _ => Integer.parse_eq_error) hc]
    exact Program.accounts_at h
  | text s => exact .ok _
  | boolean b => exact .ok _
  | mistyped d claimed => cases hl

/-- A part of an expression is at fault for each error that its evaluation ends in. -/
theorem Expr.eval_accounted {e : Expr} (he : e.Sound) (hnodes : ∀ n ∈ e.nodes, n ∈ p.exprNodes) :
    Fails p.Accounts (e.eval scope) := by
  induction e using Expr.induction with
  | literal span l =>
    rw [eval]
    exact Literal.eval_accounted (sound_literal.mp he) (hnodes _ (List.mem_singleton_self _))
  | identifier span name =>
    rw [eval]
    apply Fails.placed
    intro cause hc
    rw [(Scope.lookup_eq_error hc).2]
    exact Program.accounts_at (.inl (hnodes _ (List.mem_singleton_self _)))
  | binary span left op right ihLeft ihRight =>
    obtain ⟨-, hleft, hright⟩ := sound_binary.mp he
    rw [nodes, List.forall_mem_cons, List.forall_mem_append] at hnodes
    obtain ⟨hself, hnodesLeft, hnodesRight⟩ := hnodes
    have hrequire (v : Value) {cause : Cause} (hc : v.requireBoolean op = .error cause) :
        p.Accounts (cause.at span) := by
      rw [Value.requireBoolean_eq_error hc]
      exact Program.accounts_at (.inl ⟨left, right, hself⟩)
    rw [eval]
    split
    · exact (ihLeft hleft hnodesLeft).propagate ‹_›
    · split
      · split
        · exact Fails.propagate (.placed fun _ => hrequire _) ‹_›
        · split
          · exact .ok _
          · split
            · exact (ihRight hright hnodesRight).propagate ‹_›
            · exact .placed fun _ hc => hrequire _ (Value.map_error hc)
      · split
        · exact (ihRight hright hnodesRight).propagate ‹_›
        · exact Value.binary_accounted hself _ _
  | unary span op operand ih =>
    obtain ⟨-, hoperand⟩ := sound_unary.mp he
    rw [nodes, List.forall_mem_cons] at hnodes
    rw [eval]
    split
    · exact (ih hoperand hnodes.2).propagate ‹_›
    · exact Value.unary_accounted hnodes.1 _
  | call span receiver method args _ _ =>
    rw [nodes, List.forall_mem_cons] at hnodes
    rw [eval]
    exact .fail (Program.accounts_at ⟨receiver, method, args, hnodes.1, rfl⟩)
  | stray s =>
    rw [eval]
    exact .defect _

theorem Expr.evalAll_accounted {args : List Expr} (hargs : ∀ e ∈ args, e.Sound)
    (hnodes : ∀ e ∈ args, ∀ n ∈ e.nodes, n ∈ p.exprNodes) : Fails p.Accounts (evalAll scope args) := by
  induction args with
  | nil => exact .ok _
  | cons e rest ih =>
    rw [List.forall_mem_cons] at hargs hnodes
    rw [evalAll]
    split
    · exact (eval_accounted hargs.1 hnodes.1).propagate ‹_›
    · exact (ih hargs.2 hnodes.2).map

/-- The receiver of a call is at the place of the call. -/
theorem Expr.callRecord_accounted {receiver : Expr} {method : String} {args : List Expr}
    (he : (call span receiver method args).Sound)
    (hnodes : ∀ n ∈ (call span receiver method args).nodes, n ∈ p.exprNodes) :
    Fails p.Accounts (callRecord scope span receiver method args) := by
  obtain ⟨⟨⟨object, rfl, -⟩, -⟩, hargs⟩ := sound_call.mp he
  rw [nodes, List.forall_mem_cons, forall_argNodes] at hnodes
  obtain ⟨hself, hnodesArgs⟩ := hnodes
  obtain ⟨-, h⟩ | ⟨-, h⟩ | ⟨m, -, h⟩ := callRecord_cases scope span span object method args
  · rw [h]
    exact .fail (Program.accounts_at (.inr (.inr ⟨method, args, hself⟩)))
  · rw [h]
    exact .fail (Program.accounts_at ⟨_, method, args, hself, rfl⟩)
  · rw [h]
    exact (evalAll_accounted hargs hnodesArgs).map

theorem Expr.condition_accounted {s : Stmt} (hs : s ∈ p.nodes) {statement : Branching} {test : Expr}
    (htest : s.condition? = some (statement, test)) (he : test.Sound)
    (hnodes : ∀ n ∈ test.nodes, n ∈ p.exprNodes) : Fails p.Accounts (test.condition statement scope) := by
  unfold condition
  split
  · exact (eval_accounted he hnodes).propagate ‹_›
  · exact .ok _
  · exact .fail (Program.accounts_at ⟨s, hs, test, htest, rfl⟩)

/-! ## Simple statements -/

/-- An assignment or an update is at fault if its target is not there or may not be changed. -/
theorem Scope.target_accounted {name : String} {cause : Cause} (h : p.Targets span name)
    (hc : scope.currentForUpdate name = .error cause) : p.Accounts (cause.at span) := by
  obtain ⟨-, rfl⟩ | ⟨-, rfl⟩ := currentForUpdate_eq_error hc
  · exact Program.accounts_at (.inr (.inl h))
  · exact Program.accounts_at h

namespace Stmt

/-- What all statements of the program are. -/
def IsNodeOf (p : Program) (s : Stmt) : Prop := s ∈ p.nodes ∧ s.SoundNode

theorem IsNodeOf.expr {s : Stmt} (h : s.IsNodeOf p) {e : Expr} (he : e ∈ s.exprs) :
    e.Sound ∧ ∀ n ∈ e.nodes, n ∈ p.exprNodes := ⟨h.2.1 e he, Program.mem_exprNodes h.1 he⟩

theorem execDeclare_accounted {name : String} {isMutable : Bool} {init : Option Expr}
    (h : (declare span name isMutable init).IsNodeOf p) :
    Fails p.Accounts (scope.execDeclare span name isMutable init) := by
  unfold Scope.execDeclare
  cases init with
  | none => exact .fail (Program.accounts_at h.1)
  | some e =>
    obtain ⟨he, hnodes⟩ := h.expr (List.mem_singleton_self e)
    dsimp only
    split
    · exact (Expr.eval_accounted he hnodes).propagate ‹_›
    · apply Fails.placed
      intro cause hc
      rw [(Scope.declare_eq_error hc).2]
      exact Program.accounts_at ⟨isMutable, some e, h.1⟩

theorem execAssign_accounted {target : Target} {value : Expr} {op : Token}
    (h : (assign span target value op).IsNodeOf p) :
    Fails p.Accounts (scope.execAssign span target value op) := by
  obtain ⟨he, hnodes⟩ := h.expr (List.mem_singleton_self value)
  have hspan : target.span = span := h.2.2.1
  have htarget : p.Targets span target.name := ⟨_, h.1, rfl, rfl⟩
  have hassign (v : Value) : Fails p.Accounts (placed span (scope.assign target.name v)) :=
    .placed fun _ hc => Scope.target_accounted htarget (Scope.assign_eq_error hc)
  unfold Scope.execAssign
  split
  · split
    · exact (Expr.eval_accounted he hnodes).propagate ‹_›
    · exact hassign _
  · split
    · exact .defect _
    · rename_i operator hoperator
      split
      · refine Fails.propagate (.placed fun cause hc => ?_) ‹_›
        rw [hspan]
        exact Scope.target_accounted htarget hc
      · split
        · exact (Expr.eval_accounted he hnodes).propagate ‹_›
        · split
          · refine Fails.propagate (.placed fun cause hc => ?_) ‹_›
            apply Program.accounts_at
            obtain rfl | ⟨-, hdivides⟩ := Value.arithmetic_eq_error hc
            · exact .inr ⟨target, value, op, h.1, hoperator⟩
            · -- No compound assignment divides.
              cases op <;> cases hoperator <;> simp at hdivides
          · exact hassign _

theorem execUpdate_accounted {target : Target} {op : Token} (h : (update span target op).IsNodeOf p) :
    Fails p.Accounts (scope.execUpdate span target op) := by
  have hspan : target.span = span := h.2.2.1
  have htarget : p.Targets span target.name := ⟨_, h.1, rfl, rfl⟩
  have hassign (v : Value) : Fails p.Accounts (placed span (scope.assign target.name v)) :=
    .placed fun _ hc => Scope.target_accounted htarget (Scope.assign_eq_error hc)
  unfold Scope.execUpdate
  split
  · refine Fails.propagate (.placed fun cause hc => ?_) ‹_›
    rw [hspan]
    exact Scope.target_accounted htarget hc
  · split
    · exact hassign _
    · exact hassign _
    · exact .defect _
  · exact .fail (Program.accounts_at ⟨target, rfl, h.1⟩)

theorem outputRecord_accounted {level : Level} {argument : Expr} (h : (output span level argument).IsNodeOf p) :
    Fails p.Accounts (scope.outputRecord level argument) := by
  obtain ⟨he, hnodes⟩ := h.expr (List.mem_singleton_self argument)
  unfold Scope.outputRecord
  split
  · rename_i f hf
    cases level with
    | known severity => cases hf
    | named name => exact h.2.2.elim
  · exact (Expr.eval_accounted he hnodes).map

theorem expressionRecord_accounted {e : Expr} (h : (expression span e).IsNodeOf p) :
    Fails p.Accounts (scope.expressionRecord e) := by
  obtain ⟨he, hnodes⟩ := h.expr (List.mem_singleton_self e)
  unfold Scope.expressionRecord
  split
  · exact (Expr.callRecord_accounted he hnodes).map
  · exact (Expr.eval_accounted he hnodes).map

end Stmt

end

/-! ## Runs -/

/-- A run fails with nothing but errors that nodes of the program are at fault for. -/
def accounting (p : Program) : Contract where
  good _ _ := True
  bad _ f _ := ∀ e, f = .error e → p.Accounts e
  refl _ := trivial
  trans _ _ := trivial
  trans_bad _ h := h

section

variable {p : Program}

/-- The errors of a step, as failures of a run. -/
theorem Fails.failure {α : Type} {P : Error → Prop} {x : Except Failure α} (hx : Fails P x) {f : Failure}
    (h : x = .error f) : ∀ e, f = .error e → P e := by
  rintro e rfl
  exact hx e h

theorem accounting_rescope {st : State} {step : Except Failure Scope} (h : Fails p.Accounts step) :
    (st.rescope step).Ends (fun _ => True) fun f _ => ∀ e, f = .error e → p.Accounts e := by
  apply State.ends_rescope
  · intro _ _
    trivial
  · intro f hf
    exact h.failure hf

theorem accounting_emitIfAny {st : State} {step : Except Failure (Option Record)} (h : Fails p.Accounts step) :
    (st.emitIfAny step).Ends (fun _ => True) fun f _ => ∀ e, f = .error e → p.Accounts e := by
  apply State.ends_emitIfAny
  · intro _
    trivial
  · intro _ _
    trivial
  · intro f hf
    exact h.failure hf

theorem Stmt.IsNodeOf.accounting_of_isSimple {limit : Nat} {s : Stmt} (h : s.IsNodeOf p) (hsimple : s.isSimple = true) :
    (accounting p).Holds (s.exec limit) := by
  intro st
  cases s with
  | declare span name isMutable init =>
    rw [exec]
    exact accounting_rescope (execDeclare_accounted h)
  | assign span target value op =>
    rw [exec]
    exact accounting_rescope (execAssign_accounted h)
  | update span target op =>
    rw [exec]
    exact accounting_rescope (execUpdate_accounted h)
  | output span level argument =>
    rw [exec]
    exact accounting_emitIfAny (outputRecord_accounted h).map
  | expression span e =>
    rw [exec]
    exact accounting_emitIfAny (expressionRecord_accounted h)
  | stray e => exact h.2.2.elim
  | block | forLoop | whileLoop | ifElse => cases hsimple

theorem accounting_kept (p : Program) (limit : Nat) : (accounting p).Kept (Stmt.IsNodeOf p) limit where
  simple h hsimple := h.accounting_of_isSimple hsimple
  visit _ _ := trivial
  pop _ := trivial
  pop_bad h := h
  condition h htest hf := by
    obtain ⟨he, hnodes⟩ := h.expr (Stmt.mem_exprs_of_condition? htest)
    exact (Expr.condition_accounted h.1 htest he hnodes).failure hf

end

/-! ## Programs -/

/-- Each error that a program which a document gives fails with has a place, and at that place there is a node of the
program that can be at fault for it. -/
theorem errors_blame_nodes {filename : Option String} {name d : Document} {p : Program}
    (hp : Program.ofDocument filename name d = .ok p) {limit : Nat} {st st' : State} {e : Error}
    (h : p.exec limit st = .failed (.error e) st') : ∃ span, e.span = some span ∧ p.Blames span e.cause := by
  have hsound : ∀ s ∈ p.statements, s.Sound := Program.ofDocument_yields filename name d p hp
  have hnodes : ∀ s ∈ p.nodes, s.IsNodeOf p := fun s hs => ⟨hs, forall_statementNodes.mpr hsound s hs⟩
  have hrule := (accounting_kept p limit).rule
  have hends : (accounting p).Holds (p.exec limit) :=
    hrule.execAll fun s hs => hrule.exec (forall_statementNodes.mp hnodes s hs)
  have hends := hends st
  rw [h] at hends
  exact hends e rfl

/-- A document whose one statement works out `1 / 0`, of which only the division has a position. -/
def quotientDocument : Document :=
  .list [.map [(.text "node", .text "Expression"),
    (.text "expression", .map [(.text "node", .text "Binary"), (.text "line", .int 2), (.text "column", .int 3),
      (.text "left", .map [(.text "node", .text "Literal"), (.text "int", .int 1)]), (.text "op", .text "/"),
      (.text "right", .map [(.text "node", .text "Literal"), (.text "int", .int 0)])])]]

/-- The error is at the division. -/
theorem errors_blame_nodes_quotient :
    ∃ p e st, Program.ofDocument none .null quotientDocument = .ok p ∧ p.exec 1 .fresh = .failed (.error e) st ∧
      e.cause = .divisionByZero ∧ e.span = some (.point 2 3 none) ∧ p.Blames (.point 2 3 none) e.cause := by
  obtain ⟨p, e, st, hp, hexec, hcause, hplace⟩ : ∃ p e st,
      Program.ofDocument none .null quotientDocument = .ok p ∧ p.exec 1 .fresh = .failed (.error e) st ∧
        e.cause = .divisionByZero ∧ e.span = some (.point 2 3 none) :=
    ⟨_, _, _, rfl, rfl, rfl, rfl⟩
  obtain ⟨span, hspan, hblames⟩ := errors_blame_nodes hp hexec
  rw [hplace] at hspan
  cases hspan
  exact ⟨p, e, st, hp, hexec, hcause, hplace, hblames⟩

end TreeScript
