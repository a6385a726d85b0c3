/-
An assignment with an operator is short for a plain assignment of what the operator gives, and an increment or a
decrement is short for adding or subtracting one. The short forms look at the variable before they evaluate anything,
and a plain assignment looks at it last. That shows only where the variable may not be assigned to: a short form says
so whatever its operand is, and a plain one fails with its operand first.
-/
import TreeScript.Proofs.Run.Likeness

namespace TreeScript

/-- The compound assignment of one that an update is short for. -/
def Token.ofUpdate? : Token → Option Token
  | .increment => some .plusAssign
  | .decrement => some .minusAssign
  | _ => none

/-- What a compound assignment applies is arithmetic. -/
theorem Token.isArithmetic_of_compound {op operator : Token} (hop : op.compound? = some operator) :
    op ≠ .assign ∧ operator.isArithmetic = true ∧ operator.isLogical = false := by
  cases op with
  | plusAssign | minusAssign | starAssign =>
    cases hop
    decide
  | _ => cases hop

theorem Token.compound_of_ofUpdate {op op' : Token} (hop : op.ofUpdate? = some op') :
    ∃ operator, op'.compound? = some operator := by
  cases op with
  | increment | decrement =>
    cases hop
    exact ⟨_, rfl⟩
  | _ => cases hop

/-- Why a name may not be assigned to. -/
inductive Scope.Refuses (scope : Scope) (name : String) : Cause → Prop
  | undefined (h : scope.find? name = none) : Refuses scope name (.undefinedVariable name)
  | constant {b : Binding} (h : scope.find? name = some b) (hm : b.isMutable = false) :
      Refuses scope name (.immutableAssignment name)

/-- Two states with the same scope, in which nothing has been emitted since a third. -/
structure State.SilentlyAlike (st a b : State) : Prop where
  scope : a.scope = b.scope
  left : Event.records a.log = Event.records st.log
  right : Event.records b.log = Event.records st.log

/-! ## Steps -/

/-- An operation on a value that is no integer fails, whatever the other operand is. -/
theorem Value.arithmetic_of_kind_ne {v : Value} (hv : v.kind ≠ .integer) (op : Token) (w : Value) :
    arithmetic op v w = .error (.typeMismatch (.integerOperands op v.kind w.kind)) := by
  cases v with
  | integer n => exact absurd rfl hv
  | text | boolean => rfl

theorem Literal.eval_one (span : Span) : (Literal.integer "1").eval span = .ok (.integer .one) := rfl

namespace Scope

variable {scope : Scope} {target : Target} {b : Binding} {cause : Cause}

theorem currentForUpdate_of_mutable (hb : scope.find? target.name = some b) (hm : b.isMutable = true) :
    scope.currentForUpdate target.name = .ok b.value := by
  rw [currentForUpdate, hb]
  exact if_pos hm

theorem Refuses.currentForUpdate (h : scope.Refuses target.name cause) :
    scope.currentForUpdate target.name = .error cause := by
  unfold Scope.currentForUpdate
  cases h with
  | undefined h => rw [h]
  | constant h hm => simp [h, hm]

/-- An identifier has the value of its binding. -/
theorem eval_identifier (hb : scope.find? target.name = some b) (place : Span) :
    (Expr.identifier place target.name).eval scope = .ok b.value := by
  rw [Expr.eval, lookup, hb]
  rfl

/-- A compound assignment to a mutable variable is the plain assignment of the operation. -/
theorem execAssign_compound {op operator : Token} (hop : op.compound? = some operator)
    (hb : scope.find? target.name = some b) (hm : b.isMutable = true) (span place : Span) (e : Expr) :
    scope.execAssign span target e op =
      scope.execAssign span target (.binary span (.identifier place target.name) operator e) .assign := by
  obtain ⟨hassign, harithmetic, hlogical⟩ := Token.isArithmetic_of_compound hop
  rw [execAssign, if_neg hassign, hop, execAssign, if_pos rfl, Expr.eval, eval_identifier hb,
    currentForUpdate_of_mutable hb hm]
  cases e.eval scope with
  | error f => simp [hlogical, placed]
  | ok w => simp [hlogical, placed, Value.binary, harithmetic]

/-- A compound assignment reads the variable first, and fails if that may not be assigned to. -/
theorem Refuses.execAssign {op operator : Token} (h : scope.Refuses target.name cause)
    (hop : op.compound? = some operator) (span : Span) (e : Expr) :
    scope.execAssign span target e op = cause.fail target.span := by
  rw [Scope.execAssign, if_neg (Token.isArithmetic_of_compound hop).1, hop, h.currentForUpdate]
  rfl

theorem Refuses.execUpdate (h : scope.Refuses target.name cause) (span : Span) (op : Token) :
    scope.execUpdate span target op = cause.fail target.span := by
  rw [Scope.execUpdate, h.currentForUpdate]
  rfl

/-- A plain assignment evaluates its operand first. -/
theorem execAssign_of_eval_error {e : Expr} {f : Failure} (he : e.eval scope = .error f) (span : Span) :
    scope.execAssign span target e .assign = .error f := by
  rw [execAssign, if_pos rfl, he]

theorem Refuses.execAssign_of_eval {e : Expr} {v : Value} (h : scope.Refuses target.name cause)
    (he : e.eval scope = .ok v) (span : Span) : scope.execAssign span target e .assign = cause.fail span := by
  have hassign : scope.assign target.name v = .error cause := by
    rw [assign, h.currentForUpdate]
    rfl
  rw [Scope.execAssign, if_pos rfl, he]
  simp only [hassign, placed]

/-- An update of an integer is a compound assignment of one. -/
theorem execUpdate_eq_execAssign {op op' : Token} (hop : op.ofUpdate? = some op')
    (hb : scope.find? target.name = some b) (hm : b.isMutable = true) (hv : b.value.kind = .integer)
    (span place : Span) :
    scope.execUpdate span target op = scope.execAssign span target (.literal place (.integer "1")) op' := by
  obtain ⟨n, hn⟩ : ∃ n, b.value = .integer n := by
    cases hbv : b.value with
    | integer n => exact ⟨n, rfl⟩
    | text | boolean =>
      rw [hbv] at hv
      cases hv
  have hcurrent := currentForUpdate_of_mutable hb hm
  rw [hn] at hcurrent
  cases op with
  | increment | decrement =>
    cases hop
    simp [execUpdate, execAssign, hcurrent, Expr.eval, Literal.eval_one, placed, Token.compound?, Value.arithmetic,
      Value.requireIntegers]
  | _ => cases hop

/-- An update of a value that is no integer and the addition of one to it both fail. -/
theorem typeMismatch_of_update {op op' : Token} (hop : op.ofUpdate? = some op')
    (hb : scope.find? target.name = some b) (hm : b.isMutable = true) (hv : b.value.kind ≠ .integer)
    (span place : Span) :
    (∃ m, scope.execUpdate span target op = (Cause.typeMismatch m).fail span) ∧
    ∃ m, scope.execAssign span target (.literal place (.integer "1")) op' = (Cause.typeMismatch m).fail span := by
  have hcurrent := currentForUpdate_of_mutable hb hm
  constructor
  · refine ⟨.updateOperand op target.name b.value.kind, ?_⟩
    cases hbv : b.value with
    | integer n =>
      rw [hbv] at hv
      exact absurd rfl hv
    | text | boolean => simp [execUpdate, hcurrent, hbv, placed]
  · obtain ⟨operator, hoperator⟩ := Token.compound_of_ofUpdate hop
    refine ⟨.integerOperands operator b.value.kind .integer, ?_⟩
    simp only [execAssign, (Token.isArithmetic_of_compound hoperator).1, if_false, hoperator, hcurrent, Expr.eval,
      Literal.eval_one, placed, Value.arithmetic_of_kind_ne hv]
    rfl

end Scope

/-! ## Statements -/

/-- One step from the same scope, whichever statement makes it. -/
theorem State.rescope_match (st : State) (s s' : Stmt) (step : Except Failure Scope) :
    Outcome.Match Eq st.SilentlyAlike ((st.visit s).rescope step) ((st.visit s').rescope step) := by
  have hs := Event.records_push_visited st.log
  cases step with
  | ok scope => exact .finished ⟨rfl, hs _, hs _⟩
  | error f => exact .failed rfl ⟨rfl, hs _, hs _⟩

namespace Stmt

variable {limit : Nat} {st : State} {span : Span} {x : Target} {e : Expr} {op : Token}

/-- A statement fails and has done nothing: only that it was reached is in the log. -/
def Aborts (s : Stmt) (limit : Nat) (st : State) (f : Failure) : Prop := s.exec limit st = .failed f (st.visit s)

theorem exec_assign : (assign span x e op).exec limit st =
    (st.visit (.assign span x e op)).rescope (st.scope.execAssign span x e op) := rfl

theorem exec_update : (update span x op).exec limit st =
    (st.visit (.update span x op)).rescope (st.scope.execUpdate span x op) := rfl

theorem assign_aborts {f : Failure} (h : st.scope.execAssign span x e op = .error f) :
    (assign span x e op).Aborts limit st f := by
  rw [Aborts, exec_assign, h]
  rfl

theorem update_aborts {f : Failure} (h : st.scope.execUpdate span x op = .error f) :
    (update span x op).Aborts limit st f := by
  rw [Aborts, exec_update, h]
  rfl

end Stmt

/-- A compound assignment to a mutable variable does what the plain assignment of the operation does, and an update
does what adding or subtracting one does if the variable has an integer; if not, then both fail. Where the variable is
not defined or constant, the short forms say so in the first place; a plain assignment fails with its operand first. -/
theorem compound_assignment_short_for_plain (limit : Nat) (st : State) (span place : Span) (x : Target) :
    (∀ b, st.scope.find? x.name = some b → b.isMutable = true →
      (∀ op operator e, op.compound? = some operator →
        Outcome.Match Eq st.SilentlyAlike ((Stmt.assign span x e op).exec limit st)
          ((Stmt.assign span x (.binary span (.identifier place x.name) operator e) .assign).exec limit st)) ∧
      ∀ op op', op.ofUpdate? = some op' →
        let update : Stmt := .update span x op
        let assign : Stmt := .assign span x (.literal place (.integer "1")) op'
        (b.value.kind = .integer →
          Outcome.Match Eq st.SilentlyAlike (update.exec limit st) (assign.exec limit st)) ∧
        (b.value.kind ≠ .integer →
          (∃ m, update.Aborts limit st (.error ((Cause.typeMismatch m).at span))) ∧
          ∃ m, assign.Aborts limit st (.error ((Cause.typeMismatch m).at span)))) ∧
    (∀ cause, st.scope.Refuses x.name cause →
      (∀ op operator e, op.compound? = some operator →
        (Stmt.assign span x e op).Aborts limit st (.error (cause.at x.span))) ∧
      (∀ op op', op.ofUpdate? = some op' → (Stmt.update span x op).Aborts limit st (.error (cause.at x.span))) ∧
      ∀ e v, e.eval st.scope = .ok v → (Stmt.assign span x e .assign).Aborts limit st (.error (cause.at span))) ∧
    ∀ e f, e.eval st.scope = .error f → (Stmt.assign span x e .assign).Aborts limit st f := by
  refine ⟨?mutable, ?refused, fun e f he => Stmt.assign_aborts (Scope.execAssign_of_eval_error he span)⟩
  case mutable =>
    intro b hb hm
    constructor
    · intro op operator e hop
      rw [Stmt.exec_assign, Stmt.exec_assign, Scope.execAssign_compound hop hb hm span place e]
      exact st.rescope_match _ _ _
    · intro op op' hop update assign
      constructor
      · intro hv
        rw [Stmt.exec_assign, Stmt.exec_update, Scope.execUpdate_eq_execAssign hop hb hm hv span place]
        exact st.rescope_match _ _ _
      · intro hv
        obtain ⟨⟨m, hm⟩, m', hm'⟩ := Scope.typeMismatch_of_update hop hb hm hv span place
        exact ⟨⟨m, Stmt.update_aborts hm⟩, m', Stmt.assign_aborts hm'⟩
  case refused =>
    intro cause hcause
    refine ⟨?_, ?_, ?_⟩
    · intro op operator e hop
      exact Stmt.assign_aborts (hcause.execAssign hop span e)
    · intro op op' _
      exact Stmt.update_aborts (hcause.execUpdate span op)
    · intro e v he
      exact Stmt.assign_aborts (hcause.execAssign_of_eval he span)

/-- A variable further out that may be assigned to, and a constant that hides one. -/
theorem compound_assignment_hidden_variable :
    ∃ (st : State) (x c : Target) (y : Expr),
      Outcome.Match Eq st.SilentlyAlike ((Stmt.assign .none x (.identifier .none x.name) .starAssign).exec 0 st)
        ((Stmt.assign .none x (.binary .none (.identifier .none x.name) .star (.identifier .none x.name))
          .assign).exec 0 st) ∧
      Outcome.Match Eq st.SilentlyAlike ((Stmt.update .none x .decrement).exec 0 st)
        ((Stmt.assign .none x (.literal .none (.integer "1")) .minusAssign).exec 0 st) ∧
      (Stmt.assign .none c y .minusAssign).Aborts 0 st (.error ((Cause.immutableAssignment c.name).at c.span)) ∧
      (Stmt.assign .none c y .assign).Aborts 0 st (.error ((Cause.undefinedVariable "y").at .none)) := by
  let x : Target := ⟨.none, "x"⟩
  let c : Target := ⟨.none, "c"⟩
  let st : State := ⟨⟨⟨"block", [⟨"c", .integer .one, false⟩]⟩,
    [⟨"global", [⟨"x", .integer .one, true⟩, ⟨"c", .integer .one, true⟩]⟩]⟩, #[]⟩
  obtain ⟨hmutable, -, -⟩ := compound_assignment_short_for_plain 0 st .none .none x
  obtain ⟨-, hrefused, hoperand⟩ := compound_assignment_short_for_plain 0 st .none .none c
  obtain ⟨hcompound, hupdate⟩ := hmutable ⟨"x", .integer .one, true⟩ rfl rfl
  obtain ⟨hassign, -, -⟩ := hrefused (.immutableAssignment "c") (.constant (b := ⟨"c", .integer .one, false⟩) rfl rfl)
  exact ⟨st, x, c, .identifier .none "y", hcompound .starAssign .star _ rfl,
    (hupdate .decrement .minusAssign rfl).1 rfl, hassign .minusAssign .minus _ rfl, hoperand _ _ rfl⟩

end TreeScript
