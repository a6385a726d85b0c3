/-
Execution of statements, in program order and up to the first failure. Recursion follows the
tree; the one thing that could go on for ever, a loop, stops the run after `limit` tests of one
condition. Blocks, branches and loop bodies run in frames of their own.
-/
import TreeScript.Run.Evaluate
import TreeScript.Run.State

namespace TreeScript

/-! ## Simple statements -/

def Scope.execDeclare (scope : Scope) (span : Span) (name : String) (isMutable : Bool) (init : Option Expr) :
    Except Failure Scope :=
  match init with
  | none => (Cause.typeMismatch (.noInitializer isMutable name)).fail span
  | some e =>
    match e.eval scope with
    | .error f => .error f
    | .ok v => placed span (scope.declare name v isMutable)

/-- The scope after an assignment. A compound one reads the variable before it evaluates the operand. -/
def Scope.execAssign (scope : Scope) (span : Span) (target : Target) (value : Expr) (op : Token) :
    Except Failure Scope :=
  if op = .assign then
    match value.eval scope with
    | .error f => .error f
    | .ok v => placed span (scope.assign target.name v)
  else
    match op.compound? with
    | none => .error (.defect (.assignmentOperator op))
    | some operator =>
      match placed target.span (scope.currentForUpdate target.name) with
      | .error f => .error f
      | .ok current =>
        match value.eval scope with
        | .error f => .error f
        | .ok operand =>
          match placed span (Value.arithmetic operator current operand) with
          | .error f => .error f
          | .ok v => placed span (scope.assign target.name v)

def Scope.execUpdate (scope : Scope) (span : Span) (target : Target) (op : Token) : Except Failure Scope :=
  match placed target.span (scope.currentForUpdate target.name) with
  | .error f => .error f
  | .ok (.integer n) =>
    match op with
    | .increment => placed span (scope.assign target.name (.integer (n.add .one)))
    | .decrement => placed span (scope.assign target.name (.integer (n.subtract .one)))
    | _ => .error (.defect (.updateOperator op))
  | .ok v => (Cause.typeMismatch (.updateOperand op target.name v.kind)).fail span

/-- The severity that a level means. -/
def Level.severity : Level → Except Failure Severity
  | .known severity => .ok severity
  | .named name =>
    match Severity.ofName? name with
    | some severity => .ok severity
    | none => .error (.defect (.severity name))

def Scope.outputRecord (scope : Scope) (level : Level) (argument : Expr) : Except Failure Record :=
  match level.severity with
  | .error f => .error f
  | .ok severity => (argument.eval scope).map fun v => ⟨severity, v.render⟩

/-- The record that an expression statement emits: a call gives one, any other expression none. -/
def Scope.expressionRecord (scope : Scope) : Expr → Except Failure (Option Record)
  | .call span receiver method args => (Expr.callRecord scope span receiver method args).map some
  | e => (e.eval scope).map fun _ => none

def State.rescope (st : State) (step : Except Failure Scope) : Outcome :=
  .ofStep st step fun scope => .finished { st with scope }

/-- Enters a record into the log if there is one. -/
def State.emitIfAny (st : State) (step : Except Failure (Option Record)) : Outcome :=
  .ofStep st step fun record => .finished (match record with | some r => st.emit r | none => st)

/-- The test of a loop; a loop without a condition goes on. -/
def State.loopTest (statement : Branching) (test : Option Expr) (st : State) : Except Failure Bool :=
  match test with
  | none => .ok true
  | some e => e.condition statement st.scope

/-! ## Statements -/

mutual

/-- Runs a statement, which is entered into the log first. -/
def Stmt.exec (limit : Nat) (s : Stmt) (before : State) : Outcome :=
  let st := before.visit s
  match s with
  | .declare span name isMutable init => st.rescope (st.scope.execDeclare span name isMutable init)
  | .assign span target value op => st.rescope (st.scope.execAssign span target value op)
  | .update span target op => st.rescope (st.scope.execUpdate span target op)
  | .output _ level argument => st.emitIfAny ((st.scope.outputRecord level argument).map some)
  | .expression _ e => st.emitIfAny (st.scope.expressionRecord e)
  | .block body => Outcome.inFrame "block" (body.exec limit) st
  | .forLoop _ init test update body =>
    Outcome.inFrame "for-loop"
      (fun st => (execOptional limit init st).andThen
        (Outcome.loop (State.loopTest .forLoop test)
          (fun st => (Outcome.inFrame "for-body" (body.exec limit) st).andThen (execOptional limit update))
          limit)) st
  | .whileLoop _ test body =>
    Outcome.loop (State.loopTest .whileLoop (some test)) (Outcome.inFrame "while-body" (body.exec limit)) limit st
  | .ifElse _ test thenBranch elseBranch =>
    match test.condition .ifStatement st.scope with
    | .error f => .failed f st
    | .ok true => Outcome.inFrame "if-then" (thenBranch.exec limit) st
    | .ok false => execElse limit elseBranch st
  | .stray e => .failed (.defect (.statement e.kindName)) st

def Block.exec (limit : Nat) (b : Block) (st : State) : Outcome :=
  match b with
  | .mk _ statements => execAll limit statements st

/-- Runs statements in order, up to the first that fails. -/
def execAll (limit : Nat) (statements : List Stmt) (st : State) : Outcome :=
  match statements with
  | [] => .finished st
  | s :: rest =>
    match s.exec limit st with
    | .finished st => execAll limit rest st
    | .failed f st => .failed f st
    | .unfinished => .unfinished

/-- Runs the part of a loop's head that is there. -/
def execOptional (limit : Nat) (s : Option Stmt) (st : State) : Outcome :=
  match s with
  | none => .finished st
  | some s => s.exec limit st

/-- Runs the other branch: a block in a frame of its own, any other statement as it stands. -/
def execElse (limit : Nat) (s : Option Stmt) (st : State) : Outcome :=
  match s with
  | none => .finished st
  | some (.block body) => Outcome.inFrame "else" (body.exec limit) st
  | some s => s.exec limit st

end

def Program.exec (limit : Nat) (p : Program) (st : State) : Outcome := execAll limit p.statements st

end TreeScript
