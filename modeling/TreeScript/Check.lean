/-
Static checks: a walk over the tree with the frames that a run would have, but without values. It
finds malformed literals, names that are declared twice or not at all, assignments to constants,
calls of unknown functions or in place of values, and loops without a condition. The walk goes on
after an error, until the collector is full.
-/
import TreeScript.Builtin
import TreeScript.Run.Evaluate
import TreeScript.Tree.Basic

namespace TreeScript.Check

inductive Finding where
  | fault (cause : Cause)
  | unknownFunction (callee : String)
  | endlessLoop

namespace Finding

def isError : Finding → Bool
  | endlessLoop => false
  | _ => true

def code : Finding → String
  | fault cause => cause.code
  | unknownFunction _ => "E405"
  | endlessLoop => "W401"

def message : Finding → String
  | fault cause => cause.message
  | unknownFunction callee => s!"unknown function '{callee}'"
  | endlessLoop => "loop has no condition and will not stop on its own"

/-- The finding at a place, without hints. -/
def diagnostic (f : Finding) (span : Span) : Diagnostic := ⟨f.code, f.message, f.isError, some span, []⟩

end Finding

/-- The declared names of a frame, and whether each is mutable. -/
abbrev Names := List (String × Bool)

/-- The current frame, the frames around it, and what has been found. -/
structure State where
  current : Names
  outer : List Names
  collector : Collector

namespace State

def fresh (maxErrors : Int) : State := ⟨[], [], .empty maxErrors⟩

def isFull (st : State) : Bool := st.collector.isFull

/-- Whether the innermost binding of a name is mutable; `none` if there is no binding. -/
def resolve? (st : State) (name : String) : Option Bool :=
  (st.current :: st.outer).findSome? (·.lookup name)

def push (st : State) : State := { st with current := [], outer := st.current :: st.outer }

/-- Closes the current frame; the last one stays. -/
def pop (st : State) : State :=
  match st.outer with
  | [] => st
  | f :: rest => { st with current := f, outer := rest }

/-- Reports a finding; no error is reported once the collector is full. -/
def report (st : State) (f : Finding) (span : Span) : State :=
  if f.isError && st.isFull then st else { st with collector := st.collector.add (f.diagnostic span) }

/-- Declares a name in the current frame; a second declaration is reported and changes nothing. -/
def declare (st : State) (name : String) (isMutable : Bool) (span : Span) : State :=
  if (st.current.lookup name).isSome then st.report (.fault (.redeclaration name)) span
  else { st with current := (name, isMutable) :: st.current }

def target (st : State) (name : String) (span : Span) : State :=
  match st.resolve? name with
  | none => st.report (.fault (.undefinedVariable name)) span
  | some true => st
  | some false => st.report (.fault (.immutableAssignment name)) span

def literal (st : State) (l : Literal) (span : Span) : State :=
  match l with
  | .integer s =>
    match Integer.parse s with
    | .ok _ => st
    | .error _ => st.report (.fault (.malformedLiteral s)) span
  | .mistyped d .intLiteral =>
    match Integer.ofDatum d with
    | .ok _ => st
    | .error _ => st.report (.fault (.malformedLiteral d.plain)) span
  | _ => st

/-- Whether a call names a method of a built-in object that no variable hides. -/
def isKnownMethod (st : State) (receiver : Expr) (method : String) : Bool :=
  match receiver with
  | .identifier _ name =>
    (st.resolve? name).isNone && (Builtin.Registry.standard.method? name method).isSome
  | _ => false

def callee (st : State) (receiver : Expr) (method : String) (span : Span) : State :=
  if st.isKnownMethod receiver method then st
  else st.report (.unknownFunction (calleeName receiver method)) span

end State

/-! ## Expressions -/

mutual

def expr (st : State) : Expr → State
  | .literal span l => st.literal l span
  | .identifier span name =>
    if (st.resolve? name).isSome then st else st.report (.fault (.undefinedVariable name)) span
  | .binary _ left _ right => expr (expr st left) right
  | .unary _ _ operand => expr st operand
  | .call span receiver method args =>
    let st := st.report (.fault (.typeMismatch (.noValue (calleeName receiver method)))) span
    exprs (st.callee receiver method span) args
  | .stray _ => st

def exprs (st : State) : List Expr → State
  | [] => st
  | e :: rest => exprs (expr st e) rest

end

/-- Checks an expression that stands as a statement, where a call needs no value. -/
def effect (st : State) : Expr → State
  | .call span receiver method args => exprs (st.callee receiver method span) args
  | e => expr st e

def optionalExpr (st : State) : Option Expr → State
  | none => st
  | some e => expr st e

/-- Checks the condition of a loop; a loop without one is reported. -/
def loopTest (st : State) (span : Span) : Option Expr → State
  | none => st.report .endlessLoop span
  | some e => expr st e

/-! ## Statements -/

mutual

def stmt (st : State) : Stmt → State
  | .declare span name isMutable init => (optionalExpr st init).declare name isMutable span
  | .assign span target value _ => (expr st value).target target.name span
  | .update span target _ => st.target target.name span
  | .output _ _ argument => expr st argument
  | .expression _ e => effect st e
  | .block body => block st body
  | .forLoop span init test update body =>
    let st := loopTest (optionalStmt st.push init) span test
    (optionalStmt (block st body) update).pop
  | .whileLoop _ test body => block (expr st test) body
  | .ifElse _ test thenBranch elseBranch => optionalStmt (block (expr st test) thenBranch) elseBranch
  | .stray _ => st

/-- Checks the statements of a block in a frame of their own. -/
def block (st : State) : Block → State
  | .mk _ statements => (stmts st.push statements).pop

/-- Checks statements in order, until the collector is full. -/
def stmts (st : State) : List Stmt → State
  | [] => st
  | s :: rest => if st.isFull then st else stmts (stmt st s) rest

def optionalStmt (st : State) : Option Stmt → State
  | none => st
  | some s => stmt st s

end

/-- Checks a program after the ones that the checker has seen before. -/
def program (st : State) (p : Program) : State := stmts st p.statements

def run (p : Program) (maxErrors : Int) : Collector := (program (.fresh maxErrors) p).collector

end TreeScript.Check
