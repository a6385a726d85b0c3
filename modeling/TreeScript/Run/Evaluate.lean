/-
Evaluation of expressions. It reads the scope and changes nothing: operands come from left to
right, the logical operators skip a right operand that cannot matter, and the first failure is
the result.
-/
import TreeScript.Builtin
import TreeScript.Scope
import TreeScript.Tree.Basic

namespace TreeScript

/-- A failure of a cause at a place. -/
def Cause.fail {α : Type} (cause : Cause) (span : Span) : Except Failure α := .error (.error (cause.at span))

/-- Places the cause that a step ended with. -/
def placed {α : Type} (span : Span) : Except Cause α → Except Failure α
  | .ok a => .ok a
  | .error cause => cause.fail span

/-- The integer that a datum writes: only a text can, and any other datum is quoted in the error. -/
def Integer.ofDatum (d : Datum) : Except Integer.Fault Integer :=
  match d.document with
  | .text s => Integer.parse s
  | _ => .error (.malformedLiteral d.quoted)

/-- What a document writes as an integer by its text, if it has one. -/
def Integer.ofPlain (d : Document) : Option (Except Integer.Fault Integer) := d.plain.map Integer.parse

namespace Literal

/-- The value of a literal. A datum that is not what it is claimed to be is taken by its text. -/
def eval (span : Span) : Literal → Except Failure Value
  | .integer s => placed span (((Integer.parse s).mapError Cause.ofInteger).map .integer)
  | .text s => .ok (.text s)
  | .boolean b => .ok (.boolean b)
  | .mistyped d .intLiteral => placed span (((Integer.ofDatum d).mapError Cause.ofInteger).map .integer)
  | .mistyped d .stringLiteral => .ok (.text d.plain)
  | .mistyped d .boolLiteral => .ok (.boolean (Text.lower d.plain == "true"))
  | .mistyped _ claimed => .error (.defect (.literalType claimed))

end Literal

namespace Value

def requireIntegers (op : Token) (left right : Value) : Except Cause (Integer × Integer) :=
  match left, right with
  | .integer a, .integer b => .ok (a, b)
  | _, _ => .error (.typeMismatch (.integerOperands op left.kind right.kind))

def requireBoolean (op : Token) : Value → Except Cause Bool
  | .boolean b => .ok b
  | v => .error (.typeMismatch (.booleanOperands op v.kind))

/-- The integer that an arithmetic operator gives. -/
def arithmetic (op : Token) (left right : Value) : Except Cause Value :=
  match requireIntegers op left right with
  | .error cause => .error cause
  | .ok (a, b) =>
    match op with
    | .plus => .ok (.integer (a.add b))
    | .minus => .ok (.integer (a.subtract b))
    | .star => .ok (.integer (a.multiply b))
    | .slash => ((a.divide b).mapError Cause.ofInteger).map .integer
    | _ => ((a.remainder b).mapError Cause.ofInteger).map .integer

def equal (op : Token) (left right : Value) : Except Cause Bool :=
  if left.kind = right.kind then .ok (left == right)
  else .error (.typeMismatch (.equality op left.kind right.kind))

/-- Whether an ordering operator holds of two integers. -/
def ordered (op : Token) (left right : Value) : Except Cause Bool :=
  (requireIntegers op left right).map fun (a, b) =>
    match op with
    | .lt => a.compare b == .lt
    | .le => a.compare b != .gt
    | .gt => a.compare b == .gt
    | _ => a.compare b != .lt

def binary (span : Span) (op : Token) (left right : Value) : Except Failure Value :=
  if op.isArithmetic then placed span (arithmetic op left right)
  else
    match op with
    | .eq => placed span ((equal op left right).map .boolean)
    | .ne => placed span ((equal op left right).map fun b => .boolean !b)
    | .lt | .le | .gt | .ge => placed span ((ordered op left right).map .boolean)
    | _ => .error (.defect (.binaryOperator op))

def unary (span : Span) (op : Token) (operand : Value) : Except Failure Value :=
  match op with
  | .minus =>
    match operand with
    | .integer n => .ok (.integer n.negate)
    | v => (Cause.typeMismatch (.negation v.kind)).fail span
  | .not => placed span ((requireBoolean op operand).map fun b => .boolean !b)
  | _ => .error (.defect (.unaryOperator op))

end Value

namespace Expr

def eval (scope : Scope) : Expr → Except Failure Value
  | .literal span lit => lit.eval span
  | .identifier span name => placed span (scope.lookup name)
  | .binary span left op right =>
    match left.eval scope with
    | .error e => .error e
    | .ok a =>
      if op.isLogical then
        match placed span (a.requireBoolean op) with
        | .error e => .error e
        | .ok b =>
          -- False decides a conjunction and true a disjunction.
          if b == (op == .or) then .ok (.boolean b)
          else
            match right.eval scope with
            | .error e => .error e
            | .ok c => placed span ((c.requireBoolean op).map .boolean)
      else
        match right.eval scope with
        | .error e => .error e
        | .ok c => Value.binary span op a c
  | .unary span op operand =>
    match operand.eval scope with
    | .error e => .error e
    | .ok v => Value.unary span op v
  | .call span receiver method _ =>
    (Cause.typeMismatch (.noValue (calleeName receiver method))).fail span
  | .stray stmt => .error (.defect (.expression stmt.kindName))

def evalAll (scope : Scope) : List Expr → Except Failure (List Value)
  | [] => .ok []
  | e :: rest =>
    match e.eval scope with
    | .error e => .error e
    | .ok v => (evalAll scope rest).map (v :: ·)

def condition (statement : Branching) (scope : Scope) (e : Expr) : Except Failure Bool :=
  match e.eval scope with
  | .error e => .error e
  | .ok (.boolean b) => .ok b
  | .ok v => (Cause.typeMismatch (.condition statement v.kind)).fail e.span

/-- The record that a call emits: the method is looked up before the arguments are evaluated, and a
variable hides a built-in object of the same name. -/
def callRecord (scope : Scope) (span : Span) (receiver : Expr) (method : String) (args : List Expr) :
    Except Failure Record :=
  match receiver with
  | .identifier receiverSpan object =>
    let found : Except Failure (Option Builtin.Method) :=
      if !scope.isDefined object && Builtin.Registry.standard.hasObject object then
        .ok (Builtin.Registry.standard.method? object method)
      else placed receiverSpan ((scope.lookup object).map fun _ => none)
    match found with
    | .error e => .error e
    | .ok none => (Cause.typeMismatch (.notFunction (calleeName receiver method))).fail span
    | .ok (some m) => (evalAll scope args).map fun values => m.action.record values
  | _ => .error (.defect (.receiver receiver.kindName))

end Expr

end TreeScript
