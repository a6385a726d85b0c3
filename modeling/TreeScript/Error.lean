/-
What can go wrong with a program. An error has a cause and the place it came up at; the wording of
each cause stands here and nowhere else. A defect is different: it means that a tree was put
together wrongly, which reading a document never does.
-/
import TreeScript.Diagnostic
import TreeScript.Document.Text
import TreeScript.Document.Undecodable
import TreeScript.Output
import TreeScript.Token
import TreeScript.Value

namespace TreeScript

/-! ## Documents that are no program -/

/-- Where a node may stand. -/
inductive Position where
  | statement | expression
deriving DecidableEq

def Position.name : Position → String
  | .statement => "statement"
  | .expression => "expression"

/-- Why a document is no program. What was found there is given by its text. Two problems are not foreseen, and
whoever meets one of them ends there and then: reading goes on for longer than there is room, and what is to be told
of has no text. -/
inductive Problem where
  | undecodable (what : String) (reason : Undecodable)
  | noProgram
  | programNotList
  | badPosition (key found : String)
  | notMapping (wanted : Position) (found : Document)
  | unknownNode (wanted : Position) (kind : String)
  | missing (node key : String)
  | badName (key : String)
  | badOperator (symbol node : String)
  | notStatements
  | badDeclaration (kind : String)
  | badSeverity (severity : String)
  | badInt (found : String)
  | badString (found : String)
  | badBool (found : String)
  | noLiteral
  | argsNotList
  | endless
  | unwritable
  | described (message : String)

def Problem.message : Problem → String
  | .undecodable what reason => s!"cannot decode {what}: {reason.message}"
  | .noProgram => "document has no 'program' list"
  | .programNotList => "'program' must be a list of statements"
  | .badPosition key found => s!"'{key}' must be a non-negative integer, found {found}"
  | .notMapping wanted found => s!"expected a {wanted.name} node mapping, found {found.kindName}"
  | .unknownNode wanted kind => s!"unknown {wanted.name} node '{kind}'"
  | .missing node key => s!"{node} node is missing '{key}'"
  | .badName key => s!"'{key}' must be a non-empty name"
  | .badOperator symbol node => s!"invalid operator {symbol} for {node}"
  | .notStatements => "expected a list of statements"
  | .badDeclaration kind => s!"declaration kind must be 'let' or 'const', found {kind}"
  | .badSeverity severity => s!"unknown output severity {severity}"
  | .badInt found => s!"integer literal must be digits, found {found}"
  | .badString found => s!"string literal must be text, found {found}"
  | .badBool found => s!"boolean literal must be true or false, found {found}"
  | .noLiteral => "Literal node needs one of 'int', 'string' or 'bool'"
  | .argsNotList => "'args' must be a list"
  | .endless => "the nodes go too deep"
  | .unwritable => Text.unwritableMessage
  | .described message => message

/-! ## Values of the wrong kind -/

inductive Branching where
  | ifStatement | whileLoop | forLoop
deriving DecidableEq

def Branching.keyword : Branching → String
  | .ifStatement => "if"
  | .whileLoop => "while"
  | .forLoop => "for"

/-- The word that declares a mutable or a constant variable. -/
def declarationKeyword (isMutable : Bool) : String := if isMutable then "let" else "const"

/-- A value, or the lack of one, that does not fit where it stands. -/
inductive Mismatch where
  | noInitializer (isMutable : Bool) (name : String)
  | updateOperand (op : Token) (name : String) (found : Value.Kind)
  | condition (statement : Branching) (found : Value.Kind)
  | equality (op : Token) (left right : Value.Kind)
  | integerOperands (op : Token) (left right : Value.Kind)
  | booleanOperands (op : Token) (found : Value.Kind)
  | negation (found : Value.Kind)
  | noValue (callee : String)
  | notFunction (callee : String)
  | described (message : String) (subject : Option String)
deriving DecidableEq

namespace Mismatch

def message : Mismatch → String
  | noInitializer isMutable name =>
    s!"missing initializer in {declarationKeyword isMutable} declaration of '{name}'"
  | updateOperand op name found => s!"operator '{op.symbol}' requires an integer, '{name}' is {found}"
  | condition statement found => s!"{statement.keyword} condition must be a boolean, found {found}"
  | equality op left right => s!"cannot compare {left} with {right} using '{op.symbol}'"
  | integerOperands op left right =>
    s!"operator '{op.symbol}' requires integer operands, found {left} and {right}"
  | booleanOperands op found => s!"operator '{op.symbol}' requires boolean operands, found {found}"
  | negation found => s!"unary '-' requires an integer, found {found}"
  | noValue callee => s!"{callee}() does not produce a value"
  | notFunction callee => s!"{callee} is not a function"
  | described message _ => message

def subject : Mismatch → Option String
  | noInitializer _ name => some name
  | updateOperand _ name _ => some name
  | noValue callee => some callee
  | notFunction callee => some callee
  | described _ subject => subject
  | _ => none

end Mismatch

/-! ## Errors -/

inductive Cause where
  | document (problem : Problem)
  | malformedLiteral (text : String)
  | redeclaration (name : String)
  | undefinedVariable (name : String)
  | immutableAssignment (name : String)
  | typeMismatch (mismatch : Mismatch)
  | divisionByZero

namespace Cause

def code : Cause → String
  | document _ => "E101"
  | malformedLiteral _ => "E401"
  | redeclaration _ => "E402"
  | undefinedVariable _ => "E403"
  | immutableAssignment _ => "E404"
  | typeMismatch _ => "E405"
  | divisionByZero => "E406"

def message : Cause → String
  | document problem => problem.message
  | malformedLiteral text => s!"malformed integer literal '{text}'"
  | redeclaration name => s!"identifier '{name}' has already been declared"
  | undefinedVariable name => s!"'{name}' is not defined"
  | immutableAssignment name => s!"assignment to constant variable '{name}'"
  | typeMismatch mismatch => mismatch.message
  | divisionByZero => "division by zero"

/-- The name or the literal text that the cause is about. -/
def subject : Cause → Option String
  | malformedLiteral text => some text
  | redeclaration name => some name
  | undefinedVariable name => some name
  | immutableAssignment name => some name
  | typeMismatch mismatch => mismatch.subject
  | _ => none

def hints : Cause → List String
  | malformedLiteral _ => ["integer literals are decimal digits with an optional leading '-'"]
  | immutableAssignment name => [s!"declare '{name}' with 'let' to allow reassignment"]
  | _ => []

/-- Whether the cause comes up while a program runs, and not while its document is read. -/
def isEvaluation : Cause → Bool
  | document _ => false
  | _ => true

/-- The cause that an operation on integers ran into. -/
def ofInteger : Integer.Fault → Cause
  | .malformedLiteral text => malformedLiteral text
  | .divisionByZero => divisionByZero

end Cause

/-- A cause and the place where it came up. -/
structure Error where
  cause : Cause
  span : Option Span

namespace Error

def diagnostic (e : Error) : Diagnostic := ⟨e.cause.code, e.cause.message, true, e.span, e.cause.hints⟩

/-- Whether the command line reports the error and ends in order. -/
def isReported (e : Error) : Bool :=
  match e.cause with
  | .document (.undecodable _ reason) => reason.isReported
  | .document .endless => false
  | .document .unwritable => false
  | _ => true

/-- Whether it is not known what becomes of the document. -/
def isUntold (e : Error) : Bool :=
  match e.cause with
  | .document (.undecodable _ reason) => reason.isUntold
  | _ => false

/-- The error for a reader, with its place and hints, if that place has a text. -/
def format (e : Error) : Option String := e.diagnostic.format

end Error

def Cause.at (cause : Cause) (span : Span) : Error := ⟨cause, some span⟩

/-! ## Defects -/

/-- What a tree put together wrongly has in a place where it cannot be. -/
inductive Defect where
  | literalType (found : Token)
  | binaryOperator (found : Token)
  | unaryOperator (found : Token)
  | assignmentOperator (found : Token)
  | updateOperator (found : Token)
  | statement (kind : String)
  | expression (kind : String)
  | receiver (kind : String)
  | severity (name : String)
deriving DecidableEq

/-- A token with the name of its type. -/
def Token.qualifiedName (t : Token) : String := "TokenType." ++ t.name

def Defect.message : Defect → String
  | .literalType found => s!"Unknown literal type: {found.qualifiedName}"
  | .binaryOperator found => s!"Unknown binary operator: {found.qualifiedName}"
  | .unaryOperator found => s!"Unknown unary operator: {found.qualifiedName}"
  | .assignmentOperator found => s!"Unknown assignment operator: {found.qualifiedName}"
  | .updateOperator found => s!"Unknown update operator: {found.qualifiedName}"
  | .statement kind => s!"Unknown statement type: {kind}"
  | .expression kind => s!"Unknown expression type: {kind}"
  | .receiver kind => s!"Unsupported call receiver: {kind}"
  | .severity name => Severity.unknownMessage name

inductive Failure where
  | error (error : Error)
  | defect (defect : Defect)

end TreeScript
