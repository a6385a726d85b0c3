/-
Programs as trees. Expressions and statements have types of their own, but a tree can also be put
together by hand, and then any operator may stand at a node, a literal may pair any datum with any
token, and a node may stray into a place that belongs to the other type. `WellFormed` singles
out the trees without such faults.
-/
import TreeScript.Document.Text
import TreeScript.Output
import TreeScript.Span
import TreeScript.Token

namespace TreeScript

/-- A literal: an integer by its text, a text, a truth value, or any other pair of a datum and the kind
that is claimed for it. The datum has a text. -/
inductive Literal where
  | integer (text : String)
  | text (value : String)
  | boolean (value : Bool)
  | mistyped (value : Datum) (claimed : Token)

namespace Literal

def ofParts (d : Datum) (claimed : Token) : Literal :=
  match d.document, claimed with
  | .text s, .intLiteral => .integer s
  | .text s, .stringLiteral => .text s
  | .bool b, .boolLiteral => .boolean b
  | _, _ => .mistyped d claimed

def datum : Literal → Document
  | .integer s => .text s
  | .text s => .text s
  | .boolean b => .bool b
  | .mistyped d _ => d.document

def type : Literal → Token
  | .integer _ => .intLiteral
  | .text _ => .stringLiteral
  | .boolean _ => .boolLiteral
  | .mistyped _ t => t

end Literal

/-- The severity at an output statement: a known one, or a name that may not be one. -/
inductive Level where
  | known (severity : Severity)
  | named (name : String)
deriving DecidableEq

namespace Level

/-- The level of a name; only the names of severities as they are spelled are known. -/
def ofName (name : String) : Level :=
  match [Severity.info, .warn, .error].find? (·.name == name) with
  | some severity => known severity
  | none => named name

def name : Level → String
  | known severity => severity.name
  | named name => name

end Level

/-- The variable that an assignment or an update is aimed at. -/
structure Target where
  span : Span
  name : String
deriving DecidableEq

mutual

inductive Expr where
  | literal (span : Span) (literal : Literal)
  | identifier (span : Span) (name : String)
  | binary (span : Span) (left : Expr) (op : Token) (right : Expr)
  | unary (span : Span) (op : Token) (operand : Expr)
  | call (span : Span) (receiver : Expr) (method : String) (args : List Expr)
  /-- A statement where an expression belongs. -/
  | stray (stmt : Stmt)

inductive Stmt where
  | declare (span : Span) (name : String) (isMutable : Bool) (init : Option Expr)
  | assign (span : Span) (target : Target) (value : Expr) (op : Token)
  | update (span : Span) (target : Target) (op : Token)
  | output (span : Span) (level : Level) (argument : Expr)
  | expression (span : Span) (expr : Expr)
  | block (body : Block)
  | forLoop (span : Span) (init : Option Stmt) (test : Option Expr) (update : Option Stmt) (body : Block)
  | whileLoop (span : Span) (test : Expr) (body : Block)
  | ifElse (span : Span) (test : Expr) (thenBranch : Block) (elseBranch : Option Stmt)
  /-- An expression where a statement belongs. -/
  | stray (expr : Expr)

/-- Statements with a scope of their own. -/
inductive Block where
  | mk (span : Span) (statements : List Stmt)

end

instance : Inhabited Expr := ⟨.identifier .none ""⟩
instance : Inhabited Block := ⟨.mk .none []⟩
instance : Inhabited Stmt := ⟨.block default⟩

/-- A whole program. Its name is any datum that the document gives. -/
structure Program where
  statements : List Stmt
  name : Document

def Program.defaultName : String := "<program>"

/-! ## Parts -/

def Block.span : Block → Span
  | .mk span _ => span

def Block.statements : Block → List Stmt
  | .mk _ statements => statements

mutual

def Stmt.span : Stmt → Span
  | .declare span .. => span
  | .assign span .. => span
  | .update span .. => span
  | .output span .. => span
  | .expression span _ => span
  | .block body => body.span
  | .forLoop span .. => span
  | .whileLoop span .. => span
  | .ifElse span .. => span
  | .stray expr => expr.span

def Expr.span : Expr → Span
  | .literal span _ => span
  | .identifier span _ => span
  | .binary span .. => span
  | .unary span .. => span
  | .call span .. => span
  | .stray stmt => stmt.span

end

mutual

def Stmt.kindName : Stmt → String
  | .declare .. => "VarDecl"
  | .assign .. => "AssignmentStatement"
  | .update .. => "UpdateStatement"
  | .output .. => "OutputStatement"
  | .expression .. => "ExpressionStatement"
  | .block _ => "Block"
  | .forLoop .. => "ForStatement"
  | .whileLoop .. => "WhileStatement"
  | .ifElse .. => "IfStatement"
  | .stray expr => expr.kindName

def Expr.kindName : Expr → String
  | .literal .. => "Literal"
  | .identifier .. => "Identifier"
  | .binary .. => "BinaryOp"
  | .unary .. => "UnaryOp"
  | .call .. => "MethodCall"
  | .stray stmt => stmt.kindName

end

/-- How messages refer to the receiver and the method of a call. -/
def calleeName (receiver : Expr) (method : String) : String :=
  match receiver with
  | .identifier _ name => name ++ "." ++ method
  | _ => "<expr>." ++ method

/-! ## Well-formed trees -/

def Literal.WellFormed : Literal → Prop
  | .mistyped .. => False
  | _ => True

def Level.WellFormed : Level → Prop
  | .known _ => True
  | .named _ => False

mutual

/-- Every operator fits its node, literals and names are what they should be, calls have a named
receiver, and no statement has strayed in. -/
def Expr.WellFormed : Expr → Prop
  | .literal _ literal => literal.WellFormed
  | .identifier _ name => name ≠ ""
  | .binary _ left op right => left.WellFormed ∧ op.isBinary ∧ right.WellFormed
  | .unary _ op operand => op.isUnary ∧ operand.WellFormed
  | .call _ (.identifier _ name) method args => name ≠ "" ∧ method ≠ "" ∧ argsWellFormed args
  | .call .. => False
  | .stray _ => False

def argsWellFormed : List Expr → Prop
  | [] => True
  | e :: rest => e.WellFormed ∧ argsWellFormed rest

end

mutual

/-- The same for statements and all that they contain. -/
def Stmt.WellFormed : Stmt → Prop
  | .declare _ name _ init => name ≠ "" ∧ optionalExprWellFormed init
  | .assign _ target value op => target.name ≠ "" ∧ value.WellFormed ∧ op.isAssignment
  | .update _ target op => target.name ≠ "" ∧ op.isUpdate
  | .output _ level argument => level.WellFormed ∧ argument.WellFormed
  | .expression _ expr => expr.WellFormed
  | .block body => body.WellFormed
  | .forLoop _ init test update body =>
    optionalStmtWellFormed init ∧ optionalExprWellFormed test ∧ optionalStmtWellFormed update ∧ body.WellFormed
  | .whileLoop _ test body => test.WellFormed ∧ body.WellFormed
  | .ifElse _ test thenBranch elseBranch =>
    test.WellFormed ∧ thenBranch.WellFormed ∧ optionalStmtWellFormed elseBranch
  | .stray _ => False

def Block.WellFormed : Block → Prop
  | .mk _ statements => statementsWellFormed statements

def statementsWellFormed : List Stmt → Prop
  | [] => True
  | s :: rest => s.WellFormed ∧ statementsWellFormed rest

def optionalStmtWellFormed : Option Stmt → Prop
  | none => True
  | some s => s.WellFormed

def optionalExprWellFormed : Option Expr → Prop
  | none => True
  | some e => e.WellFormed

end

def Program.WellFormed (p : Program) : Prop := statementsWellFormed p.statements

end TreeScript
