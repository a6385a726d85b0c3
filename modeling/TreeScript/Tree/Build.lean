/-
Short ways to put trees together by hand. The nodes of a statement share its span.
-/
import TreeScript.Document.Text
import TreeScript.Tree.Basic

namespace TreeScript.Build

/-- An integer literal of the text of a datum. -/
def intLit (datum : Datum) (span : Span) : Expr := .literal span (.integer datum.plain)

/-- A text literal, if the datum is a text. -/
def strLit (datum : Datum) (span : Span) : Expr := .literal span (.ofParts datum .stringLiteral)

/-- A boolean literal that says whether the datum counts as true. -/
def boolLit (datum : Document) (span : Span) : Expr := .literal span (.boolean datum.isTruthy)

def ident (name : String) (span : Span) : Expr := .identifier span name

def binop (left : Expr) (op : Token) (right : Expr) (span : Span) : Expr := .binary span left op right

def letDecl (name : String) (init : Option Expr) (span : Span) : Stmt := .declare span name true init

def constDecl (name : String) (init : Option Expr) (span : Span) : Stmt := .declare span name false init

def assign (name : String) (value : Expr) (span : Span) : Stmt := .assign span ⟨span, name⟩ value .assign

def increment (name : String) (span : Span) : Stmt := .update span ⟨span, name⟩ .increment

def output (level : Level) (argument : Expr) (span : Span) : Stmt := .output span level argument

def consoleCall (method : String) (args : List Expr) (span : Span) : Stmt :=
  .expression span (.call span (.identifier span "console") method args)

def block (statements : List Stmt) (span : Span) : Block := .mk span statements

def forLoop (init : Option Stmt) (test : Option Expr) (update : Option Stmt) (body : Block) (span : Span) : Stmt :=
  .forLoop span init test update body

end TreeScript.Build
