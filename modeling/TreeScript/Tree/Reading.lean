/-
Reading programs from documents. A document is read from the leaves up: the `Reading` of a map or
a list is made of the readings of its parts, and says what the document is as a statement, as an
expression, and as a list of either. A node is a map whose entry `node` names its kind and whose
entries `line` and `column` give its position. Whatever is wrong with a document is an error at
the position of the node, if that has one.
-/
import TreeScript.Error
import TreeScript.Tree.Basic

namespace TreeScript

/-- What a document is in each place where it may stand. -/
structure Reading where
  document : Document
  statement : Except Error Stmt
  expression : Except Error Expr
  statements : Except Error (List Stmt)
  expressions : Except Error (List Expr)

/-- The entries of a map with the readings of their values. -/
abbrev Fields := List (Document × Reading)

def Problem.unplaced {α : Type} (p : Problem) : Except Error α := .error ⟨.document p, none⟩

def Problem.fail {α : Type} (p : Problem) (span : Span) : Except Error α := .error ((Cause.document p).at span)

/-- A text that is needed, if there is one. -/
def shown : Option String → Except Error String
  | some text => .ok text
  | none => Problem.unwritable.unplaced

/-! ## Positions -/

/-- The number that a line or a column is: an integer from zero on. -/
def positionOf (key : String) : Document → Except Error Int
  | .int n => if n < 0 then do (Problem.badPosition key (← shown (Text.ofInt? n))).unplaced else .ok n
  | d => do (Problem.badPosition key (← shown d.quoted)).unplaced

def Fields.datum? (fields : Fields) (key : String) : Option Document :=
  (Document.field? key fields).map Reading.document

/-- The reading under a key, unless there is none or the datum is null. -/
def Fields.given? (fields : Fields) (key : String) : Option Reading :=
  (Document.field? key fields).filter (!·.document.isNull)

/-- The position of a node. Without a line it has none; the column is 1 unless it is given. -/
def Fields.span (filename : Option String) (fields : Fields) : Except Error Span :=
  match fields.given? "line" with
  | none => .ok .none
  | some line => do
    let line ← positionOf "line" line.document
    let column ← positionOf "column" ((fields.datum? "column").getD (.int 1))
    .ok (.point line column filename)

/-! ## Nodes and their fields -/

/-- A node whose kind and position are known. -/
structure Node where
  kind : String
  span : Span
  fields : Fields

namespace Node

def field (n : Node) (key : String) : Except Error Reading :=
  match Document.field? key n.fields with
  | some r => .ok r
  | none => (Problem.missing n.kind key).fail n.span

/-- A name: a text that is not empty. -/
def nameField (n : Node) (key : String) : Except Error String := do
  match (← n.field key).document with
  | .text s => if s = "" then (Problem.badName key).fail n.span else .ok s
  | _ => (Problem.badName key).fail n.span

/-- An operator out of those that the node allows. -/
def operator (n : Node) (allowed : Token → Bool) : Except Error Token := do
  let symbol := (← n.field "op").document
  let found := match symbol with
    | .text s => (Token.ofSymbol? s).filter allowed
    | _ => none
  match found with
  | some op => .ok op
  | none => (Problem.badOperator (← shown symbol.quoted) n.kind).fail n.span

def expression (n : Node) (key : String) : Except Error Expr := do (← n.field key).expression

def expression? (n : Node) (key : String) : Except Error (Option Expr) :=
  match n.fields.given? key with
  | none => .ok none
  | some r => r.expression.map some

def statement? (n : Node) (key : String) : Except Error (Option Stmt) :=
  match n.fields.given? key with
  | none => .ok none
  | some r => r.statement.map some

/-- The statements under a key that must be there; a datum that counts as false has none. -/
def body (n : Node) (key : String) : Except Error Block := do
  let r ← n.field key
  if r.document.isTruthy then return .mk n.span (← r.statements)
  else return .mk n.span []

/-! ### Statements -/

def declarationKind (n : Node) : Except Error Bool :=
  match n.fields.datum? "kind" with
  | none => .ok true
  | some (.text "let") => .ok true
  | some (.text "const") => .ok false
  | some d => do (Problem.badDeclaration (← shown d.quoted)).fail n.span

def declaration (n : Node) : Except Error Stmt := do
  let isMutable ← n.declarationKind
  let name ← n.nameField "name"
  return .declare n.span name isMutable (← n.expression? "init")

def assignment (n : Node) : Except Error Stmt := do
  let op ← if (n.fields.datum? "op").isSome then n.operator Token.isAssignment else .ok .assign
  let name ← n.nameField "target"
  return .assign n.span ⟨n.span, name⟩ (← n.expression "value") op

def update (n : Node) : Except Error Stmt := do
  let name ← n.nameField "target"
  return .update n.span ⟨n.span, name⟩ (← n.operator Token.isUpdate)

/-- The severity of an output: the text of the datum, in letters of either case. -/
def severity (n : Node) : Except Error Severity :=
  let d := (n.fields.datum? "severity").getD (.text "info")
  match d.plain.bind Severity.ofName? with
  | some severity => .ok severity
  | none => do (Problem.badSeverity (← shown d.quoted)).fail n.span

def output (n : Node) : Except Error Stmt := do
  let severity ← n.severity
  return .output n.span (.known severity) (← n.expression "value")

def effect (n : Node) : Except Error Stmt := return .expression n.span (← n.expression "expression")

def block (n : Node) : Except Error Stmt := return .block (← n.body "body")

def forLoop (n : Node) : Except Error Stmt := do
  let init ← n.statement? "init"
  let test ← n.expression? "test"
  let update ← n.statement? "update"
  return .forLoop n.span init test update (← n.body "body")

def whileLoop (n : Node) : Except Error Stmt := do
  let test ← n.expression "test"
  return .whileLoop n.span test (← n.body "body")

/-- The other branch of a condition: a list of statements is a block at the place of the node. -/
def elseBranch (n : Node) : Except Error (Option Stmt) :=
  match n.fields.given? "else" with
  | none => .ok none
  | some r =>
    match r.document.content with
    | .list _ => r.statements.map fun statements => some (.block (.mk n.span statements))
    | _ => r.statement.map some

def ifElse (n : Node) : Except Error Stmt := do
  let elseBranch ← n.elseBranch
  let test ← n.expression "test"
  return .ifElse n.span test (← n.body "then") elseBranch

def statement (n : Node) : Except Error Stmt :=
  match n.kind with
  | "VarDecl" => n.declaration
  | "Assign" => n.assignment
  | "Update" => n.update
  | "Output" => n.output
  | "Expression" => n.effect
  | "Block" => n.block
  | "For" => n.forLoop
  | "While" => n.whileLoop
  | "If" => n.ifElse
  | kind => (Problem.unknownNode .statement kind).fail n.span

/-! ### Expressions -/

/-- A literal: the first of the entries `int`, `string` and `bool` that is there. The digits of an integer
are looked at only when the program runs. -/
def literal (n : Node) : Except Error Expr :=
  match n.fields.datum? "int", n.fields.datum? "string", n.fields.datum? "bool" with
  | some (.bool b), _, _ => do (Problem.badInt (← shown (Document.bool b).quoted)).fail n.span
  | some .null, _, _ => do (Problem.badInt (← shown Document.null.quoted)).fail n.span
  | some d, _, _ => do return .literal n.span (.integer (← shown d.plain))
  | none, some (.text s), _ => .ok (.literal n.span (.text s))
  | none, some d, _ => do (Problem.badString (← shown d.quoted)).fail n.span
  | none, none, some (.bool b) => .ok (.literal n.span (.boolean b))
  | none, none, some d => do (Problem.badBool (← shown d.quoted)).fail n.span
  | none, none, none => Problem.noLiteral.fail n.span

def identifier (n : Node) : Except Error Expr := return .identifier n.span (← n.nameField "name")

def binary (n : Node) : Except Error Expr := do
  let left ← n.expression "left"
  let op ← n.operator Token.isBinary
  return .binary n.span left op (← n.expression "right")

def unary (n : Node) : Except Error Expr := do
  let op ← n.operator Token.isUnary
  return .unary n.span op (← n.expression "operand")

/-- The arguments of a call: a list, or a datum that counts as false. -/
def args (n : Node) : Except Error (Option (Except Error (List Expr))) :=
  match Document.field? "args" n.fields with
  | none => .ok none
  | some r =>
    match r.document.content with
    | .list _ => .ok (some r.expressions)
    | d => if d.isTruthy then Problem.argsNotList.fail n.span else .ok none

def call (n : Node) : Except Error Expr := do
  let args ← n.args
  let object ← n.nameField "object"
  let method ← n.nameField "method"
  return .call n.span (.identifier n.span object) method (← args.getD (.ok []))

def expressionOf (n : Node) : Except Error Expr :=
  match n.kind with
  | "Literal" => n.literal
  | "Identifier" => n.identifier
  | "Binary" => n.binary
  | "Unary" => n.unary
  | "Call" => n.call
  | kind => (Problem.unknownNode .expression kind).fail n.span

end Node

/-! ## Documents -/

namespace Reading

/-- Reads a map as a node. Its kind must be a text. Another one must at least have a text, and only then comes the
position of the node. -/
def node {α : Type} (filename : Option String) (wanted : Position) (fields : Fields)
    (build : Node → Except Error α) : Except Error α :=
  match fields.datum? "node" with
  | some (.text kind) => do build ⟨kind, ← fields.span filename, fields⟩
  | d => do
    let kind ← shown (d.getD .null).plain
    (Problem.unknownNode wanted kind).fail (← fields.span filename)

/-- A document that is no node. -/
def other (d : Document) : Reading :=
  ⟨d, (Problem.notMapping .statement d).unplaced, (Problem.notMapping .expression d).unplaced,
    Problem.notStatements.unplaced, Problem.notStatements.unplaced⟩

def ofFields (filename : Option String) (d : Document) (fields : Fields) : Reading :=
  { other d with
    statement := node filename .statement fields Node.statement
    expression := node filename .expression fields Node.expressionOf }

def ofItems (d : Document) (items : List Reading) : Reading :=
  { other d with
    statements := items.mapM Reading.statement
    expressions := items.mapM Reading.expression }

/-- A document of which no more is known than that reading it goes on without end. -/
def endless : Document → Reading
  | .map entries =>
    { other (.map entries) with statement := Problem.endless.unplaced, expression := Problem.endless.unplaced }
  | .list items =>
    { other (.list items) with statements := Problem.endless.unplaced, expressions := Problem.endless.unplaced }
  | .labelled label content => { endless content with document := .labelled label content }
  | .again label =>
    ⟨.again label, Problem.endless.unplaced, Problem.endless.unplaced, Problem.endless.unplaced,
      Problem.endless.unplaced⟩
  | d => other d

/-- The reading of a document that comes up inside of itself, looked into so many levels deep. To read it in the
same way once more does not end. A statement among its own expressions fails by its kind, and so does a list of
statements by that of its first item, so that two levels are enough. -/
def ofEnclosing (filename : Option String) : Nat → Document → Reading
  | 0, d => endless d
  | depth + 1, d =>
    match d.content with
    | .map entries => ofFields filename d (entries.map fun (k, v) => (k, ofEnclosing filename depth v))
    | .list items => ofItems d (items.map (ofEnclosing filename depth))
    | _ => endless d

mutual

/-- The reading of a document from among others that have labels. -/
def inside (filename : Option String) (wholes : List (Nat × Document)) : Document → Reading
  | .map entries => ofFields filename ((Document.map entries).inside wholes) (readEntries filename wholes entries)
  | .list items => ofItems ((Document.list items).inside wholes) (readItems filename wholes items)
  | .labelled label content =>
    let whole := (Document.labelled label content).inside wholes
    { inside filename ((label, whole) :: wholes) content with document := whole }
  | .again label => ((wholes.lookup label).map (ofEnclosing filename 2)).getD (other (.again label))
  | d => other (d.inside wholes)

def readItems (filename : Option String) (wholes : List (Nat × Document)) : List Document → List Reading
  | [] => []
  | d :: rest => inside filename wholes d :: readItems filename wholes rest

def readEntries (filename : Option String) (wholes : List (Nat × Document)) :
    List (Document × Document) → List (Document × Reading)
  | [] => []
  | (k, v) :: rest => (k, inside filename wholes v) :: readEntries filename wholes rest

end

def ofDocument (filename : Option String) : Document → Reading := inside filename []

end Reading

/-- The statements of a program, from the datum under `program` or from a bare list. -/
def Program.readStatements (filename : Option String) (d : Document) : Except Error (List Stmt) :=
  match d.content with
  | .null => .ok []
  | .list _ => (Reading.ofDocument filename d).statements
  | _ => Problem.programNotList.unplaced

/-- The program that a document is: a map with the entry `program`, which may also give a name, or the
statements themselves. -/
def Program.ofDocument (filename : Option String) (name : Document) (d : Document) : Except Error Program :=
  match d.view with
  | .map entries =>
    match Document.field? "program" entries with
    | none => Problem.noProgram.unplaced
    | some statements => do
      return ⟨← readStatements filename statements, (Document.field? "name" entries).getD name⟩
  | _ => do return ⟨← readStatements filename d, name⟩

/-- The program that a document is, where the stack may not have room for all the calls that it takes to read it. -/
def Program.load (hasRoom : Document → Bool) (filename : Option String) (name d : Document) : Except Error Program :=
  if hasRoom d then ofDocument filename name d else Problem.endless.unplaced

end TreeScript
