/-
The grammar of programs as documents. It says what a document must be to stand for a statement or an expression, kind
by kind: the keys that a node of the kind must have, and those that it may have. Whatever else a document holds does
not matter. No reading of the document comes into it. Only one thing is left open, which data may stand in an integer
literal: any of them, or just those that have a text.
-/
import Mathlib.Tactic
import TreeScript.Document.Text
import TreeScript.Text.Blank
import TreeScript.Token

namespace TreeScript

/-! ## Finite documents -/

mutual

/-- No list and no map inside of the document contains itself, so that no label stands in the place of a value. The
keys of a map and the members of a set are scalars. -/
def Document.Finite : Document → Prop
  | .list items => itemsFinite items
  | .pair a b => a.Finite ∧ b.Finite
  | .map entries => entriesFinite entries
  | .labelled _ _ => False
  | .again _ => False
  | _ => True

def itemsFinite : List Document → Prop
  | [] => True
  | d :: rest => d.Finite ∧ itemsFinite rest

def entriesFinite : List (Document × Document) → Prop
  | [] => True
  | (_, d) :: rest => d.Finite ∧ entriesFinite rest

end

theorem entriesFinite_iff {entries : List (Document × Document)} :
    entriesFinite entries ↔ ∀ e ∈ entries, e.2.Finite := by
  induction entries with
  | nil => simp [entriesFinite]
  | cons e rest ih => rw [entriesFinite, ih, List.forall_mem_cons]

namespace Grammar

open Document

/-- The entries of a map. -/
abbrev Entries := List (Document × Document)

/-! ## Kinds and operators -/

inductive StatementKind where
  | declaration | assignment | update | output | effect | block | forLoop | whileLoop | ifElse
deriving DecidableEq

def StatementKind.name : StatementKind → String
  | declaration => "VarDecl"
  | assignment => "Assign"
  | update => "Update"
  | output => "Output"
  | effect => "Expression"
  | block => "Block"
  | forLoop => "For"
  | whileLoop => "While"
  | ifElse => "If"

theorem StatementKind.name_inj {a b : StatementKind} (h : a.name = b.name) : a = b := by
  cases a <;> cases b <;> first | rfl | simp [name] at h

inductive ExpressionKind where
  | literal | identifier | binary | unary | call
deriving DecidableEq

def ExpressionKind.name : ExpressionKind → String
  | literal => "Literal"
  | identifier => "Identifier"
  | binary => "Binary"
  | unary => "Unary"
  | call => "Call"

theorem ExpressionKind.name_inj {a b : ExpressionKind} (h : a.name = b.name) : a = b := by
  cases a <;> cases b <;> first | rfl | simp [name] at h

def assignmentOperators : List String := ["=", "+=", "-=", "*="]

def updateOperators : List String := ["++", "--"]

def unaryOperators : List String := ["-", "!"]

def binaryOperators : List String :=
  ["+", "-", "*", "/", "%", "==", "===", "!=", "!==", "<", "<=", ">", ">=", "&&", "||"]

/-! ## Fields -/

/-- What is under the key, if there is such a key, satisfies a condition. -/
def WhenThere (key : String) (P : Document → Prop) (entries : Entries) : Prop :=
  ∀ d, field? key entries = some d → P d

/-- The same, but the key may also hold null. -/
def WhenGiven (key : String) (P : Document → Prop) (entries : Entries) : Prop :=
  ∀ d, field? key entries = some d → d ≠ .null → P d

section

variable {key : String} {P : Document → Prop} {entries : Entries}

theorem whenThere_of_none (h : field? key entries = none) : WhenThere key P entries := by
  intro d hd
  rw [h] at hd
  cases hd

theorem whenThere_iff {d : Document} (h : field? key entries = some d) : WhenThere key P entries ↔ P d := by
  constructor
  · intro hP
    exact hP d h
  · intro hP d' hd
    rw [h] at hd
    cases hd
    exact hP

theorem WhenThere.given (h : WhenThere key P entries) : WhenGiven key P entries := fun d hd _ => h d hd

theorem whenGiven_null (h : field? key entries = some .null) : WhenGiven key P entries := by
  intro d hd hnull
  rw [h] at hd
  cases hd
  exact absurd rfl hnull

theorem whenGiven_iff {d : Document} (h : field? key entries = some d) (hnull : d ≠ .null) :
    WhenGiven key P entries ↔ P d := by
  constructor
  · intro hP
    exact hP d h hnull
  · intro hP
    exact ((whenThere_iff h).mpr hP).given

end

def HasName (key : String) (entries : Entries) : Prop := ∃ s, field? key entries = some (.text s) ∧ s ≠ ""

def IsOperator (symbols : List String) (d : Document) : Prop := ∃ s ∈ symbols, d = .text s

def HasOperator (symbols : List String) (entries : Entries) : Prop :=
  ∃ d, field? "op" entries = some d ∧ IsOperator symbols d

/-- A number that a line or a column may be. -/
def IsPlace (d : Document) : Prop := ∃ n : Nat, d = .int n

/-- A node without a line, or one with a line and perhaps a column. A column without a line does not matter. -/
inductive Positioned (entries : Entries) : Prop where
  | nowhere (h : WhenGiven "line" (fun _ => False) entries)
  | line {d : Document} (h : field? "line" entries = some d) (hline : IsPlace d)
    (hcolumn : WhenThere "column" IsPlace entries)

/-- The first of the keys `int`, `string` and `bool` decides. The datum of an integer is among the given ones. -/
inductive LiteralFields (A : Document → Prop) (entries : Entries) : Prop where
  | integer {d : Document} (h : field? "int" entries = some d) (hnull : d ≠ .null) (hbool : ∀ b, d ≠ .bool b)
    (hd : A d)
  | text {s : String} (hint : field? "int" entries = none) (h : field? "string" entries = some (.text s))
  | boolean {b : Bool} (hint : field? "int" entries = none) (hstring : field? "string" entries = none)
    (h : field? "bool" entries = some (.bool b))

section

variable {A : Document → Prop} {entries : Entries} {d : Document}

theorem literalFields_int (h : field? "int" entries = some d) :
    LiteralFields A entries ↔ (d ≠ .null ∧ ∀ b, d ≠ .bool b) ∧ A d := by
  constructor
  · intro hfields
    cases hfields with
    | integer h' hnull hbool hd =>
      rw [h] at h'
      cases h'
      exact ⟨⟨hnull, hbool⟩, hd⟩
    | text hint _ | boolean hint _ _ =>
      rw [h] at hint
      cases hint
  · rintro ⟨⟨hnull, hbool⟩, hd⟩
    exact .integer h hnull hbool hd

theorem literalFields_string (hint : field? "int" entries = none) (h : field? "string" entries = some d) :
    LiteralFields A entries ↔ ∃ s, d = .text s := by
  constructor
  · intro hfields
    cases hfields with
    | integer h' _ _ _ =>
      rw [hint] at h'
      cases h'
    | text _ h' =>
      rw [h] at h'
      cases h'
      exact ⟨_, rfl⟩
    | boolean _ hstring _ =>
      rw [h] at hstring
      cases hstring
  · rintro ⟨s, rfl⟩
    exact .text hint h

theorem literalFields_bool (hint : field? "int" entries = none) (hstring : field? "string" entries = none) :
    LiteralFields A entries ↔ ∃ b, field? "bool" entries = some (.bool b) := by
  constructor
  · intro hfields
    cases hfields with
    | integer h' _ _ _ =>
      rw [hint] at h'
      cases h'
    | text _ h' =>
      rw [hstring] at h'
      cases h'
    | boolean _ _ h => exact ⟨_, h⟩
  · rintro ⟨b, h⟩
    exact .boolean hint hstring h

end

/-- What may stand in the place of an empty list. -/
inductive Void : Document → Prop where
  | null : Void .null
  | bool : Void (.bool false)
  | int : Void (.int 0)
  | double {x : Double} (h : x.isZero = true) : Void (.double x)
  | text : Void (.text "")
  | bytes : Void (.bytes [])
  | list : Void (.list [])
  | set : Void (.set [])
  | map : Void (.map [])

/-- A document is void exactly if it does not count as true. -/
theorem void_iff {d : Document} (h : d.isLabelled = false) : Void d ↔ d.isTruthy = false := by
  constructor
  · intro hd
    cases hd with
    | double hx => simp [isTruthy, hx]
    | _ => rfl
  · intro hd
    cases d with
    | null => exact .null
    | bool b =>
      cases b with
      | false => exact .bool
      | true => cases hd
    | int n =>
      obtain rfl : n = 0 := by simpa [isTruthy] using hd
      exact .int
    | double x => exact .double (by simpa [isTruthy] using hd)
    | text s =>
      obtain rfl : s = "" := by simpa [isTruthy] using hd
      exact .text
    | bytes b =>
      obtain rfl : b = [] := by simpa [isTruthy] using hd
      exact .bytes
    | list items =>
      obtain rfl : items = [] := by simpa [isTruthy] using hd
      exact .list
    | set items =>
      obtain rfl : items = [] := by simpa [isTruthy] using hd
      exact .set
    | map entries =>
      obtain rfl : entries = [] := by simpa [isTruthy] using hd
      exact .map
    | labelled label content => cases h
    | date _ | moment _ | pair _ _ | again _ => cases hd

/-! ## Nodes -/

section

variable (A : Document → Prop)

mutual

inductive IsExpression : Document → Prop where
  | node {kind : ExpressionKind} {entries : Entries} (hposition : Positioned entries)
    (hkind : field? "node" entries = some (.text kind.name)) (hfields : ExpressionFields kind entries) :
    IsExpression (.map entries)

inductive ExpressionFields : ExpressionKind → Entries → Prop where
  | literal {entries : Entries} (h : LiteralFields A entries) : ExpressionFields .literal entries
  | identifier {entries : Entries} (hname : HasName "name" entries) : ExpressionFields .identifier entries
  | binary {entries : Entries} {left right : Document} (hleft : field? "left" entries = some left)
    (hl : IsExpression left) (hop : HasOperator binaryOperators entries)
    (hright : field? "right" entries = some right) (hr : IsExpression right) : ExpressionFields .binary entries
  | unary {entries : Entries} {operand : Document} (hop : HasOperator unaryOperators entries)
    (hoperand : field? "operand" entries = some operand) (h : IsExpression operand) : ExpressionFields .unary entries
  | call {entries : Entries} (hargs : WhenThere "args" IsArgs entries) (hobject : HasName "object" entries)
    (hmethod : HasName "method" entries) : ExpressionFields .call entries

inductive IsArgs : Document → Prop where
  | void {d : Document} (h : Void d) : IsArgs d
  | list {items : List Document} (h : ∀ d ∈ items, IsExpression d) : IsArgs (.list items)

end

mutual

inductive IsStatement : Document → Prop where
  | node {kind : StatementKind} {entries : Entries} (hposition : Positioned entries)
    (hkind : field? "node" entries = some (.text kind.name)) (hfields : StatementFields kind entries) :
    IsStatement (.map entries)

inductive StatementFields : StatementKind → Entries → Prop where
  | declaration {entries : Entries} (hkind : WhenThere "kind" (fun d => d = .text "let" ∨ d = .text "const") entries)
    (hname : HasName "name" entries) (hinit : WhenGiven "init" (IsExpression A) entries) :
    StatementFields .declaration entries
  | assignment {entries : Entries} {value : Document}
    (hop : WhenThere "op" (IsOperator assignmentOperators) entries) (htarget : HasName "target" entries)
    (hvalue : field? "value" entries = some value) (h : IsExpression A value) : StatementFields .assignment entries
  | update {entries : Entries} (htarget : HasName "target" entries) (hop : HasOperator updateOperators entries) :
    StatementFields .update entries
  | output {entries : Entries} {value : Document}
    (hseverity : WhenThere "severity" (fun d => ∃ s ∈ d.plain, Text.lower s ∈ ["info", "warn", "error"]) entries)
    (hvalue : field? "value" entries = some value) (h : IsExpression A value) : StatementFields .output entries
  | effect {entries : Entries} {e : Document} (hexpression : field? "expression" entries = some e)
    (h : IsExpression A e) : StatementFields .effect entries
  | block {entries : Entries} {body : Document} (hbody : field? "body" entries = some body) (h : IsBody body) :
    StatementFields .block entries
  | forLoop {entries : Entries} {body : Document} (hinit : WhenGiven "init" IsStatement entries)
    (htest : WhenGiven "test" (IsExpression A) entries) (hupdate : WhenGiven "update" IsStatement entries)
    (hbody : field? "body" entries = some body) (h : IsBody body) : StatementFields .forLoop entries
  | whileLoop {entries : Entries} {test body : Document} (htest : field? "test" entries = some test)
    (ht : IsExpression A test) (hbody : field? "body" entries = some body) (h : IsBody body) :
    StatementFields .whileLoop entries
  | ifElse {entries : Entries} {test body : Document} (helse : WhenGiven "else" IsElse entries)
    (htest : field? "test" entries = some test) (ht : IsExpression A test) (hthen : field? "then" entries = some body)
    (h : IsBody body) : StatementFields .ifElse entries

inductive IsBody : Document → Prop where
  | void {d : Document} (h : Void d) : IsBody d
  | list {items : List Document} (h : ∀ d ∈ items, IsStatement d) : IsBody (.list items)

/-- The other branch of a condition: statements or one statement. -/
inductive IsElse : Document → Prop where
  | list {items : List Document} (h : ∀ d ∈ items, IsStatement d) : IsElse (.list items)
  | statement {d : Document} (h : IsStatement d) : IsElse d

end

/-! ## Programs -/

/-- What stands for the statements of a program. -/
inductive IsStatements : Document → Prop where
  | null : IsStatements .null
  | list {items : List Document} (h : ∀ d ∈ items, IsStatement A d) : IsStatements (.list items)

/-- A program: its statements, or a map that has them under the key `program`. -/
inductive IsProgram : Document → Prop where
  | bare {d : Document} (h : IsStatements A d) : IsProgram d
  | map {entries : Entries} {d : Document} (hprogram : field? "program" entries = some d) (h : IsStatements A d) :
    IsProgram (.map entries)

end

end Grammar

end TreeScript
