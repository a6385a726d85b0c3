/-
A place in a YAML text: the characters still to come, how many came before, and the line and the
column. Past the end there is a NUL, which no text contains.
-/
import TreeScript.Document.Undecodable

namespace TreeScript.Yaml

/-- The result of a step that the text may not allow. -/
abbrev Step := Except Undecodable

/-- The text breaks a rule of the format. -/
def refuse {α : Type} : Step α := .error .notYaml

/-! ## Characters -/

/-- What comes after the last character. -/
def nul : Char := '\x00'

def byteOrderMark : Char := '\ufeff'

def isBreak (c : Char) : Bool := c == '\r' || c == '\n' || c == '\x85' || c == '\u2028' || c == '\u2029'

def isLineEnd (c : Char) : Bool := c == nul || isBreak c

def isGap (c : Char) : Bool := c == ' ' || isLineEnd c

def isWhite (c : Char) : Bool := c == '\t' || isGap c

/-- The characters of names of anchors, handles and directives. -/
def isNameChar (c : Char) : Bool := c.isAlphanum || c == '-' || c == '_'

/-- Whether a character may be part of a YAML text at all. -/
def isAllowed (c : Char) : Bool :=
  let n := c.toNat
  n == 9 || n == 10 || n == 13 || (0x20 ≤ n && n ≤ 0x7e) || n == 0x85 || (0xa0 ≤ n && n ≤ 0xd7ff) ||
    (0xe000 ≤ n && n ≤ 0xfffd) || 0x10000 ≤ n

/-! ## Cursors -/

/-- The rest of a text, where it starts, and the number of characters of the whole text. -/
structure Cursor where
  rest : List Char
  index : Nat
  line : Nat
  column : Nat
  size : Nat

namespace Cursor

def start (text : String) : Cursor := ⟨text.toList, 0, 0, 0, text.length⟩

def left (c : Cursor) : Nat := c.size - c.index

def peek (c : Cursor) : Char := c.rest.headD nul

/-- The character `k` places on. -/
def peekAt (c : Cursor) (k : Nat) : Char := c.rest.getD k nul

/-- Passes one character. A carriage return before a line feed does not end the line yet, and a byte order
mark takes no column. -/
def advance (c : Cursor) : Cursor :=
  match c.rest with
  | [] => c
  | x :: rest =>
    let c := { c with rest := rest, index := c.index + 1 }
    if isBreak x && !(x == '\r' && rest.head? == some '\n') then { c with line := c.line + 1, column := 0 }
    else if x == byteOrderMark then c
    else { c with column := c.column + 1 }

def advanceBy (c : Cursor) : Nat → Cursor
  | 0 => c
  | n + 1 => c.advance.advanceBy n

def run (c : Cursor) (p : Char → Bool) : List Char := c.rest.takeWhile p

/-- Passes the next characters that satisfy a test. -/
def skip (c : Cursor) (p : Char → Bool) : Cursor := c.advanceBy (c.run p).length

def skipSpaces (c : Cursor) : Cursor := c.skip (· == ' ')

def skipComment (c : Cursor) : Cursor := if c.peek == '#' then c.skip (!isLineEnd ·) else c

/-- The line break here, as a line feed unless it is a separator of its own. -/
def lineBreak? (c : Cursor) : Option (Char × Cursor) :=
  let x := c.peek
  if x == '\r' && c.peekAt 1 == '\n' then some ('\n', c.advanceBy 2)
  else if x == '\r' || x == '\n' || x == '\x85' then some ('\n', c.advance)
  else if x == '\u2028' || x == '\u2029' then some (x, c.advance)
  else none

def skipBreak (c : Cursor) : Cursor := (c.lineBreak?.map Prod.snd).getD c

/-- Whether three equal marks and then white space stand here. -/
def isMarker (c : Cursor) (mark : Char) : Bool :=
  c.peek == mark && c.peekAt 1 == mark && c.peekAt 2 == mark && isWhite (c.peekAt 3)

/-- Whether the marker of the start or of the end of a document stands here. -/
def isDocumentMarker (c : Cursor) : Bool := c.isMarker '-' || c.isMarker '.'

/-- Passes the rest of a line, which may hold spaces and a comment only. -/
def finishLine (c : Cursor) : Step Cursor :=
  let c := c.skipSpaces.skipComment
  if isLineEnd c.peek then .ok c.skipBreak else refuse

end Cursor

end TreeScript.Yaml
