/-
The texts of scalars: plain ones, quoted ones, and blocks of lines. Each function starts at the
first character of a scalar and gives its text and the place behind it. Line breaks inside a
scalar are folded: one alone becomes a space, of several the first is dropped.
-/
import TreeScript.Text.Numeral
import TreeScript.Yaml.Cursor

namespace TreeScript.Yaml

structure Lexeme where
  text : String
  next : Cursor

/-- What a break and the further breaks after it fold to. -/
def folded (first : Char) (more : List Char) : List Char :=
  if first != '\n' then first :: more
  else if more.isEmpty then [' ']
  else more

/-! ## Plain scalars -/

/-- The characters up to one that ends a plain scalar or a gap in it. -/
def plainWord (inFlow : Bool) : List Char → List Char
  | [] => []
  | x :: rest =>
    let next := rest.headD nul
    if isWhite x then []
    else if x == ':' && (isWhite next || (inFlow && [',', '[', ']', '\x7b', '\x7d'].contains next)) then []
    else if inFlow && [',', '?', '[', ']', '\x7b', '\x7d'].contains x then []
    else x :: plainWord inFlow rest

/-- Further breaks and the spaces between them, up to a document marker; the flag says whether one was met. -/
def plainBreaks : Nat → List Char → Cursor → List Char × Cursor × Bool
  | 0, done, c => (done.reverse, c, false)
  | fuel + 1, done, c =>
    if c.peek == ' ' then plainBreaks fuel done c.advance
    else
      match c.lineBreak? with
      | none => (done.reverse, c, false)
      | some (x, c) => if c.isDocumentMarker then ([], c, true) else plainBreaks fuel (x :: done) c

/-- The gap after a word of a plain scalar: what it folds to, the place behind it, and whether it holds a
line break. Nothing comes of a gap before a document marker. -/
def plainGap (c : Cursor) : List Char × Cursor × Bool :=
  let spaces := c.run (· == ' ')
  let c := c.advanceBy spaces.length
  match c.lineBreak? with
  | none => (spaces, c, false)
  | some (first, c) =>
    if c.isDocumentMarker then ([], c, true)
    else
      let (more, c, marker) := plainBreaks (c.left + 1) [] c
      (if marker then [] else folded first more, c, true)

/-- A plain scalar from here on, and whether a line break came after its last word. -/
def plainFrom (inFlow : Bool) (indent : Int) : Nat → String → List Char → Bool → Cursor → Lexeme × Bool
  | 0, text, _, broken, c => (⟨text, c⟩, broken)
  | fuel + 1, text, gap, broken, c =>
    let word := if c.peek == '#' then [] else plainWord inFlow c.rest
    if word.isEmpty then (⟨text, c⟩, broken)
    else
      let text := text ++ String.ofList gap ++ String.ofList word
      let (gap, c, broken) := plainGap (c.advanceBy word.length)
      if gap.isEmpty || c.peek == '#' || (!inFlow && c.column < indent) then (⟨text, c⟩, broken)
      else plainFrom inFlow indent fuel text gap broken c

def plainScalar (inFlow : Bool) (indent : Int) (c : Cursor) : Lexeme × Bool :=
  plainFrom inFlow indent (c.left + 1) "" [] false c

/-! ## Quoted scalars -/

/-- The breaks after the first one in a quoted scalar, with the white space around them. -/
def quotedBreaks : Nat → List Char → Cursor → Step (List Char × Cursor)
  | 0, _, _ => refuse
  | fuel + 1, done, c =>
    if c.isDocumentMarker then refuse
    else
      let c := c.skip fun x => x == ' ' || x == '\t'
      match c.lineBreak? with
      | none => .ok (done.reverse, c)
      | some (x, c) => quotedBreaks fuel (x :: done) c

/-- The white space here, folded if it holds a break. -/
def quotedGap (c : Cursor) : Step (List Char × Cursor) :=
  let spaces := c.run fun x => x == ' ' || x == '\t'
  let c := c.advanceBy spaces.length
  if c.peek == nul then refuse
  else
    match c.lineBreak? with
    | none => .ok (spaces, c)
    | some (first, c) => (quotedBreaks (c.left + 1) [] c).map fun (more, c) => (folded first more, c)

def simpleEscape? : Char → Option Char
  | '0' => some '\x00'
  | 'a' => some '\x07'
  | 'b' => some '\x08'
  | 't' => some '\t'
  | '\t' => some '\t'
  | 'n' => some '\n'
  | 'v' => some '\x0b'
  | 'f' => some '\x0c'
  | 'r' => some '\r'
  | 'e' => some '\x1b'
  | ' ' => some ' '
  | '"' => some '"'
  | '\\' => some '\\'
  | '/' => some '/'
  | 'N' => some '\x85'
  | '_' => some '\xa0'
  | 'L' => some '\u2028'
  | 'P' => some '\u2029'
  | _ => none

/-- How many hexadecimal digits a letter after a backslash announces. -/
def codeLength? : Char → Option Nat
  | 'x' => some 2
  | 'u' => some 4
  | 'U' => some 8
  | _ => none

/-- The number of so many hexadecimal digits here, and the place behind them. -/
def hexCode (count : Nat) (c : Cursor) : Step (Nat × Cursor) :=
  let digits := c.rest.take count
  match Text.nat? 16 digits with
  | some n => if digits.length = count then .ok (n, c.advanceBy count) else refuse
  | none => refuse

/-- The character of a code. Half of a surrogate pair is none, and two halves are not put together. -/
def charOfCode (n : Nat) : Step Char :=
  if 0x7fffffff < n then .error .hugeCode
  else if 0x10ffff < n then .error (.value "chr() arg not in range(0x110000)")
  else if 0xd800 ≤ n ∧ n < 0xe000 then .error .halfPair
  else .ok (Char.ofNat n)

/-- What the escape behind a backslash stands for; a line break there stands for the breaks after it. -/
def doubleEscape (c : Cursor) : Step (List Char × Cursor) :=
  match simpleEscape? c.peek, codeLength? c.peek with
  | some x, _ => .ok ([x], c.advance)
  | none, some k => do
    let (n, c) ← hexCode k c.advance
    return ([← charOfCode n], c)
  | none, none =>
    match c.lineBreak? with
    | some (_, c) => quotedBreaks (c.left + 1) [] c
    | none => refuse

def isQuotedStop (x : Char) : Bool := x == '\'' || x == '"' || x == '\\' || x == '\t' || isGap x

/-- The rest of a quoted scalar after its opening quote. -/
def quotedFrom (double : Bool) : Nat → String → Cursor → Step Lexeme
  | 0, _, _ => refuse
  | fuel + 1, text, c =>
    let word := c.run (!isQuotedStop ·)
    let text := text ++ String.ofList word
    let c := c.advanceBy word.length
    let x := c.peek
    if !double && x == '\'' && c.peekAt 1 == '\'' then quotedFrom double fuel (text.push '\'') (c.advanceBy 2)
    else if x == (if double then '"' else '\'') then .ok ⟨text, c.advance⟩
    else if x == '\'' || x == '"' || (x == '\\' && !double) then quotedFrom double fuel (text.push x) c.advance
    else
      match if x == '\\' then doubleEscape c.advance else quotedGap c with
      | .ok (chars, c) => quotedFrom double fuel (text ++ String.ofList chars) c
      | .error e => .error e

def quotedScalar (double : Bool) (c : Cursor) : Step Lexeme := quotedFrom double (c.left + 1) "" c.advance

/-! ## Blocks of lines -/

/-- What becomes of the line breaks at the end of a block: all but the first are clipped, none is kept, or all
are. -/
inductive Chomping where
  | clip | strip | keep
deriving DecidableEq

def chomping? : Char → Option Chomping
  | '+' => some .keep
  | '-' => some .strip
  | _ => none

/-- The indentation that a digit asks for; zero is refused. -/
def increment? (x : Char) : Step (Option Nat) :=
  if x == '0' then refuse
  else if x.isDigit then .ok (some (Text.digitValue x))
  else .ok none

/-- The indicators in the header of a block, in either order. -/
def blockHeader (c : Cursor) : Step (Chomping × Option Nat × Cursor) := do
  let result ← match chomping? c.peek with
    | some chomping =>
      let c := c.advance
      match ← increment? c.peek with
      | some n => pure (chomping, some n, c.advance)
      | none => pure (chomping, none, c)
    | none =>
      match ← increment? c.peek with
      | some n =>
        let c := c.advance
        match chomping? c.peek with
        | some chomping => pure (chomping, some n, c.advance)
        | none => pure (Chomping.clip, some n, c)
      | none => pure (Chomping.clip, none, c)
  if isGap result.2.2.peek then return result else refuse

/-- The empty lines before the first line of a block, and the widest column that spaces reach in them. -/
def blockIndentation : Nat → List Char → Nat → Cursor → List Char × Nat × Cursor
  | 0, done, widest, c => (done.reverse, widest, c)
  | fuel + 1, done, widest, c =>
    if c.peek == ' ' then
      let c := c.advance
      blockIndentation fuel done (max widest c.column) c
    else
      match c.lineBreak? with
      | some (x, c) => blockIndentation fuel (x :: done) widest c
      | none => (done.reverse, widest, c)

/-- Passes spaces up to a column. -/
def skipIndent (indent : Nat) (c : Cursor) : Cursor :=
  c.advanceBy ((c.run (· == ' ')).take (indent - c.column)).length

/-- The breaks of empty lines, up to a line that is indented. -/
def blockBreaks (indent : Nat) : Nat → List Char → Cursor → List Char × Cursor
  | 0, done, c => (done.reverse, c)
  | fuel + 1, done, c =>
    let c := skipIndent indent c
    match c.lineBreak? with
    | some (x, c) => blockBreaks indent fuel (x :: done) c
    | none => (done.reverse, c)

/-- The lines of a block. `breaks` are the empty lines before the next one, and the results are the text, the
last break, the empty lines after it, and the place behind them. -/
def blockLines (fold : Bool) (indent : Nat) :
    Nat → String → Option Char → List Char → Cursor → String × Option Char × List Char × Cursor
  | 0, text, last, breaks, c => (text, last, breaks, c)
  | fuel + 1, text, last, breaks, c =>
    if c.column != indent || c.peek == nul then (text, last, breaks, c)
    else
      let starts := !(c.peek == ' ' || c.peek == '\t')
      let line := c.run (!isLineEnd ·)
      let text := text ++ String.ofList breaks ++ String.ofList line
      let c := c.advanceBy line.length
      let last := c.lineBreak?.map Prod.fst
      let (breaks, c) := blockBreaks indent (c.left + 1) [] c.skipBreak
      if c.column == indent && c.peek != nul then
        let joint :=
          if fold && last == some '\n' && starts && !(c.peek == ' ' || c.peek == '\t') then
            (if breaks.isEmpty then " " else "")
          else String.ofList last.toList
        blockLines fold indent fuel (text ++ joint) last breaks c
      else (text, last, breaks, c)

/-- The block scalar whose indicator stands here, below a node of some indentation. -/
def blockScalar (fold : Bool) (parent : Int) (c : Cursor) : Step Lexeme := do
  let (chomping, increment, c) ← blockHeader c.advance
  let c ← c.finishLine
  let least := (max (parent + 1) 1).toNat
  let fuel := c.left + 1
  let (indent, breaks, c) :=
    match increment with
    | none =>
      let (breaks, widest, c) := blockIndentation fuel [] 0 c
      (max least widest, breaks, c)
    | some n =>
      let indent := least + n - 1
      let (breaks, c) := blockBreaks indent fuel [] c
      (indent, breaks, c)
  let (text, last, breaks, c) := blockLines fold indent fuel "" none breaks c
  let tail :=
    match chomping with
    | .strip => []
    | .clip => last.toList
    | .keep => last.toList ++ breaks
  return ⟨text ++ String.ofList tail, c⟩

end TreeScript.Yaml
