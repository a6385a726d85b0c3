/-
The tokens of a YAML text. Most tokens are what one character says, but a key without a question
mark is noticed only at its colon, and the start and the end of a block only by the indentation.
So the scanner keeps the places where such a key may have started, one for each level of brackets,
and the columns of the open blocks. It reads no further than it must: a fault of the text comes up
when the tokens before it have been taken, and so no fault of the tokens before it is missed.
-/
import TreeScript.Yaml.Scalar

namespace TreeScript.Yaml

/-- A directive at the head of a document; unknown ones are ignored. -/
inductive Directive where
  | version (major : Nat)
  | handle (name expansion : String)
  | unknown
deriving DecidableEq

inductive Token where
  | directive (directive : Directive)
  | documentStart | documentEnd
  | blockSequenceStart | blockMappingStart | blockEnd
  | flowSequenceStart | flowSequenceEnd | flowMappingStart | flowMappingEnd
  | blockEntry | flowEntry | key | value
  | alias (name : String)
  | anchor (name : String)
  | tag (handle : Option String) (suffix : String)
  | scalar (text : String) (isPlain : Bool)
  | streamEnd
deriving DecidableEq, Inhabited

/-! ## Names, tags and directives -/

/-- The name of an anchor or an alias after its indicator. -/
def anchorName (c : Cursor) : Step Lexeme :=
  let name := c.run isNameChar
  let c := c.advanceBy name.length
  let ends := isWhite c.peek || ['?', ':', ',', ']', '\x7d', '%', '@', '`'].contains c.peek
  if name.isEmpty || !ends then refuse else .ok ⟨String.ofList name, c⟩

/-- The bytes that percent signs with two digits write, and the place behind them. -/
def escapedBytes : Nat → List UInt8 → Cursor → Step (List UInt8 × Cursor)
  | 0, done, c => .ok (done.reverse, c)
  | fuel + 1, done, c =>
    if c.peek == '%' then
      match hexCode 2 c.advance with
      | .ok (n, c) => escapedBytes fuel (n.toUInt8 :: done) c
      | .error e => .error e
    else .ok (done.reverse, c)

/-- The text of escaped bytes, which must be UTF-8. -/
def escapedText (c : Cursor) : Step Lexeme := do
  let (bytes, c) ← escapedBytes c.left [] c
  match String.fromUTF8? (ByteArray.mk bytes.toArray) with
  | some text => return ⟨text, c⟩
  | none => refuse

def isUriChar (x : Char) : Bool := x.isAlphanum || "-;/?:@&=+$,_.!~*'()[]".contains x

/-- The text of a tag or of what a handle stands for; `any` says that something has been read. -/
def uriFrom : Nat → Bool → String → Cursor → Step Lexeme
  | 0, _, _, _ => refuse
  | fuel + 1, any, text, c =>
    let word := c.run isUriChar
    let text := text ++ String.ofList word
    let c := c.advanceBy word.length
    if c.peek == '%' then
      match escapedText c with
      | .ok l => uriFrom fuel true (text ++ l.text) l.next
      | .error e => .error e
    else if any || !word.isEmpty then .ok ⟨text, c⟩
    else refuse

def uri (c : Cursor) : Step Lexeme := uriFrom (c.left + 1) false "" c

/-- A handle: an exclamation mark, or a name between two of them. -/
def tagHandle (c : Cursor) : Step Lexeme :=
  if c.peek != '!' then refuse
  else if c.peekAt 1 == ' ' then .ok ⟨"!", c.advance⟩
  else
    let name := c.advance.run isNameChar
    let c := c.advance.advanceBy name.length
    if c.peek == '!' then .ok ⟨"!" ++ String.ofList name ++ "!", c.advance⟩ else refuse

def tagToken (c : Cursor) : Step (Token × Cursor) := do
  let (token, c) ←
    if c.peekAt 1 == '<' then do
      let l ← uri (c.advanceBy 2)
      if l.next.peek == '>' then pure (Token.tag none l.text, l.next.advance) else refuse
    else if isWhite (c.peekAt 1) then pure (Token.tag none "!", c.advance)
    else do
      let word := c.advance.run (!isGap ·)
      let handle ← if word.contains '!' then tagHandle c else pure ⟨"!", c.advance⟩
      let l ← uri handle.next
      pure (Token.tag (some handle.text) l.text, l.next)
  if isGap c.peek then return (token, c) else refuse

def digits (c : Cursor) : Step (Nat × Cursor) :=
  let run := c.run Char.isDigit
  if run.isEmpty then refuse
  else .ok (Text.natOfDigits 10 run, c.advanceBy run.length)

def versionValue (c : Cursor) : Step (Directive × Cursor) := do
  let (major, c) ← digits c.skipSpaces
  if c.peek != '.' then refuse
  else
    let (_, c) ← digits c.advance
    if isGap c.peek then return (.version major, c) else refuse

def handleValue (c : Cursor) : Step (Directive × Cursor) := do
  let handle ← tagHandle c.skipSpaces
  if handle.next.peek != ' ' then refuse
  else
    let expansion ← uri handle.next.skipSpaces
    if isGap expansion.next.peek then return (.handle handle.text expansion.text, expansion.next) else refuse

def directiveToken (c : Cursor) : Step (Token × Cursor) := do
  let name := c.advance.run isNameChar
  let c := c.advance.advanceBy name.length
  if name.isEmpty || !isGap c.peek then refuse
  else
    let (directive, c) ←
      if String.ofList name == "YAML" then versionValue c
      else if String.ofList name == "TAG" then handleValue c
      else pure (.unknown, c.skip (!isLineEnd ·))
    return (.directive directive, ← c.finishLine)

/-! ## The scanner -/

/-- A place where a key may have started, and the number of tokens before it. A key that stands at the column
of an open block must turn out to be one. -/
structure SimpleKey where
  position : Nat
  required : Bool
  index : Nat
  line : Nat
  column : Nat

/-- The place in the text, the tokens that have been read but not taken, the number of those taken, whether the
end has been read, the columns of the open blocks, the depth of brackets, whether a key may start here, and the
possible keys of each depth. No more tokens than `limit` have to be read. -/
structure Scanner where
  cursor : Cursor
  pending : List Token
  taken : Nat
  done : Bool
  indent : Int
  indents : List Int
  flowLevel : Nat
  allowKey : Bool
  keys : List (Nat × SimpleKey)
  limit : Nat

namespace Scanner

/-- The scanner at the start of a text. Every reading but the last passes a character. -/
def start (text : String) : Scanner :=
  ⟨Cursor.start text, [], 0, false, -1, [], 0, true, [], text.length + 2⟩

def inFlow (s : Scanner) : Bool := 0 < s.flowLevel

def push (s : Scanner) (t : Token) : Scanner := { s with pending := s.pending ++ [t] }

/-- Enters the token that a number of characters stand for. -/
def take (s : Scanner) (n : Nat) (t : Token) : Scanner := { s.push t with cursor := s.cursor.advanceBy n }

def position (s : Scanner) : Nat := s.taken + s.pending.length

/-- Enters a token in front of those from a position on. -/
def insert (s : Scanner) (position : Nat) (t : Token) : Scanner :=
  let before := position - s.taken
  { s with pending := s.pending.take before ++ t :: s.pending.drop before }

/-! ### Possible keys -/

/-- A possible key ends with its line, and after 1024 characters. -/
def isStale (s : Scanner) (k : SimpleKey) : Bool := k.line != s.cursor.line || 1024 < s.cursor.index - k.index

/-- Gives up the possible keys that satisfy a test; none of them may be required. -/
def dropKeys (s : Scanner) (p : Nat × SimpleKey → Bool) : Step Scanner :=
  if s.keys.any fun k => p k && k.2.required then refuse
  else .ok { s with keys := s.keys.filter (!p ·) }

def dropStale (s : Scanner) : Step Scanner := s.dropKeys fun k => s.isStale k.2

def dropKey (s : Scanner) : Step Scanner := s.dropKeys (·.1 == s.flowLevel)

def saveKey (s : Scanner) : Step Scanner :=
  if s.allowKey then do
    let s ← s.dropKey
    let c := s.cursor
    let required := !s.inFlow && s.indent == c.column
    return { s with keys := (s.flowLevel, ⟨s.position, required, c.index, c.line, c.column⟩) :: s.keys }
  else .ok s

/-! ### Indentation -/

/-- Closes the blocks that are indented further than a column; brackets suspend indentation. -/
def unwind (s : Scanner) (column : Int) : Scanner :=
  if s.inFlow then s
  else
    let closed := (s.indent :: s.indents).takeWhile (column < ·)
    let still := (s.indent :: s.indents).drop closed.length
    { s with
      pending := s.pending ++ List.replicate closed.length Token.blockEnd
      indent := still.headD (-1)
      indents := still.tail }

/-- Opens a block at a column, unless there is one already. -/
def openBlock (s : Scanner) (column : Nat) : Option Scanner :=
  if s.indent < column then some { s with indent := column, indents := s.indent :: s.indents } else none

def openBlockHere (s : Scanner) (t : Token) : Scanner :=
  match s.openBlock s.cursor.column with
  | some s => s.push t
  | none => s

/-- Refuses what may not start where no key may. -/
def needKey (s : Scanner) : Step Scanner := if s.allowKey then .ok s else refuse

/-! ### Single tokens -/

def fetchEnd (s : Scanner) : Step Scanner := do
  let s ← (s.unwind (-1)).dropKey
  return { s.push .streamEnd with allowKey := false, keys := [], done := true }

/-- A directive, or a marker of a document, closes all blocks. -/
def fetchDirective (s : Scanner) : Step Scanner := do
  let s ← (s.unwind (-1)).dropKey
  let (t, c) ← directiveToken s.cursor
  return { s.push t with cursor := c, allowKey := false }

def fetchMarker (s : Scanner) (t : Token) : Step Scanner := do
  let s ← (s.unwind (-1)).dropKey
  return { s.take 3 t with allowKey := false }

def fetchFlowStart (s : Scanner) (t : Token) : Step Scanner := do
  let s ← s.saveKey
  return { s.take 1 t with flowLevel := s.flowLevel + 1, allowKey := true }

def fetchFlowEnd (s : Scanner) (t : Token) : Step Scanner := do
  let s ← s.dropKey
  return { s.take 1 t with flowLevel := s.flowLevel - 1, allowKey := false }

def fetchFlowEntry (s : Scanner) : Step Scanner := do
  let s ← s.dropKey
  return { s.take 1 .flowEntry with allowKey := true }

def fetchBlockEntry (s : Scanner) : Step Scanner := do
  let s ← if s.inFlow then pure s else (·.openBlockHere .blockSequenceStart) <$> s.needKey
  let s ← s.dropKey
  return { s.take 1 .blockEntry with allowKey := true }

def fetchKey (s : Scanner) : Step Scanner := do
  let s ← if s.inFlow then pure s else (·.openBlockHere .blockMappingStart) <$> s.needKey
  let s ← s.dropKey
  return { s.take 1 .key with allowKey := !s.inFlow }

/-- Enters the tokens for a key that has turned out to be one, where it started. -/
def insertKey (s : Scanner) (k : SimpleKey) : Scanner :=
  let s := { s.insert k.position .key with keys := s.keys.filter (·.1 != s.flowLevel), allowKey := false }
  if s.inFlow then s
  else
    match s.openBlock k.column with
    | some s => s.insert k.position .blockMappingStart
    | none => s

def fetchValue (s : Scanner) : Step Scanner := do
  let s ← match s.keys.lookup s.flowLevel with
    | some k => pure (s.insertKey k)
    | none => do
      let s ← if s.inFlow then pure s else (·.openBlockHere .blockMappingStart) <$> s.needKey
      { s with allowKey := !s.inFlow }.dropKey
  return s.take 1 .value

/-- What may be a key: an alias, an anchor, a tag, or a scalar in quotes. -/
def fetchNode (s : Scanner) (read : Cursor → Step (Token × Cursor)) : Step Scanner := do
  let s ← s.saveKey
  let (t, c) ← read s.cursor
  return { s.push t with cursor := c, allowKey := false }

/-- A plain scalar. After a line break at its end a key may start. -/
def fetchPlain (s : Scanner) : Step Scanner := do
  let s ← s.saveKey
  let (l, broken) := plainScalar s.inFlow (s.indent + 1) s.cursor
  return { s.push (.scalar l.text true) with cursor := l.next, allowKey := broken }

/-- A block of lines is no key, but one may follow it. -/
def fetchBlockScalar (s : Scanner) (fold : Bool) : Step Scanner := do
  let s ← s.dropKey
  let l ← blockScalar fold s.indent s.cursor
  return { s.push (.scalar l.text false) with cursor := l.next, allowKey := true }

def readAnchor (token : String → Token) (c : Cursor) : Step (Token × Cursor) :=
  (anchorName c.advance).map fun l => (token l.text, l.next)

def readQuoted (double : Bool) (c : Cursor) : Step (Token × Cursor) :=
  (quotedScalar double c).map fun l => (.scalar l.text false, l.next)

/-! ### Choosing -/

def startsPlain (s : Scanner) : Bool :=
  let x := s.cursor.peek
  let special := ['-', '?', ':', ',', '[', ']', '\x7b', '\x7d', '#', '&', '*', '!', '|', '>', '\'', '"', '%', '@', '`']
  (!isWhite x && !special.contains x) ||
    (!isWhite (s.cursor.peekAt 1) && (x == '-' || (!s.inFlow && (x == '?' || x == ':'))))

/-- Passes spaces, comments and line breaks; after a break outside of brackets a key may start. -/
def skipGaps : Nat → Scanner → Scanner
  | 0, s => s
  | fuel + 1, s =>
    let c := s.cursor.skipSpaces.skipComment
    match c.lineBreak? with
    | some (_, c) => skipGaps fuel { s with cursor := c, allowKey := s.allowKey || !s.inFlow }
    | none => { s with cursor := c }

def skipMark (s : Scanner) : Scanner :=
  if s.cursor.index == 0 && s.cursor.peek == byteOrderMark then { s with cursor := s.cursor.advance } else s

/-- Reads the token that the character here starts, with the tokens that its place implies. -/
def fetch (s : Scanner) : Step Scanner :=
  let c := s.cursor
  let x := c.peek
  let next := c.peekAt 1
  let lineStart := c.column == 0
  if x == nul then s.fetchEnd
  else if x == '%' && lineStart then s.fetchDirective
  else if lineStart && c.isMarker '-' then s.fetchMarker .documentStart
  else if lineStart && c.isMarker '.' then s.fetchMarker .documentEnd
  else if x == '[' then s.fetchFlowStart .flowSequenceStart
  else if x == '\x7b' then s.fetchFlowStart .flowMappingStart
  else if x == ']' then s.fetchFlowEnd .flowSequenceEnd
  else if x == '\x7d' then s.fetchFlowEnd .flowMappingEnd
  else if x == ',' then s.fetchFlowEntry
  else if x == '-' && isWhite next then s.fetchBlockEntry
  else if x == '?' && (s.inFlow || isWhite next) then s.fetchKey
  else if x == ':' && (s.inFlow || isWhite next) then s.fetchValue
  else if x == '*' then s.fetchNode (readAnchor .alias)
  else if x == '&' then s.fetchNode (readAnchor .anchor)
  else if x == '!' then s.fetchNode tagToken
  else if x == '|' && !s.inFlow then s.fetchBlockScalar false
  else if x == '>' && !s.inFlow then s.fetchBlockScalar true
  else if x == '\'' then s.fetchNode (readQuoted false)
  else if x == '"' then s.fetchNode (readQuoted true)
  else if s.startsPlain then s.fetchPlain
  else refuse

def step (s : Scanner) : Step Scanner := do
  let s := s.skipMark
  let s ← (skipGaps (s.cursor.left + 1) s).dropStale
  (s.unwind s.cursor.column).fetch

/-! ### Taking tokens -/

/-- Reads until the next token is known: as long as it may be the start of a key, a token for the key may come
before it. -/
def fill : Nat → Scanner → Step Scanner
  | 0, s => .ok s
  | fuel + 1, s =>
    if s.done then .ok s
    else if s.pending.isEmpty then s.step >>= fill fuel
    else do
      let s ← s.dropStale
      if s.keys.any (·.2.position == s.taken) then s.step >>= fill fuel else .ok s

/-- The next token, which stays. -/
def next (s : Scanner) : Step (Token × Scanner) := do
  let s ← s.fill s.limit
  return (s.pending.headD .streamEnd, s)

def drop (s : Scanner) : Step Scanner := do
  let s ← s.fill s.limit
  return { s with pending := s.pending.tail, taken := s.taken + 1 }

end Scanner

end TreeScript.Yaml
