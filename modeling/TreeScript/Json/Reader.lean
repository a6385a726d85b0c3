/-
Reading documents from JSON text. Beyond the grammar of JSON the words NaN, Infinity and
-Infinity are numbers; control characters inside a text and a byte order mark are refused. A
number with a fraction or an exponent is a double, any other an integer, which may not have too
many digits.
-/
import TreeScript.Document.Basic
import TreeScript.Document.Undecodable
import TreeScript.Text.Decimal
import TreeScript.Text.Numeral

namespace TreeScript.Json

/-! ## Characters -/

def isSpace (c : Char) : Bool := c == ' ' || c == '\t' || c == '\n' || c == '\r'

def skipSpace (cs : List Char) : List Char := cs.dropWhile isSpace

def afterWord : List Char → List Char → Option (List Char)
  | [], cs => some cs
  | w :: ws, c :: cs => if w == c then afterWord ws cs else none
  | _ :: _, [] => none

/-- The number that decimal digits write. -/
def decimal (cs : List Char) : Nat := Text.natOfDigits 10 cs

/-- The number that four hexadecimal digits write, and what follows them. -/
def fourDigits? : List Char → Option (Nat × List Char)
  | a :: b :: c :: d :: rest => (Text.nat? 16 [a, b, c, d]).map (·, rest)
  | _ => none

/-! ## Texts -/

def isHighHalf (n : Nat) : Bool := 0xd800 ≤ n && n < 0xdc00

def isLowHalf (n : Nat) : Bool := 0xdc00 ≤ n && n < 0xe000

/-- The second half of a surrogate pair. -/
def lowSurrogate? : List Char → Option (Nat × List Char)
  | '\\' :: 'u' :: rest =>
    match fourDigits? rest with
    | some (n, rest) => if isLowHalf n then some (n, rest) else none
    | none => none
  | _ => none

/-- The character of four hexadecimal digits, or of two such groups that form a pair. In the place of a half on its
own stands the replacement character; no document is made of a text that has one. -/
def unicodeEscape? (cs : List Char) : Option (Char × List Char) :=
  match fourDigits? cs with
  | none => none
  | some (n, rest) =>
    if isHighHalf n then
      match lowSurrogate? rest with
      | some (low, rest) => some (Char.ofNat (0x10000 + (n - 0xd800) * 0x400 + (low - 0xdc00)), rest)
      | none => some ('\ufffd', rest)
    else if isLowHalf n then some ('\ufffd', rest)
    else some (Char.ofNat n, rest)

def simpleEscape? : Char → Option Char
  | '"' => some '"'
  | '\\' => some '\\'
  | '/' => some '/'
  | 'b' => some '\x08'
  | 'f' => some '\x0c'
  | 'n' => some '\n'
  | 'r' => some '\r'
  | 't' => some '\t'
  | _ => none

/-- The rest of a text after its opening quote; `done` holds the characters so far, last one first. -/
def textFrom : Nat → List Char → List Char → Option (String × List Char)
  | 0, _, _ => none
  | _ + 1, _, [] => none
  | fuel + 1, done, c :: cs =>
    if c == '"' then some (String.ofList done.reverse, cs)
    else if c == '\\' then
      match cs with
      | 'u' :: rest =>
        match unicodeEscape? rest with
        | some (e, rest) => textFrom fuel (e :: done) rest
        | none => none
      | e :: rest =>
        match simpleEscape? e with
        | some e => textFrom fuel (e :: done) rest
        | none => none
      | [] => none
    else if c.toNat < 32 then none
    else textFrom fuel (c :: done) cs

/-! ## Numbers -/

/-- Digits after a point, of which there is at least one, or nothing. -/
def fraction (cs : List Char) : List Char × List Char :=
  match cs with
  | '.' :: rest =>
    let digits := rest.takeWhile Char.isDigit
    if digits.isEmpty then ([], cs) else (digits, rest.dropWhile Char.isDigit)
  | _ => ([], cs)

/-- An exponent with at least one digit, or nothing. -/
def exponent (cs : List Char) : Option Int × List Char :=
  let signed (sign : Int) (rest : List Char) : Option Int × List Char :=
    let digits := rest.takeWhile Char.isDigit
    if digits.isEmpty then (none, cs) else (some (sign * decimal digits), rest.dropWhile Char.isDigit)
  match cs with
  | e :: rest =>
    if e == 'e' || e == 'E' then
      match rest with
      | '+' :: rest => signed 1 rest
      | '-' :: rest => signed (-1) rest
      | rest => signed 1 rest
    else (none, cs)
  | [] => (none, cs)

/-- A number without its sign: one zero, or digits that start with none, and what may follow. -/
def number? (negative : Bool) (cs : List Char) : Option (Document × List Char) :=
  let whole :=
    match cs with
    | '0' :: _ => ['0']
    | _ => cs.takeWhile Char.isDigit
  if whole.isEmpty then none
  else
    let (places, rest) := fraction (cs.drop whole.length)
    let (power, rest) := exponent rest
    if places.isEmpty && power.isNone then
      let n : Int := decimal whole
      if Text.longestNumber < whole.length then none else some (.int (if negative then -n else n), rest)
    else
      let value := Double.ofDecimal negative (decimal (whole ++ places)) (power.getD 0 - places.length)
      some (.double value, rest)

def words : List (List Char × Document) :=
  [("null".toList, .null), ("true".toList, .bool true), ("false".toList, .bool false),
    ("NaN".toList, .double .nan), ("Infinity".toList, .double (.infinite false)),
    ("-Infinity".toList, .double (.infinite true))]

def scalar? (cs : List Char) : Option (Document × List Char) :=
  match words.findSome? fun (w, d) => (afterWord w cs).map (d, ·) with
  | some found => some found
  | none =>
    match cs with
    | '-' :: rest => number? true rest
    | _ => number? false cs

/-! ## Values -/

mutual

/-- A value and what follows it. Every call reads a character, so that the length of the text is fuel
enough. -/
def value : Nat → List Char → Option (Document × List Char)
  | 0, _ => none
  | fuel + 1, cs =>
    match cs with
    | '"' :: rest => (textFrom (rest.length + 1) [] rest).map fun (s, rest) => (.text s, rest)
    | '[' :: rest =>
      match skipSpace rest with
      | ']' :: rest => some (.list [], rest)
      | rest => items fuel [] rest
    | '\x7b' :: rest =>
      match skipSpace rest with
      | '\x7d' :: rest => some (.map [], rest)
      | rest => members fuel [] rest
    | _ => scalar? cs

/-- The items of a list after the first bracket or a comma; `done` holds the earlier ones, last first. -/
def items : Nat → List Document → List Char → Option (Document × List Char)
  | 0, _, _ => none
  | fuel + 1, done, cs =>
    match value fuel cs with
    | none => none
    | some (d, rest) =>
      match skipSpace rest with
      | ',' :: rest => items fuel (d :: done) (skipSpace rest)
      | ']' :: rest => some (.list (d :: done).reverse, rest)
      | _ => none

/-- The members of a map after the first brace or a comma; `done` holds the earlier ones, last first. -/
def members : Nat → List (Document × Document) → List Char → Option (Document × List Char)
  | 0, _, _ => none
  | fuel + 1, done, cs =>
    match cs with
    | '"' :: rest =>
      match textFrom (rest.length + 1) [] rest with
      | none => none
      | some (key, rest) =>
        match skipSpace rest with
        | ':' :: rest =>
          match value fuel (skipSpace rest) with
          | none => none
          | some (d, rest) =>
            match skipSpace rest with
            | ',' :: rest => members fuel ((.text key, d) :: done) (skipSpace rest)
            | '\x7d' :: rest => some (Document.ofPairs ((.text key, d) :: done).reverse, rest)
            | _ => none
        | _ => none
    | _ => none

end

/-- Whether half of a surrogate pair stands on its own among the escapes of a text; `pending` says that the first half
of a pair came just before. Outside of the texts in it JSON has no backslashes. -/
def hasHalfPair (pending : Bool) : List Char → Bool
  | '\\' :: 'u' :: a :: b :: c :: d :: rest =>
    let n := (Text.nat? 16 [a, b, c, d]).getD 0
    if isLowHalf n then !pending || hasHalfPair false rest
    else pending || hasHalfPair (isHighHalf n) rest
  | '\\' :: _ :: rest => pending || hasHalfPair false rest
  | _ :: rest => pending || hasHalfPair false rest
  | [] => pending

/-- The document that a text is in JSON, if it is one. -/
def read (text : String) : Except Undecodable Document :=
  let cs := skipSpace text.toList
  match value (2 * cs.length + 2) cs with
  | some (d, rest) =>
    if !(skipSpace rest).isEmpty then .error .notJson
    else if hasHalfPair false cs then .error .halfPair
    else .ok d
  | none => .error .notJson

end TreeScript.Json
