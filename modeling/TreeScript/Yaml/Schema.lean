/-
The types of nodes, and the values that texts have in those of scalars. A plain scalar is what it
looks like: a truth value, a number in one of several bases, a day or a moment, nothing, or else a
text.
-/
import TreeScript.Document.Text
import TreeScript.Double.Numeral
import TreeScript.Text.Base64
import TreeScript.Text.Decimal
import TreeScript.Text.Lowercase
import TreeScript.Text.Parts
import TreeScript.Yaml.Cursor

namespace TreeScript.Yaml

/-- The types of nodes. The two marks may be keys only: `<<` merges mappings, and `=` is like a text. -/
inductive Kind where
  | null | bool | int | float | timestamp | text | binary
  | sequence | mapping | set | pairs
  | mergeMark | valueMark
  | unknown
deriving DecidableEq

def Kind.isScalar (kind : Kind) : Bool :=
  [null, bool, int, float, timestamp, text, binary].contains kind

/-! ## How scalars look -/

/-- A word in small letters, with a capital, and in capitals. -/
def spellings (word : String) : List String := [word, word.capitalize, word.toUpper]

def nullTexts : List String := ["", "~"] ++ spellings "null"

def trueWords : List String := ["yes", "true", "on"]

def boolTexts : List String := (trueWords ++ ["no", "false", "off"]).flatMap spellings

def infinityTexts : List String := (spellings "inf").map ("." ++ ·)

def nanTexts : List String := [".nan", ".NaN", ".NAN"]

/-- Digits of a base, and underscores, which count for nothing. -/
def areDigits (base : Nat) (cs : List Char) : Bool :=
  !cs.isEmpty && cs.all fun c => c == '_' || Text.isDigitOf base c

/-- Decimal digits and underscores after a first digit. -/
def areDecimal (cs : List Char) : Bool := cs.head?.any Char.isDigit && areDigits 10 cs

/-- A part of a number of base 60: at most 59. -/
def isSixtieth : List Char → Bool
  | [d] => d.isDigit
  | [d, e] => '0' ≤ d && d ≤ '5' && e.isDigit
  | _ => false

def isInt (cs : List Char) : Bool :=
  match (Text.splitSign cs).2 with
  | ['0'] => true
  | '0' :: 'b' :: digits => areDigits 2 digits
  | '0' :: 'x' :: digits => areDigits 16 digits
  | '0' :: digits => areDigits 8 digits
  | digits =>
    match Text.partsAt ':' digits with
    | first :: rest => areDecimal first && rest.all isSixtieth
    | [] => false

/-- An exponent, whose sign may not be missing, or nothing. -/
def isExponent : List Char → Bool
  | [] => true
  | e :: sign :: digits =>
    (e == 'e' || e == 'E') && (sign == '-' || sign == '+') && !digits.isEmpty && digits.all Char.isDigit
  | _ => false

/-- A number with a point, of base 10 or 60. Without digits before the point there may be no sign. -/
def isPointed (cs : List Char) : Bool :=
  let digits := (Text.splitSign cs).2
  let whole := digits.takeWhile (· != '.')
  let places := (digits.drop (whole.length + 1)).takeWhile fun c => c == '_' || c.isDigit
  let rest := digits.drop (whole.length + 1 + places.length)
  whole.length < digits.length &&
    match Text.partsAt ':' whole with
    | [[]] => digits == cs && areDecimal places && isExponent rest
    | [first] => areDecimal first && isExponent rest
    | first :: more => areDecimal first && more.all isSixtieth && rest.isEmpty
    | [] => false

def isFloat (s : String) : Bool :=
  isPointed s.toList || infinityTexts.contains (String.ofList (Text.splitSign s.toList).2) || nanTexts.contains s

/-! ## Timestamps -/

/-- A time of day; the fraction of a second counts in millionths, and the offset in minutes. -/
structure Clock where
  hour : Nat
  minute : Nat
  second : Nat
  microsecond : Nat
  offset : Option Int

/-- A day, and perhaps a time on it. The numbers may be out of range. -/
structure Timestamp where
  year : Nat
  month : Nat
  day : Nat
  clock : Option Clock

/-- The number of at least and at most so many digits, and what follows them. -/
def digitsHere (least most : Nat) (cs : List Char) : Option (Nat × List Char) :=
  let run := (cs.take most).takeWhile Char.isDigit
  if run.length < least then none else some (Text.natOfDigits 10 run, cs.drop run.length)

def afterMark (mark : Char) : List Char → Option (List Char)
  | c :: cs => if c == mark then some cs else none
  | [] => none

def isSpacing (c : Char) : Bool := c == ' ' || c == '\t'

/-- Millionths from the digits of a fraction, the first six of which count. -/
def microseconds (digits : List Char) : Nat :=
  let six := digits.take 6
  Text.natOfDigits 10 six * Nat.pow 10 (6 - six.length)

def fractionHere : List Char → Nat × List Char
  | '.' :: rest => (microseconds (rest.takeWhile Char.isDigit), rest.dropWhile Char.isDigit)
  | cs => (0, cs)

/-- The distance from universal time at the end of a timestamp, in minutes. -/
def offsetHere (cs : List Char) : Option (Option Int) :=
  match cs, cs.dropWhile isSpacing with
  | [], _ => some none
  | _, ['Z'] => some (some 0)
  | _, sign :: rest => do
    let (hours, rest) ← digitsHere 1 2 rest
    let (minutes, rest) ← if rest.isEmpty then some (0, []) else afterMark ':' rest >>= digitsHere 2 2
    let distance : Int := hours * 60 + minutes
    if !rest.isEmpty then none
    else if sign == '+' then some (some distance)
    else if sign == '-' then some (some (-distance))
    else none
  | _, [] => none

/-- The time after a day: it begins after a letter T or after white space. -/
def clockHere (cs : List Char) : Option Clock := do
  let rest ← match cs with
    | 'T' :: rest => some rest
    | 't' :: rest => some rest
    | c :: rest => if isSpacing c then some (rest.dropWhile isSpacing) else none
    | [] => none
  let (hour, rest) ← digitsHere 1 2 rest
  let (minute, rest) ← afterMark ':' rest >>= digitsHere 2 2
  let (second, rest) ← afterMark ':' rest >>= digitsHere 2 2
  let (microsecond, rest) := fractionHere rest
  let offset ← offsetHere rest
  return ⟨hour, minute, second, microsecond, offset⟩

def Timestamp.ofLine? (line : List Char) : Option Timestamp := do
  let (year, rest) ← digitsHere 4 4 line
  let (month, rest) ← afterMark '-' rest >>= digitsHere 1 2
  let (day, rest) ← afterMark '-' rest >>= digitsHere 1 2
  if rest.isEmpty then return ⟨year, month, day, none⟩
  else return ⟨year, month, day, ← clockHere rest⟩

/-- A plain scalar looks like a day only if its month and its day have two digits each. -/
def isTimestamp (s : String) : Bool :=
  match Timestamp.ofLine? s.toList with
  | some t => t.clock.isSome || s.length == 10
  | none => false

/-! ## Kinds -/

def Kind.ofLine (s : String) : Kind :=
  if boolTexts.contains s then .bool
  else if isFloat s then .float
  else if isInt s.toList then .int
  else if s == "<<" then .mergeMark
  else if nullTexts.contains s then .null
  else if isTimestamp s then .timestamp
  else if s == "=" then .valueMark
  else if ["!", "&", "*"].contains s then .unknown
  else .text

/-- The characters of a text, without a line feed at their end. -/
def lineOf (s : String) : List Char :=
  let cs := s.toList
  if cs.getLast? == some '\n' then cs.dropLast else cs

/-- The type that a text looks like. A line feed at its end does not matter, unless there is nothing else. -/
def Kind.ofText (s : String) : Kind := if s == "\n" then .text else Kind.ofLine (String.ofList (lineOf s))

def Kind.names : List (String × Kind) :=
  [("null", .null), ("bool", .bool), ("int", .int), ("float", .float), ("timestamp", .timestamp), ("str", .text),
    ("binary", .binary), ("seq", .sequence), ("map", .mapping), ("set", .set), ("omap", .pairs), ("pairs", .pairs),
    ("merge", .mergeMark), ("value", .valueMark)]

def Kind.ofName (name : String) : Kind :=
  match Kind.names.find? fun (n, _) => "tag:yaml.org,2002:" ++ n == name with
  | some (_, kind) => kind
  | none => .unknown

/-! ## Values -/

/-- What is said of a text that is no integer in a base. Of a long one only the first 200 characters are
shown. -/
def badInteger (base : Nat) (s : String) : Undecodable :=
  let shown := String.ofList ((Text.quoted s).toList.take 200)
  .value s!"invalid literal for int() with base {base}: {shown}"

/-- The integer of a text in a base. There is a limit on decimal digits, and the first ones are counted before
anything is said of what else the text holds. -/
def integerIn (base : Nat) (cs : List Char) : Step Int :=
  let s := String.ofList cs
  let digits := ((Text.splitSign (Text.numeral s)).2.takeWhile Char.isDigit).length
  if base = 10 ∧ Text.longestNumber < digits then .error (.value (Text.unreadableMessage digits))
  else
    match Text.int? base s with
    | some n => .ok n
    | none => .error (badInteger base s)

/-- The number that parts of base 60 write, highest first. -/
def sexagesimal (parts : List (List Char)) : Step Int := do
  let digits ← parts.mapM (integerIn 10)
  return digits.foldl (fun n d => 60 * n + d) 0

/-- The integer of a text: binary, hexadecimal or octal after a zero, of base 60 with colons, or decimal. -/
def intValue (s : String) : Step Int := do
  let (negative, digits) := Text.splitSign (s.toList.filter (· != '_'))
  let n ← match digits with
    | [] => .error .emptyNumber
    | ['0'] => pure 0
    | '0' :: 'b' :: rest => integerIn 2 rest
    | '0' :: 'x' :: rest => integerIn 16 rest
    | '0' :: _ => integerIn 8 digits
    | _ => if digits.contains ':' then sexagesimal (Text.partsAt ':' digits) else integerIn 10 digits
  return if negative then -n else n

def doubleIn (cs : List Char) : Step Double :=
  match Double.parse? (String.ofList cs) with
  | some d => .ok d
  | none => .error (.value s!"could not convert string to float: {Text.quoted (String.ofList cs)}")

/-- The sum of digits of base 60, lowest first, from the given power on. -/
def sexagesimalSum (base : Nat) (sum : Double) : List Double → Double
  | [] => sum
  | d :: rest => sexagesimalSum (60 * base) (sum.add (d.mul (.ofNat base))) rest

/-- The number that parts of base 60 write, highest first. The unit of the highest must be a double. -/
def sexagesimalDouble (parts : List Double) : Step Double :=
  match Double.ofNat (Nat.pow 60 (parts.length - 1)) with
  | .infinite _ => .error .hugePlace
  | _ => .ok (sexagesimalSum 1 (.ofNat 0) parts.reverse)

/-- The characters that count in the text of a double, in lower case. -/
def floatChars (s : String) : List Char := (Text.lowercase (String.ofList (s.toList.filter (· != '_')))).toList

def isNanName (s : String) : Bool := (Text.splitSign (floatChars s)).2 == ".nan".toList

/-- The double of a text: an infinity, NaN, a number of base 60 with colons, or a decimal one. -/
def floatValue (s : String) : Step Double := do
  let cs := floatChars s
  let (negative, digits) := Text.splitSign cs
  let d ←
    if cs.isEmpty then .error .emptyNumber
    else if digits == ".inf".toList then pure (.infinite false)
    else if digits == ".nan".toList then pure .nan
    else if digits.contains ':' then (Text.partsAt ':' digits).mapM doubleIn >>= sexagesimalDouble
    else doubleIn digits
  return if negative then d.negate else d

/-- Numbers that are out of range are no day and no moment. -/
def inRange {α : Type} : Except Date.Fault α → Step α
  | .ok a => .ok a
  | .error fault => .error (.value fault.message)

/-- The day or the moment of a timestamp. The offset is looked at first. -/
def Timestamp.document (t : Timestamp) : Step Document :=
  match t.clock with
  | none => (inRange (Date.ofParts t.year t.month t.day)).map .date
  | some c => do
    let offset ← c.offset.mapM fun minutes => inRange (Moment.checkOffset minutes)
    let date ← inRange (Date.ofParts t.year t.month t.day)
    return .moment (← inRange (Moment.ofParts date c.hour c.minute c.second c.microsecond offset))

def boolValue (s : String) : Step Bool :=
  let word := Text.lower s
  if boolTexts.contains word then .ok (trueWords.contains word) else .error (.notTruthValue s)

/-- The bytes that a text of ASCII writes. -/
def bytesValue (s : String) : Step (List UInt8) :=
  match if s.toList.all (·.toNat < 0x80) then Text.Base64.decode s.toList else none with
  | some bytes => .ok bytes
  | none => refuse

/-- The document that a text is as a scalar of some type. -/
def Kind.scalar (kind : Kind) (s : String) : Step Document :=
  match kind with
  | .null => .ok .null
  | .bool => (boolValue s).map .bool
  | .int => (intValue s).map .int
  | .float => (floatValue s).map .double
  | .timestamp =>
    match Timestamp.ofLine? (lineOf s) with
    | some t => t.document
    | none => .error .notTimestamp
  | .text => .ok (.text s)
  | .binary => (bytesValue s).map .bytes
  | _ => refuse

end TreeScript.Yaml
