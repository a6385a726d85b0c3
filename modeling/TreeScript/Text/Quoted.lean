/-
Quoted texts and bytes: single quotes unless the text holds a single quote and no double one. The backslash,
the chosen quote, and the characters that cannot be shown are escaped.
-/
import TreeScript.Text.Printable

namespace TreeScript.Text

/-- Lower-case hexadecimal digits, filled up with zeros to a width. -/
def hexadecimal (width n : Nat) : String :=
  let digits := Nat.toDigits 16 n
  String.ofList (List.replicate (width - digits.length) '0' ++ digits)

/-- The quote that a text is written in. -/
def quoteFor (s : String) : Char :=
  if s.toList.contains '\'' && !s.toList.contains '"' then '"' else '\''

/-- How one character is written between quotes. -/
def escaped (quote c : Char) : String :=
  if c == quote || c == '\\' then String.ofList ['\\', c]
  else if c == '\n' then "\\n"
  else if c == '\r' then "\\r"
  else if c == '\t' then "\\t"
  else if isPrintable c then String.singleton c
  else if c.toNat < 0x100 then "\\x" ++ hexadecimal 2 c.toNat
  else if c.toNat < 0x10000 then "\\u" ++ hexadecimal 4 c.toNat
  else "\\U" ++ hexadecimal 8 c.toNat

def quoted (s : String) : String :=
  let quote := quoteFor s
  String.singleton quote ++ String.join (s.toList.map (escaped quote)) ++ String.singleton quote

/-- Bytes in quotes behind a letter b; those beyond ASCII are escaped. -/
def quotedBytes (bytes : List UInt8) : String :=
  let chars := bytes.map fun b => Char.ofNat b.toNat
  let quote := quoteFor (String.ofList chars)
  let written := chars.map fun c => if c.toNat < 0x80 then escaped quote c else "\\x" ++ hexadecimal 2 c.toNat
  "b" ++ String.singleton quote ++ String.join written ++ String.singleton quote

end TreeScript.Text
