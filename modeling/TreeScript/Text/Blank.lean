/-
Blank characters: the white space and separators of Unicode, with the four ASCII information
separators.
-/

namespace TreeScript.Text

/-- The 29 blank characters. -/
def isBlank (c : Char) : Bool :=
  let n := c.toNat
  (9 ≤ n && n ≤ 13) || (28 ≤ n && n ≤ 32) || n == 0x85 || n == 0xa0 || n == 0x1680 ||
    (0x2000 ≤ n && n ≤ 0x200a) || n == 0x2028 || n == 0x2029 || n == 0x202f || n == 0x205f ||
    n == 0x3000

/-- Drops blanks at both ends. -/
def strip (s : String) : String :=
  String.ofList ((s.toList.dropWhile isBlank).reverse.dropWhile isBlank).reverse

/-- Lower case for the letters A to Z; every other character stays. -/
def lower (s : String) : String := s.map Char.toLower

end TreeScript.Text
