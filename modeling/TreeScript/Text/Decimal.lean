/-
Decimal text of integers. A number becomes a text, and digits become a number, only as long as there are not too many
of them.
-/

namespace TreeScript.Text

/-- The most decimal digits with which a number becomes a text, or digits become a number. -/
def longestNumber : Nat := 4300

/-- A number has few enough digits to become a text. -/
def IsWritable (n : Int) : Prop := (Nat.toDigits 10 n.natAbs).length ≤ longestNumber

instance (n : Int) : Decidable (IsWritable n) := inferInstanceAs (Decidable (_ ≤ _))

/-- The decimal text of a number, if it becomes one. -/
def ofInt? (n : Int) : Option String := if IsWritable n then some (toString n) else none

/-- What is said of a number that does not become a text. -/
def unwritableMessage : String :=
  s!"Exceeds the limit ({longestNumber} digits) for integer string conversion; " ++
    "use sys.set_int_max_str_digits() to increase the limit"

/-- What is said of so many digits that do not become a number. -/
def unreadableMessage (digits : Nat) : String :=
  s!"Exceeds the limit ({longestNumber} digits) for integer string conversion: value has {digits} digits; " ++
    "use sys.set_int_max_str_digits() to increase the limit"

end TreeScript.Text
