/-
Bytes written in base 64. Characters outside of the alphabet count for nothing, and padding ends
the bytes once it completes a group of four digits.
-/

namespace TreeScript.Text.Base64

def digit? (c : Char) : Option Nat :=
  if 'A' ≤ c ∧ c ≤ 'Z' then some (c.toNat - 'A'.toNat)
  else if 'a' ≤ c ∧ c ≤ 'z' then some (c.toNat - 'a'.toNat + 26)
  else if '0' ≤ c ∧ c ≤ '9' then some (c.toNat - '0'.toNat + 52)
  else if c == '+' then some 62
  else if c == '/' then some 63
  else none

/-- The bytes of digits. `place` counts the digits of a group so far, `bits` is what they leave over, `pads` counts
the padding since the last digit, and `done` holds the earlier bytes, last one first. -/
def decodeFrom (place bits pads : Nat) (done : List UInt8) : List Char → Option (List UInt8)
  | [] => if place = 0 then some done.reverse else none
  | c :: rest =>
    if c == '=' then
      if place < 2 then decodeFrom place bits pads done rest
      else if 4 ≤ place + pads + 1 then some done.reverse
      else decodeFrom place bits (pads + 1) done rest
    else
      match digit? c with
      | none => decodeFrom place bits pads done rest
      | some d =>
        if place = 0 then decodeFrom 1 d 0 done rest
        else
          let unit := 4 ^ (3 - place)
          let byte := (bits * 4 ^ place + d / unit).toUInt8
          decodeFrom ((place + 1) % 4) (d % unit) 0 (byte :: done) rest

def decode (cs : List Char) : Option (List UInt8) := decodeFrom 0 0 0 [] cs

end TreeScript.Text.Base64
