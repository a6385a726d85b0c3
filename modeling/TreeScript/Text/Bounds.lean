/-
Tables of bounds: ascending code points, at each of which something begins.
-/

namespace TreeScript.Text

/-- How many of the ascending bounds from `lo` up to `hi` are at most `n`, counted from 0; those below
`lo` all are. Halving takes `steps` rounds. -/
def countBounds (bounds : Array Nat) (n : Nat) : Nat → Nat → Nat → Nat
  | 0, lo, _ => lo
  | steps + 1, lo, hi =>
    if lo < hi then
      let mid := (lo + hi) / 2
      if bounds.getD mid 0 ≤ n then countBounds bounds n steps (mid + 1) hi
      else countBounds bounds n steps lo mid
    else lo

end TreeScript.Text
