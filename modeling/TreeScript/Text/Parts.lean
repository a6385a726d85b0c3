/-
Parts of a text: what stands between marks.
-/

namespace TreeScript.Text

/-- The parts between marks, one more than there are marks. -/
def partsAt (mark : Char) : List Char → List (List Char)
  | [] => [[]]
  | c :: cs =>
    match partsAt mark cs with
    | part :: parts => if c == mark then [] :: part :: parts else (c :: part) :: parts
    | [] => []

end TreeScript.Text
