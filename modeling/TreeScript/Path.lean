/-
Paths of files: names with slashes between them. Empty names and single dots say nothing and are
dropped, while two dots stay, because what they lead to depends on the files.
-/
import TreeScript.Text.Parts

namespace TreeScript

/-- A path: the slashes at its start, and the names. -/
structure Path where
  root : String
  parts : List String
deriving DecidableEq

namespace Path

/-- How many bytes a path and a name in it may have. -/
def longest : Nat := 4095

def longestName : Nat := 255

/-- The start of an absolute path: one slash, unless there are exactly two. -/
def rootOf : List Char → String
  | '/' :: '/' :: '/' :: _ => "/"
  | '/' :: '/' :: _ => "//"
  | '/' :: _ => "/"
  | _ => ""

def isName (part : String) : Bool := part != "" && part != "."

def ofString (s : String) : Path :=
  ⟨rootOf s.toList, ((Text.partsAt '/' s.toList).map String.ofList).filter isName⟩

/-- The path in its shortest spelling; the current directory is a dot. -/
def text (p : Path) : String :=
  if p.root.isEmpty && p.parts.isEmpty then "." else p.root ++ "/".intercalate p.parts

def name (p : Path) : String := p.parts.getLast?.getD ""

/-- The last name up to the last dot in it, and from there on. A dot at either end of the name does not
count. -/
def splitName (p : Path) : String × String :=
  let cs := p.name.toList
  let suffix := (cs.reverse.takeWhile (· != '.')).reverse
  let stem := cs.take (cs.length - suffix.length - 1)
  if suffix.isEmpty || stem.isEmpty then (p.name, "") else (String.ofList stem, "." ++ String.ofList suffix)

def stem (p : Path) : String := p.splitName.1

def suffix (p : Path) : String := p.splitName.2

/-- The path of names below a directory. -/
def below (p : Path) (parts : List String) : Path := { p with parts := p.parts ++ parts }

/-- The directory that the text of a home means. Slashes at its end say nothing, and nothing is the root. -/
def ofHome (home : String) : Path :=
  ofString (if home.toList.all (· == '/') then "/" else home)

/-- Puts a home in the place of a tilde at the start: that of the account whose name follows the tilde, or without a
name one's own. A home that is not known is no place to go to, and neither is one that begins with a tilde itself. -/
def expandHome (homeOf? : Option String → Option String) (p : Path) : Option Path :=
  if !p.root.isEmpty then some p
  else
    match p.parts with
    | first :: rest =>
      if first.startsWith "~" then
        let account := if first == "~" then none else some (first.drop 1).toString
        ((homeOf? account).filter (!·.startsWith "~")).map fun home => (ofHome home).below rest
      else some p
    | [] => some p

end Path

end TreeScript
