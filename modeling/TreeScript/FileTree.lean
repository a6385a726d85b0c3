/-
Files: what a path leads to, and a tree of files that is held in memory.
-/
import TreeScript.Path

namespace TreeScript

/-- A directory, a file with its text, or a file whose bytes are no text. A path with a name that is too long
leads to nothing that could be there. -/
inductive Entry where
  | directory
  | text (content : String)
  | garbled
  | nameTooLong
deriving DecidableEq

def Entry.ofBytes (bytes : ByteArray) : Entry :=
  match String.fromUTF8? bytes with
  | some content => text content
  | none => garbled

/-- What paths lead to. -/
abbrev Files := Path → Option Entry

/-- The entries below the current directory, by the names on the way. The directories on the way to an entry
need no entry of their own. -/
structure FileTree where
  entries : List (List String × Entry)

namespace FileTree

/-- A place on the way along a path; nothing is known of what lies outside of the tree. -/
inductive Place where
  | inside (names : List String)
  | outside

/-- What is at a place in the tree. -/
def entry? (t : FileTree) (names : List String) : Option Entry :=
  match t.entries.lookup names with
  | some e => some e
  | none => if names.isEmpty || t.entries.any (fun e => names.isPrefixOf e.1) then some .directory else none

/-- Goes on by one name, which is possible from directories only. What a path leads to that ends early is the
error. -/
def enter (t : FileTree) (place : Place) (name : String) : Except (Option Entry) Place :=
  let isDirectory := match place with
    | .outside => true
    | .inside names => t.entry? names == some .directory
  if !isDirectory then .error none
  else if Path.longestName < name.utf8ByteSize then .error (some .nameTooLong)
  else
    match place with
    | .outside => if name == ".." then .ok .outside else .error none
    | .inside names =>
      if name != ".." then .ok (.inside (names ++ [name]))
      else if names.isEmpty then .ok .outside
      else .ok (.inside names.dropLast)

def find (t : FileTree) : Files := fun p =>
  let start := if p.root.isEmpty then Place.inside [] else .outside
  if Path.longest < p.text.utf8ByteSize then some .nameTooLong
  else
    match p.parts.foldlM t.enter start with
    | .ok (.inside names) => t.entry? names
    | .ok .outside => some .directory
    | .error early => early

end FileTree

end TreeScript
