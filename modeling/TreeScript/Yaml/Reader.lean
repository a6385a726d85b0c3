/-
Reading documents from YAML text. The nodes of a text form a graph, and a document is its unfolding
from the root. A node that comes up inside of itself is not unfolded again: its label stands there,
which is its place in the graph, and whatever lies on the way from a node back to itself carries
such a label.
-/
import TreeScript.Yaml.Content

namespace TreeScript.Yaml

/-- A document, and the nodes around it whose labels it contains. -/
structure Unfolded where
  document : Document
  around : List Nat

/-- The unfolding of a collection from those of its parts. A label in a part means that there is a way from the
collection back to itself. -/
def Unfolded.ofParts (i : Nat) (document : Document) (parts : List Unfolded) : Unfolded :=
  let around := (parts.flatMap (·.around)).eraseDups
  ⟨if around.isEmpty then document else .labelled i document, around.filter (· != i)⟩

/-- The documents of nodes, as far as they are known. A node that contains itself is never one of them, for where
its labels stand depends on the nodes around it. -/
abbrev Known := Array (Option Document)

def keyValues (contents : Array (Option Content)) (entries : Entries) : List Document :=
  entries.map fun (k, _) =>
    match contents.getD k none with
    | some (.scalar _ key) => key
    | _ => .null

def setOf (keys : List Document) : Document :=
  .set ((keys.foldl (fun entries k => Document.putEntry k .null entries) []).map Prod.fst)

/-- The document of a node; `path` holds the nodes around it. -/
def unfold (contents : Array (Option Content)) : Nat → List Nat → Nat → StateM Known Unfolded
  | 0, _, _ => return ⟨.null, []⟩
  | fuel + 1, path, i => do
    match (← get).getD i none, contents.getD i none with
    | some d, _ => return ⟨d, []⟩
    | none, none => return ⟨.null, []⟩
    | none, some c =>
      if path.contains i then return ⟨.again i, [i]⟩
      let inside (nodes : List Nat) : StateM Known (List Unfolded) := nodes.mapM (unfold contents fuel (i :: path))
      let (document, parts) ← match c with
        | .scalar d _ => pure (d, [])
        | .list items => do
          let found ← inside items
          pure (Document.list (found.map (·.document)), found)
        | .map entries => do
          let values ← inside (entries.map Prod.snd)
          pure (Document.ofPairs ((keyValues contents entries).zip (values.map (·.document))), values)
        | .set entries => pure (setOf (keyValues contents entries), [])
        | .pairs entries => do
          let keys ← inside (entries.map Prod.fst)
          let values ← inside (entries.map Prod.snd)
          pure (Document.list (keys.zipWith (fun k v => .pair k.document v.document) values), keys ++ values)
      let result := Unfolded.ofParts i document parts
      unless result.document.isLabelled do modify (·.setIfInBounds i (some result.document))
      return result

/-- The document of a root. No node is twice on a path. -/
def documentOf (contents : Array (Option Content)) (root : Nat) : Document :=
  let known : Known := Array.replicate contents.size none
  ((unfold contents (contents.size + 2) [] root).run known).1.document

/-- The document that a text is in YAML. A text without any content is null. -/
def read (text : String) : Except Undecodable Document := do
  match ← Graph.ofText text with
  | (_, none) => return .null
  | (g, some root) => return documentOf (← g.contents root) root

end TreeScript.Yaml
