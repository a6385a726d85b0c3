/-
Merging mappings. An entry whose key is the merge mark stands for the entries of other mappings,
which are merged themselves first: those come before a mapping's own entries, so that its own
prevail, and of several mappings the earlier ones do. A mapping may be merged into itself; the
entries that its remaining marks stand for are then found first.
-/
import TreeScript.Yaml.Graph

namespace TreeScript.Yaml

/-- Keys and values by their places in the graph. -/
abbrev Entries := List (Nat × Nat)

namespace Graph

/-- The entries of a mapping; any other node has none. -/
def entries (g : Graph) (i : Nat) : Entries :=
  match (g.node i).shape with
  | .mapping entries => entries
  | _ => []

/-- What the first merge mark among entries points to, and the entries without it. -/
def takeMark (g : Graph) : Entries → Option (Nat × Entries)
  | [] => none
  | (k, v) :: rest =>
    if (g.node k).kind = .mergeMark then some (v, rest)
    else (takeMark g rest).map fun (target, others) => (target, (k, v) :: others)

/-- The value mark is like a text where it is a key. -/
def settleMarks (g : Graph) (entries : Entries) : Graph :=
  entries.foldl (fun g (k, _) => if (g.node k).kind = .valueMark then g.retype k .text else g) g

mutual

/-- Merges what the marks of a mapping point to; `merged` holds what earlier marks have brought. -/
def mergeFrom (i : Nat) (merged : Entries) : Nat → Graph → Step Graph
  | 0, _ => refuse
  | fuel + 1, g =>
    match g.takeMark (g.entries i) with
    | none => .ok ((g.settleMarks (g.entries i)).reshape i (.mapping (merged ++ g.entries i)))
    | some (target, others) => do
      let (found, g) ← mergeTarget target fuel (g.reshape i (.mapping others))
      mergeFrom i (merged ++ found) fuel g

/-- The entries that a merge mark brings from a mapping, or from a sequence of mappings. -/
def mergeTarget (target : Nat) : Nat → Graph → Step (Entries × Graph)
  | 0, _ => refuse
  | fuel + 1, g =>
    match (g.node target).shape with
    | .scalar _ => refuse
    | .sequence items => mergeItems items fuel g
    | .mapping _ => do
      let g ← mergeFrom target [] fuel g
      return (g.entries target, g)

/-- The entries of mappings, the last one's first. -/
def mergeItems : List Nat → Nat → Graph → Step (Entries × Graph)
  | [], _, g => .ok ([], g)
  | _ :: _, 0, _ => refuse
  | i :: rest, fuel + 1, g =>
    match (g.node i).shape with
    | .mapping _ => do
      let g ← mergeFrom i [] fuel g
      let (more, next) ← mergeItems rest fuel g
      return (more ++ g.entries i, next)
    | _ => refuse

end

/-- The number of nodes, items and entries. -/
def extent (g : Graph) : Nat :=
  (g.toList.map fun n =>
    match n.shape with
    | .scalar _ => 1
    | .sequence items => items.length + 1
    | .mapping entries => entries.length + 1).foldl (· + ·) 0

/-- Merges what the marks of a mapping point to. Every mark is taken once, and what it points to has fewer items
than the extent of the graph. -/
def merge (g : Graph) (i : Nat) : Step Graph :=
  if (g.takeMark (g.entries i)).isNone then .ok (g.settleMarks (g.entries i))
  else mergeFrom i [] ((g.extent + 4) * (g.extent + 4)) g

end Graph

end TreeScript.Yaml
