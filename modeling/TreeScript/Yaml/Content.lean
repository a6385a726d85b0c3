/-
What the nodes of a YAML text are as data. Nodes are looked at level by level, beginning at the
root: a scalar gets its value at once, while a collection waits until everything on its own level
has been looked at. So of several faults the one nearest to the root comes up, and of those on one
level the first. Every node is looked at once, however many aliases stand for it.
-/
import TreeScript.Yaml.Merge

namespace TreeScript.Yaml

/-- What a node is. A scalar is told apart from others by what it is as a key. The nodes inside of a collection are
given by their places in the graph. -/
inductive Content where
  | scalar (value key : Document)
  | list (items : List Nat)
  | map (entries : Entries)
  | set (entries : Entries)
  | pairs (entries : Entries)

namespace Content

/-- Whether what a node is may be a key. -/
def isKey : Content → Bool
  | scalar _ _ => true
  | _ => false

/-- The collection of a type before anything is known of what is inside. -/
def ofKind? : Kind → Option Content
  | .sequence => some (list [])
  | .mapping => some (map [])
  | .set => some (set [])
  | .pairs => some (pairs [])
  | _ => none

end Content

/-- The text that a node has as a scalar: its own, or the one that a mapping has under the value mark. Who does
not find it after as many mappings as there are nodes never will. -/
def Graph.scalarText (g : Graph) : Nat → Nat → Step String
  | 0, _ => .error .endless
  | fuel + 1, i =>
    match (g.node i).shape with
    | .scalar text => .ok text
    | .sequence _ => refuse
    | .mapping entries =>
      match entries.find? fun (k, _) => (g.node k).kind = .valueMark with
      | some (_, v) => scalarText g fuel v
      | none => refuse

/-- The value of a node whose type must be one of scalars. -/
def Graph.scalar (g : Graph) (i : Nat) : Step Document := do
  let n := g.node i
  if n.kind.isScalar then
    let text ← g.scalarText (g.size + 1) i
    match n.kind, n.shape with
    | .timestamp, .mapping _ => .error .nestedTimestamp
    | kind, _ => kind.scalar text
  else refuse

/-- What a node with a value is as a key. NaN is like no other node's, unless it has been written by its name. -/
def Graph.key (g : Graph) (i : Nat) (value : Document) : Document :=
  match value, g.scalarText (g.size + 1) i with
  | .double .nan, .ok text => if isNanName text then value else .labelled i value
  | _, _ => value

/-- The graph, what is known of each node, and the collections in the order in which they have come up. -/
structure Survey where
  graph : Graph
  contents : Array (Option Content)
  agenda : Array Nat

namespace Survey

def start (g : Graph) : Survey := ⟨g, Array.replicate g.size none, #[]⟩

def content? (s : Survey) (i : Nat) : Option Content := s.contents.getD i none

def note (s : Survey) (i : Nat) (c : Content) : Survey := { s with contents := s.contents.setIfInBounds i (some c) }

/-- Looks at a node, unless that has been done. -/
def visit (s : Survey) (i : Nat) : Step Survey :=
  if (s.content? i).isSome then .ok s
  else
    match Content.ofKind? (s.graph.node i).kind with
    | some c => .ok { s.note i c with agenda := s.agenda.push i }
    | none => (s.graph.scalar i).map fun d => s.note i (.scalar d (s.graph.key i d))

/-- Looks at a key, which must be a scalar. -/
def visitKey (s : Survey) (i : Nat) : Step Survey := do
  let s ← s.visit i
  if (s.content? i).any Content.isKey then return s else refuse

def visitEntries (s : Survey) (entries : Entries) : Step Survey :=
  entries.foldlM (fun s (k, v) => do (← s.visitKey k).visit v) s

/-- Looks at a pair: a mapping with one entry. Its key may be anything. -/
def visitPair (s : Survey) (i : Nat) : Step Survey :=
  match (s.graph.node i).shape with
  | .mapping [(k, v)] => do (← s.visit k).visit v
  | _ => refuse

/-- The entries of a mapping, once others have been merged into it. -/
def merged (s : Survey) (i : Nat) : Step (Entries × Survey) :=
  match (s.graph.node i).shape with
  | .mapping _ => (s.graph.merge i).map fun g => (g.entries i, { s with graph := g })
  | _ => refuse

def items (s : Survey) (i : Nat) : Step (List Nat) :=
  match (s.graph.node i).shape with
  | .sequence items => .ok items
  | _ => refuse

/-- Looks at what is inside of a collection, whose shape must be that of its type. -/
def expand (s : Survey) (i : Nat) : Step Survey :=
  match s.content? i with
  | some (.list _) => do
    let items ← s.items i
    return (← items.foldlM visit s).note i (.list items)
  | some (.map _) => do
    let (entries, s) ← s.merged i
    return (← s.visitEntries entries).note i (.map entries)
  | some (.set _) => do
    let (entries, s) ← s.merged i
    return (← s.visitEntries entries).note i (.set entries)
  | some (.pairs _) => do
    let items ← s.items i
    let s ← items.foldlM visitPair s
    return s.note i (.pairs (items.flatMap s.graph.entries))
  | _ => .ok s

/-- Looks into the collections from a position of the agenda on. Each comes up once. -/
def run : Nat → Nat → Survey → Step Survey
  | 0, _, s => .ok s
  | fuel + 1, position, s =>
    match s.agenda[position]? with
    | some i => s.expand i >>= run fuel (position + 1)
    | none => .ok s

end Survey

/-- What each node is that can be reached from a root. -/
def Graph.contents (g : Graph) (root : Nat) : Step (Array (Option Content)) := do
  let s ← (Survey.start g).visit root
  return (← s.run (g.size + 1) 0).contents

end TreeScript.Yaml
