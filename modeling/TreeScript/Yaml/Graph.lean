/-
The nodes that a YAML text holds: scalars, sequences and mappings of some type. An alias stands for
the node that its anchor names, which may be a node around the alias itself, and so the nodes form a
graph. They are read from the tokens by descent; every call but the first of a collection takes a
token, and no character makes more than four tokens.
-/
import TreeScript.Yaml.Schema
import TreeScript.Yaml.Token

namespace TreeScript.Yaml

/-- What a node consists of. The nodes inside are given by their places in the graph. -/
inductive Shape where
  | scalar (text : String)
  | sequence (items : List Nat)
  | mapping (entries : List (Nat × Nat))

structure Node where
  kind : Kind
  shape : Shape

/-- What stands where a node is left out. -/
def Node.empty : Node := ⟨.null, .scalar ""⟩

abbrev Graph := Array Node

namespace Graph

def node (g : Graph) (i : Nat) : Node := g.getD i .empty

def reshape (g : Graph) (i : Nat) (shape : Shape) : Graph := g.setIfInBounds i { g.node i with shape := shape }

def retype (g : Graph) (i : Nat) (kind : Kind) : Graph := g.setIfInBounds i { g.node i with kind := kind }

end Graph

/-! ## Reading tokens -/

/-- The tokens still to come, the nodes so far, and those that anchors name. -/
structure Source where
  scanner : Scanner
  graph : Graph
  anchors : List (String × Nat)

def Source.start (text : String) : Source := ⟨.start text, #[], []⟩

abbrev Read := StateT Source Step

namespace Read

/-- The next token, which stays. -/
def peek : Read Token := do
  let s ← get
  let (t, scanner) ← s.scanner.next
  set { s with scanner := scanner }
  return t

def advance : Read Unit := do
  let s ← get
  set { s with scanner := ← s.scanner.drop }

def accept (t : Token) : Read Bool := do
  if (← peek) == t then
    advance
    return true
  else return false

/-- Takes the given token, which must be next. -/
def expect (t : Token) : Read Unit := do
  if ← accept t then return () else refuse

/-- Takes tokens as long as they are the given one. -/
def skip (t : Token) : Nat → Read Unit
  | 0 => return ()
  | fuel + 1 => do
    if ← accept t then skip t fuel else return ()

def add (n : Node) : Read Nat := do
  let s ← get
  set { s with graph := s.graph.push n }
  return s.graph.size

/-- Gives a node its shape once what is inside has been read. -/
def shape (i : Nat) (shape : Shape) : Read Nat := do
  modify fun s => { s with graph := s.graph.reshape i shape }
  return i

/-- The empty node if the next token satisfies a test, else what a step reads. -/
def orEmpty (ends : Token → Bool) (read : Read Nat) : Read Nat := do
  if ends (← peek) then add .empty else read

/-- Names a node; a name may not be used twice. -/
def define (name : String) (i : Nat) : Read Unit := do
  if ((← get).anchors.lookup name).isSome then refuse
  else modify fun s => { s with anchors := (name, i) :: s.anchors }

def lookup (name : String) : Read Nat := do
  match (← get).anchors.lookup name with
  | some i => return i
  | none => refuse

end Read

/-! ## Tags and anchors -/

/-- What the handles of tags stand for. -/
abbrev Handles := List (String × String)

/-- The handles that need no directive. -/
def standardHandles : Handles := [("!", "!"), ("!!", "tag:yaml.org,2002:")]

/-- The anchor and the tag before a node, in either order. -/
structure Properties where
  anchor : Option String
  tag : Option String

/-- The full name of a tag. -/
def tagName (handles : Handles) (handle : Option String) (suffix : String) : Step String :=
  match handle with
  | none => .ok suffix
  | some h =>
    match handles.lookup h with
    | some expansion => .ok (expansion ++ suffix)
    | none => refuse

def anchor? : Read (Option String) := do
  match ← Read.peek with
  | .anchor name =>
    Read.advance
    return some name
  | _ => return none

def tag? : Read (Option (Option String × String)) := do
  match ← Read.peek with
  | .tag handle suffix =>
    Read.advance
    return some (handle, suffix)
  | _ => return none

/-- What stands before a node. The handle of the tag is looked up last. -/
def properties (handles : Handles) : Read Properties := do
  let before ← anchor?
  let tag ← tag?
  let anchor ← if before.isNone && tag.isSome then anchor? else pure before
  return ⟨anchor, ← tag.mapM fun (handle, suffix) => tagName handles handle suffix⟩

namespace Properties

def isEmpty (p : Properties) : Bool := p.anchor.isNone && p.tag.isNone

def kind (p : Properties) (standard : Kind) : Kind :=
  match p.tag with
  | none => standard
  | some name => if name == "!" then standard else .ofName name

/-- The type of a scalar. The text decides of a plain one without a tag, and after a lone exclamation
mark. -/
def scalarKind (p : Properties) (isPlain : Bool) (text : String) : Kind :=
  match p.tag with
  | none => if isPlain then .ofText text else .text
  | some name => if name == "!" then .ofText text else .ofName name

def node (p : Properties) (n : Node) : Read Nat := do
  let i ← Read.add n
  if let some name := p.anchor then Read.define name i
  return i

end Properties

/-! ## Nodes -/

/-- Whether an item or an entry of a block ends before it has begun. -/
def endsItem (t : Token) : Bool := t == .blockEntry || t == .key || t == .value || t == .blockEnd

def endsEntry (t : Token) : Bool := t == .key || t == .value || t == .blockEnd

/-- The same for collections in brackets. -/
def endsFlow (t : Token) : Bool :=
  t == .value || t == .flowEntry || t == .flowSequenceEnd || t == .flowMappingEnd

mutual

/-- A node. Blocks are admitted outside of brackets, and a sequence at the column of its key only there. -/
def node (handles : Handles) (block indentless : Bool) : Nat → Read Nat
  | 0 => refuse
  | fuel + 1 => do
    match ← Read.peek with
    | .alias name =>
      Read.advance
      Read.lookup name
    | _ => content handles block indentless (← properties handles) fuel

/-- What follows the anchor and the tag of a node; nothing needs to follow if one of them is there. A collection
has its place in the graph, and its name, before what is inside. -/
def content (handles : Handles) (block indentless : Bool) (p : Properties) : Nat → Read Nat
  | 0 => refuse
  | fuel + 1 => do
    match ← Read.peek with
    | .scalar text isPlain =>
      Read.advance
      p.node ⟨p.scalarKind isPlain text, .scalar text⟩
    | .flowSequenceStart =>
      let i ← p.node ⟨p.kind .sequence, .sequence []⟩
      Read.advance
      Read.shape i (.sequence (← flowItems handles true [] fuel))
    | .flowMappingStart =>
      let i ← p.node ⟨p.kind .mapping, .mapping []⟩
      Read.advance
      Read.shape i (.mapping (← flowEntries handles true [] fuel))
    | t =>
      if t == .blockEntry && indentless then
        let i ← p.node ⟨p.kind .sequence, .sequence []⟩
        Read.shape i (.sequence (← blockItems handles [] fuel))
      else if t == .blockSequenceStart && block then
        let i ← p.node ⟨p.kind .sequence, .sequence []⟩
        Read.advance
        let items ← blockItems handles [] fuel
        Read.expect .blockEnd
        Read.shape i (.sequence items)
      else if t == .blockMappingStart && block then
        let i ← p.node ⟨p.kind .mapping, .mapping []⟩
        Read.advance
        let entries ← blockEntries handles [] fuel
        Read.expect .blockEnd
        Read.shape i (.mapping entries)
      else if p.isEmpty then refuse
      else p.node ⟨p.scalarKind true "", .scalar ""⟩

/-- The items of a sequence, one for each hyphen; `done` holds the earlier ones, last first. -/
def blockItems (handles : Handles) (done : List Nat) : Nat → Read (List Nat)
  | 0 => refuse
  | fuel + 1 => do
    if ← Read.accept .blockEntry then
      let item ← Read.orEmpty endsItem (node handles true false fuel)
      blockItems handles (item :: done) fuel
    else return done.reverse

/-- The entries of a mapping. A key may lack its value, but a value not its key. -/
def blockEntries (handles : Handles) (done : List (Nat × Nat)) : Nat → Read (List (Nat × Nat))
  | 0 => refuse
  | fuel + 1 => do
    if ← Read.accept .key then
      let k ← Read.orEmpty endsEntry (node handles true true fuel)
      let v ←
        if ← Read.accept .value then Read.orEmpty endsEntry (node handles true true fuel)
        else Read.add .empty
      blockEntries handles ((k, v) :: done) fuel
    else return done.reverse

/-- The key and the value of an entry in brackets, after the mark of the key. -/
def flowEntry (handles : Handles) : Nat → Read (Nat × Nat)
  | 0 => refuse
  | fuel + 1 => do
    let k ← Read.orEmpty endsFlow (node handles false false fuel)
    let v ←
      if ← Read.accept .value then Read.orEmpty endsFlow (node handles false false fuel)
      else Read.add .empty
    return (k, v)

/-- The items of a sequence in brackets, with commas between them and perhaps one at the end. An entry
counts as a mapping of its own. -/
def flowItems (handles : Handles) (first : Bool) (done : List Nat) : Nat → Read (List Nat)
  | 0 => refuse
  | fuel + 1 => do
    if ← Read.accept .flowSequenceEnd then return done.reverse
    else
      if !first then Read.expect .flowEntry
      if ← Read.accept .flowSequenceEnd then return done.reverse
      else
        let item ←
          if ← Read.accept .key then do
            let entry ← flowEntry handles fuel
            Read.add ⟨.mapping, .mapping [entry]⟩
          else node handles false false fuel
        flowItems handles false (item :: done) fuel

/-- The entries of a mapping in brackets. A node alone is a key without a value. -/
def flowEntries (handles : Handles) (first : Bool) (done : List (Nat × Nat)) : Nat → Read (List (Nat × Nat))
  | 0 => refuse
  | fuel + 1 => do
    if ← Read.accept .flowMappingEnd then return done.reverse
    else
      if !first then Read.expect .flowEntry
      if ← Read.accept .flowMappingEnd then return done.reverse
      else
        let entry ←
          if ← Read.accept .key then flowEntry handles fuel
          else pure (← node handles false false fuel, ← Read.add .empty)
        flowEntries handles false (entry :: done) fuel

end

/-! ## Documents -/

def isDirective : Token → Bool
  | .directive _ => true
  | _ => false

/-- The handles after the directives of a document: one version at most, of the first generation, and no
handle twice. -/
def directives (versioned : Bool) (handles : Handles) : Nat → Read Handles
  | 0 => refuse
  | fuel + 1 => do
    match ← Read.peek with
    | .directive d =>
      Read.advance
      match d with
      | .version major => if versioned || major != 1 then refuse else directives true handles fuel
      | .handle name expansion =>
        if (handles.lookup name).isSome then refuse else directives versioned ((name, expansion) :: handles) fuel
      | .unknown => directives versioned handles fuel
    | _ => return handles ++ standardHandles

/-- The root of a document. It may be left out after the mark of the document's start. -/
def root (fuel : Nat) : Read Nat := do
  let t ← Read.peek
  if isDirective t || t == .documentStart then
    let handles ← directives false [] fuel
    Read.expect .documentStart
    Read.orEmpty (fun t => isDirective t || t == .documentStart || t == .documentEnd || t == .streamEnd)
      (node handles true false fuel)
  else node standardHandles true false fuel

/-- The root of the only document, if there is a document. What follows it is looked at up to the start of the
next one. -/
def onlyRoot (fuel : Nat) : Read (Option Nat) := do
  if (← Read.peek) == .streamEnd then return none
  else
    let i ← root fuel
    Read.skip .documentEnd fuel
    if (← Read.peek) == .streamEnd then return some i
    else
      let _ ← directives false [] fuel
      refuse

/-- The nodes of a text, all of whose characters must be allowed, and its root, if it has one. -/
def Graph.ofText (text : String) : Step (Graph × Option Nat) :=
  if text.toList.all isAllowed then
    ((onlyRoot (8 * text.length + 16)).run (.start text)).map fun (root, source) => (source.graph, root)
  else refuse

end TreeScript.Yaml
