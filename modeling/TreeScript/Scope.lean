/-
The scope chain: frames of bindings, innermost first. A name means its binding in the innermost
frame that has one. Declaring binds in the current frame, assigning replaces the value in the
frame that owns the name, and a constant is never replaced.
-/
import TreeScript.Error

namespace TreeScript

/-- A name with its value, and whether it may be assigned to. -/
structure Binding where
  name : String
  value : Value
  isMutable : Bool
deriving DecidableEq

/-- The bindings of one scope, in the order of their declarations. -/
structure Frame where
  name : String
  bindings : List Binding
deriving DecidableEq

namespace Frame

def empty (name : String) : Frame := ⟨name, []⟩

def find? (f : Frame) (name : String) : Option Binding := f.bindings.find? (·.name == name)

def owns (f : Frame) (name : String) : Bool := (f.find? name).isSome

/-- The frame with one more binding. -/
def bind (f : Frame) (b : Binding) : Frame := { f with bindings := f.bindings ++ [b] }

/-- The frame with another value for a name that it owns. -/
def set (f : Frame) (name : String) (value : Value) : Frame :=
  { f with bindings := f.bindings.map fun b => if b.name == name then { b with value } else b }

end Frame

/-- The current frame and the frames around it, the innermost first. -/
structure Scope where
  current : Frame
  outer : List Frame
deriving DecidableEq

namespace Scope

def fresh : Scope := ⟨Frame.empty "global", []⟩

def frames (s : Scope) : List Frame := s.current :: s.outer

/-- How many frames there are around the current one. -/
def depth (s : Scope) : Nat := s.outer.length

/-! ## Frames -/

def push (s : Scope) (name : String) : Scope := ⟨Frame.empty name, s.frames⟩

/-- Closes the current frame, unless it is the last one. -/
def pop? (s : Scope) : Option Scope :=
  match s.outer with
  | [] => none
  | f :: rest => some ⟨f, rest⟩

/-- Closes the current frame; the last one stays. -/
def pop (s : Scope) : Scope := s.pop?.getD s

/-! ## Bindings -/

/-- The binding that a name means. -/
def find? (s : Scope) (name : String) : Option Binding := s.frames.findSome? (·.find? name)

def isDefined (s : Scope) (name : String) : Bool := (s.find? name).isSome

def owns (s : Scope) (name : String) : Bool := s.current.owns name

/-- Binds a name in the current frame, which must not bind it yet. -/
def declare (s : Scope) (name : String) (value : Value) (isMutable : Bool) : Except Cause Scope :=
  if s.owns name then .error (.redeclaration name)
  else .ok { s with current := s.current.bind ⟨name, value, isMutable⟩ }

def lookup (s : Scope) (name : String) : Except Cause Value :=
  match s.find? name with
  | none => .error (.undefinedVariable name)
  | some b => .ok b.value

/-- The value of a name that may be assigned to. -/
def currentForUpdate (s : Scope) (name : String) : Except Cause Value :=
  match s.find? name with
  | none => .error (.undefinedVariable name)
  | some b => if b.isMutable then .ok b.value else .error (.immutableAssignment name)

/-- The frames with another value for a name in the first one that owns it. -/
def setFirst (name : String) (value : Value) : List Frame → List Frame
  | [] => []
  | f :: rest => if f.owns name then f.set name value :: rest else f :: setFirst name value rest

/-- The scope with another value for a name, in the innermost frame that owns it. -/
def set (s : Scope) (name : String) (value : Value) : Scope :=
  if s.current.owns name then { s with current := s.current.set name value }
  else { s with outer := setFirst name value s.outer }

/-- Replaces the value of a name, which must be bound and mutable. -/
def assign (s : Scope) (name : String) (value : Value) : Except Cause Scope :=
  (s.currentForUpdate name).map fun _ => s.set name value

end Scope

end TreeScript
