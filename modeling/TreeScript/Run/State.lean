/-
The state of a run: the scope chain, and the log of what has happened so far. The log holds the
statements that were reached and the records that were emitted, in one order; it only grows.
-/
import TreeScript.Scope
import TreeScript.Tree.Basic

namespace TreeScript

/-- A statement that was reached, with the depth and the name of the frame current then. -/
structure Visit where
  stmt : Stmt
  depth : Nat
  scopeName : String

inductive Event where
  | visited (visit : Visit)
  | emitted (record : Record)

namespace Event

def record? : Event → Option Record
  | emitted record => some record
  | visited _ => none

def visit? : Event → Option Visit
  | visited visit => some visit
  | emitted _ => none

def records (log : Array Event) : List Record := log.toList.filterMap record?

def visits (log : Array Event) : List Visit := log.toList.filterMap visit?

end Event

structure State where
  scope : Scope
  log : Array Event

namespace State

def fresh : State := ⟨.fresh, #[]⟩

def visit (st : State) (s : Stmt) : State :=
  { st with log := st.log.push (.visited ⟨s, st.scope.depth, st.scope.current.name⟩) }

def emit (st : State) (r : Record) : State := { st with log := st.log.push (.emitted r) }

def push (st : State) (name : String) : State := { st with scope := st.scope.push name }

def pop (st : State) : State := { st with scope := st.scope.pop }

end State

/-- How a run ends: with its last state, with a failure and the state it came up in, or not within the
given limit. -/
inductive Outcome where
  | finished (state : State)
  | failed (failure : Failure) (state : State)
  | unfinished

namespace Outcome

/-- Goes on from the last state of a run that finished. -/
def andThen (o : Outcome) (next : State → Outcome) : Outcome :=
  match o with
  | finished st => next st
  | failed f st => failed f st
  | unfinished => unfinished

/-- Changes the last state, however the run ended. -/
def always (o : Outcome) (change : State → State) : Outcome :=
  match o with
  | finished st => finished (change st)
  | failed f st => failed f (change st)
  | unfinished => unfinished

/-- Goes on with what a step gives, or fails in the state before it. -/
def ofStep {α : Type} (st : State) (step : Except Failure α) (next : α → Outcome) : Outcome :=
  match step with
  | .ok a => next a
  | .error f => failed f st

/-- Runs in a frame of its own, which is closed however the run ends. -/
def inFrame (name : String) (body : State → Outcome) (st : State) : Outcome :=
  (body (st.push name)).always State.pop

/-- Runs a body as long as a test holds, which is asked `limit` times at most. -/
def loop (test : State → Except Failure Bool) (body : State → Outcome) : Nat → State → Outcome
  | 0, _ => unfinished
  | limit + 1, st =>
    match test st with
    | .error f => failed f st
    | .ok false => finished st
    | .ok true =>
      match body st with
      | finished st => loop test body limit st
      | failed f st => failed f st
      | unfinished => unfinished

end Outcome

end TreeScript
