/-
Sessions: programs run one after another with one log. A program runs in the scope that the
session keeps, or in a scope of its own, from which only its records and visits come back; these are
recorded for the report of the run, and each is handed on to the log of the session.
-/
import TreeScript.Run.Execute

namespace TreeScript

inductive Ending where
  | success
  | error (error : Error)
  | defect (defect : Defect)
  | unfinished

namespace Outcome

def ending : Outcome → Ending
  | finished _ => .success
  | failed (.error e) _ => .error e
  | failed (.defect d) _ => .defect d
  | unfinished => .unfinished

/-- The last state, or the one before for a run without an end. -/
def state (before : State) : Outcome → State
  | finished st => st
  | failed _ st => st
  | unfinished => before

end Outcome

/-- How a program ran on its own, and the state it left. -/
structure Report where
  ending : Ending
  final : State

def Program.run (limit : Nat) (p : Program) : Report :=
  let outcome := p.exec limit .fresh
  ⟨outcome.ending, outcome.state .fresh⟩

def Report.records (r : Report) : List Record := Event.records r.final.log

def Report.visits (r : Report) : List Visit := Event.visits r.final.log

/-- A log for the report of one run, and the log that every event is handed on to. -/
structure Recorder where
  recorded : Array Event
  target : Array Event

namespace Recorder

def onto (target : Array Event) : Recorder := ⟨#[], target⟩

/-- Enters an event into both logs. -/
def enter (r : Recorder) (e : Event) : Recorder := ⟨r.recorded.push e, r.target.push e⟩

end Recorder

namespace Session

def run (limit : Nat) (p : Program) (session : State) : Ending × State :=
  let outcome := p.exec limit session
  (outcome.ending, outcome.state session)

/-- Runs a program in a scope of its own, and records what happens. -/
def execute (limit : Nat) (p : Program) (session : State) : Report × State :=
  let report := p.run limit
  let recorder := report.final.log.foldl Recorder.enter (.onto session.log)
  (⟨report.ending, { report.final with log := recorder.recorded }⟩, { session with log := recorder.target })

end Session

end TreeScript
