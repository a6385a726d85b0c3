/-
What a run adds to the log. It adds its events at the end, and which ones does not depend on what the log held
before: whatever that was, the run goes the same way, with a failure or without one, and its records come after those
from before. So what statements emit one after another is what they emit together, and over a whole session the log
holds the records of all its runs in their order, each of which is in the report of its own run as well.
-/
import TreeScript.Proofs.Run.Limit
import TreeScript.Proofs.Run.Lockstep
import TreeScript.Run.Session

namespace TreeScript

/-! ## One run -/

/-- The state with older events at the front of its log. -/
def State.after (before : Array Event) (st : State) : State := { st with log := before ++ st.log }

/-- Two runs in the same scope go in step, one of which has events in its log from before. -/
theorem lockstep_of_before (names : List String) (before : Array Event) :
    Lockstep names (fun _ a b => a = b) fun log log' => log' = before ++ log where
  find h _ := by rw [h]
  owns h _ := by rw [h]
  declare h _ ha hb := by
    rw [h, hb] at ha
    cases ha
    rfl
  set value h _ := by rw [h]
  push name h := by rw [h]
  pop h := by rw [h]
  visited s h hlog := by rw [h, hlog, Array.push_append]
  emitted r hlog := by rw [hlog, Array.push_append]

/-- A run does not depend on what its log holds, and leaves that at the front. -/
theorem execAll_log (limit : Nat) (statements : List Stmt) (scope : Scope) (log : Array Event) :
    execAll limit statements ⟨scope, log⟩ = (execAll limit statements ⟨scope, #[]⟩).always (.after log) := by
  have hstep := lockstep_of_before (mentioned statements) log
  refine ((hstep.execAll_mentioned 0 ⟨scope, #[]⟩ ⟨scope, log⟩ ⟨rfl, Array.append_empty.symm⟩).imp ?_).eq_always
  rintro a ⟨scope', log'⟩ ⟨rfl, rfl⟩
  rfl

/-- What an outcome holds of records comes after those from before. -/
theorem Outcome.leaves_after (o : Outcome) (start : State) (log : Array Event) :
    (o.always (.after log)).Leaves fun st =>
      Event.records st.log = Event.records log ++ Event.records (o.state start).log := by
  cases o with
  | finished st => exact Event.records_append log st.log
  | failed f st => exact Event.records_append log st.log
  | unfinished => trivial

/-- Which records a run emits depends neither on its log nor on the limit within which it ends. -/
theorem exists_emitted (statements : List Stmt) (scope : Scope) :
    ∃ emitted, ∀ limit log, (execAll limit statements ⟨scope, log⟩).Leaves fun st =>
      Event.records st.log = Event.records log ++ emitted := by
  by_cases hends : ∃ enough, execAll enough statements ⟨scope, #[]⟩ ≠ .unfinished
  · obtain ⟨enough, henough⟩ := hends
    refine ⟨Event.records ((execAll enough statements ⟨scope, #[]⟩).state ⟨scope, #[]⟩).log, ?_⟩
    intro limit log
    rw [execAll_log limit statements scope log]
    by_cases hcut : execAll limit statements ⟨scope, #[]⟩ = .unfinished
    · rw [hcut]
      trivial
    · rw [execAll_limit_unique hcut henough]
      exact Outcome.leaves_after _ _ log
  · -- No limit is enough, so whatever it emits is as good as nothing.
    refine ⟨[], ?_⟩
    intro limit log
    rw [execAll_log, not_not.mp (not_exists.mp hends limit)]
    trivial

theorem execAll_cons (limit : Nat) (s : Stmt) (rest : List Stmt) (st : State) :
    execAll limit (s :: rest) st = (s.exec limit st).andThen (execAll limit rest) := by
  rw [execAll]
  cases s.exec limit st <;> rfl

theorem execAll_toList (limit : Nat) (s? : Option Stmt) (st : State) :
    execAll limit s?.toList st = execOptional limit s? st := by
  cases s? with
  | none => rfl
  | some s =>
    rw [Option.toList_some, execAll_cons, execOptional]
    cases s.exec limit st <;> rfl

/-- Statements one after another are the first ones and then, if these finish, the others. -/
theorem execAll_append (limit : Nat) (first second : List Stmt) (st : State) :
    execAll limit (first ++ second) st = (execAll limit first st).andThen (execAll limit second) := by
  induction first generalizing st with
  | nil => rfl
  | cons s rest ih =>
    rw [List.cons_append, execAll_cons, execAll_cons]
    cases s.exec limit st with
    | finished between => exact ih between
    | failed f between => rfl
    | unfinished => rfl

/-! ## Sessions -/

/-- All events end up in both logs of a recorder. -/
theorem Recorder.foldl_enter (events : Array Event) (r : Recorder) :
    events.foldl enter r = ⟨r.recorded ++ events, r.target ++ events⟩ := by
  obtain ⟨events⟩ := events
  rw [List.foldl_toArray]
  induction events generalizing r with
  | nil => simp
  | cons e rest ih =>
    rw [List.foldl_cons, ih, enter]
    simp

namespace Session

/-- A program that runs in a scope of its own changes nothing of the session but its log, where its events come last. -/
theorem execute_eq (limit : Nat) (p : Program) (session : State) :
    execute limit p session = (p.run limit, { session with log := session.log ++ (p.run limit).final.log }) := by
  rw [execute, Recorder.foldl_enter]
  simp [Recorder.onto]

/-- It is the same as if the program ran with the log of the session, so that each event were handed on at once. -/
theorem execute_log (limit : Nat) (p : Program) (session : State) :
    (execute limit p session).2.log =
      ((p.exec limit ⟨.fresh, session.log⟩).state ⟨.fresh, session.log⟩).log := by
  rw [execute_eq, Program.run, Program.exec, Program.exec, State.fresh,
    execAll_log limit p.statements .fresh session.log]
  cases execAll limit p.statements ⟨.fresh, #[]⟩ with
  | finished st => rfl
  | failed f st => rfl
  | unfinished => exact Array.append_empty

/-- Programs that run one after another, each in a scope and within a limit of its own, with their reports. -/
def executeAll (runs : List (Nat × Program)) (session : State) : List Report × State :=
  match runs with
  | [] => ([], session)
  | (limit, p) :: rest =>
    let (report, session) := execute limit p session
    let (reports, session) := executeAll rest session
    (report :: reports, session)

theorem executeAll_cons (limit : Nat) (p : Program) (rest : List (Nat × Program)) (session : State) :
    executeAll ((limit, p) :: rest) session =
      (p.run limit :: (executeAll rest { session with log := session.log ++ (p.run limit).final.log }).1,
        (executeAll rest { session with log := session.log ++ (p.run limit).final.log }).2) := by
  rw [executeAll, execute_eq]

/-- What each program reports does not depend on the programs before it. -/
theorem executeAll_reports (runs : List (Nat × Program)) (session : State) :
    (executeAll runs session).1 = runs.map fun (limit, p) => p.run limit := by
  induction runs generalizing session with
  | nil => rfl
  | cons run rest ih => rw [executeAll_cons, ih, List.map_cons]

theorem executeAll_records (runs : List (Nat × Program)) (session : State) :
    Event.records (executeAll runs session).2.log =
      Event.records session.log ++ (executeAll runs session).1.flatMap Report.records := by
  induction runs generalizing session with
  | nil => exact (List.append_nil _).symm
  | cons run rest ih =>
    rw [executeAll_cons, ih, Event.records_append, List.append_assoc, List.flatMap_cons, Report.records]

end Session

/-! ## All output -/

/-- Output only grows, none of it is lost, and it does not depend on what was there before. -/
theorem output_appended :
    (∀ (limit : Nat) (statements : List Stmt) (scope : Scope) (log : Array Event),
      execAll limit statements ⟨scope, log⟩ = (execAll limit statements ⟨scope, #[]⟩).always (.after log)) ∧
    (∀ (statements : List Stmt) (scope : Scope), ∃ emitted, ∀ limit log,
      (execAll limit statements ⟨scope, log⟩).Leaves fun st =>
        Event.records st.log = Event.records log ++ emitted) ∧
    (∀ (limit : Nat) (first second : List Stmt) (st : State),
      execAll limit (first ++ second) st = (execAll limit first st).andThen (execAll limit second)) ∧
    (∀ (limit : Nat) (p : Program) (session : State), (Session.execute limit p session).2.log =
      ((p.exec limit ⟨.fresh, session.log⟩).state ⟨.fresh, session.log⟩).log) ∧
    ∀ (runs : List (Nat × Program)) (session : State),
      Event.records (Session.executeAll runs session).2.log =
        Event.records session.log ++ (Session.executeAll runs session).1.flatMap Report.records ∧
      List.Forall₂ (fun run report => report.ending = (run.2.exec run.1 .fresh).ending ∧
        ∀ log, (run.2.exec run.1 ⟨.fresh, log⟩).Leaves fun st =>
          Event.records st.log = Event.records log ++ report.records) runs (Session.executeAll runs session).1 := by
  refine ⟨execAll_log, exists_emitted, execAll_append, Session.execute_log, ?_⟩
  intro runs session
  refine ⟨Session.executeAll_records runs session, ?_⟩
  rw [Session.executeAll_reports, List.forall₂_map_right_iff, List.forall₂_same]
  intro run _
  refine ⟨rfl, ?_⟩
  intro log
  rw [Program.exec, execAll_log]
  exact Outcome.leaves_after _ .fresh log

end TreeScript
