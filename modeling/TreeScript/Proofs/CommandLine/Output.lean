/-
What the settings of the command line do not touch. They add messages about the engine and a trace of the statements to
the error output and color what stands there, but whatever they are and wherever they come from, a program writes the
same to the standard output, and the exit code says the same of it. Without them the error output holds what the
program emits as warnings and errors, and after it the one problem that ended the command. All of this holds of replies.
Whether there is a reply does depend on the settings: a message or a line of the trace may tell of a number that is too
long to be written, and then the command ends out of order.
-/
import TreeScript.CommandLine.Reply
import TreeScript.Proofs.Integer.Decimal
import TreeScript.Proofs.Run.Safety

namespace TreeScript

/-! ## The two streams -/

namespace Console

end Console

namespace CommandLine

/-! ## What a run writes -/

section

variable (config : Config)

variable {config}

end

/-! ### Programs of files -/

variable {rt : Runtime}

section

variable (rt : Runtime) (files : Files) (file : String)

end

/-! ## Answers -/

/-- A command ends out of order. -/
inductive Answer.Leaves : Answer → Prop
  | crash {written : List Console.Chunk} {escape : Escape} : Leaves (.crash written escape)
  | exhausted : Leaves .exhausted

/-- An answer out of order if a condition holds, and a reply of some kind if it does not. -/
inductive Answer.Gives (U : Prop) (P : Reply → Prop) : Answer → Prop
  | leaves {a : Answer} (hu : U) (h : a.Leaves) : Gives U P a
  | reply {r : Reply} (hu : ¬ U) (h : P r) : Gives U P (.reply r)

namespace Answer

variable {U V : Prop} {P Q : Reply → Prop}

theorem Gives.congr {a : Answer} (h : a.Gives U P) (huv : U ↔ V) (hpq : ∀ r, P r → Q r) : a.Gives V Q := by
  cases h with
  | leaves hu h => exact .leaves (huv.mp hu) h
  | reply hu h => exact .reply (mt huv.mpr hu) (hpq _ h)

end Answer

section

variable (rt : Runtime) (config : Config) (p : Program)

/-- What keeps the run of a program from being told of: the stack has no room for it, a statement that is traced is at a
place without a text, the error that ends the run is at such a place, or the last message tells of a name without a
text. -/
inductive RunEscapes : Prop
  | stack (h : rt.runs config p = false)
  | trace {v : Visit} (htrace : config.trace = true) (hv : v ∈ (p.run rt.loopLimit).visits)
    (hplace : v.stmt.span.start.text = none)
  | failure {e : Error} (hend : (p.run rt.loopLimit).ending = .error e) (hplace : e.format = none)
  | name (hdebug : config.debug = true) (hend : (p.run rt.loopLimit).ending = .success) (hname : p.name.plain = none)

end

section

variable {config : Config} {p : Program}

end

section

variable (rt : Runtime) (files : Files) (config : Config) (file : String)

/-- It is known what becomes of the document of a program file, and the program does not go on too long. -/
structure Ends : Prop where
  told : ∀ t, loadProgram rt files file = .error t → t.isUntold = false
  ends : ∀ p, loadProgram rt files file = .ok p → (p.run rt.loopLimit).ending ≠ .unfinished

end

variable {files : Files} {file : String}

end CommandLine

end TreeScript
