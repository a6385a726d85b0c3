/-
What the command line answers: an exit code, and what it writes. A program's own output goes where
its records belong; messages about the engine, the trace of statements and errors go to the error
output. A command that comes upon something that cannot be written, or upon a problem that nobody
reports, ends out of order, and what it has written by then is all that is known of its output.
-/
import TreeScript.Check
import TreeScript.CommandLine.Arguments
import TreeScript.Run.Session
import TreeScript.Tree.Source

namespace TreeScript.CommandLine

/-! ## Trouble -/

/-- A problem that ends a command with an error line. -/
inductive Trouble where
  | config (fault : Config.Fault)
  | notFound (path : Path)
  | isDirectory (file : String)
  | nameTooLong (file : String)
  | program (error : Error)

/-- What is said of a problem, if its place in the program has a text. -/
def Trouble.message : Trouble → Option String
  | config fault => some fault.message
  | notFound path => some s!"program not found: {path.text}"
  | isDirectory file => some s!"cannot read {file}: Is a directory"
  | nameTooLong file => some s!"cannot read {file}: File name too long"
  | program error => error.format

/-- Whether a problem is reported; any other one ends the command out of order. -/
def Trouble.isReported : Trouble → Bool
  | config fault => fault.isReported
  | program error => error.isReported
  | _ => true

/-- Whether it is not known what becomes of a command that has the problem. -/
def Trouble.isUntold : Trouble → Bool
  | config (.undecodable _ reason) => reason.isUntold
  | program error => error.isUntold
  | _ => false

def engineLine (message : String) : String := "[V12]: " ++ message

/-- The error line of a problem. -/
def Trouble.line (t : Trouble) (color : Bool) : Option String :=
  t.message.map fun message =>
    let text := engineLine ("Error: " ++ message)
    if color then Console.bold ++ Console.red ++ text ++ Console.reset else text

/-! ## Replies -/

/-- An exit code, what is written, and the problem that is reported last, if there is one. -/
structure Reply where
  exitCode : Nat
  written : List Console.Chunk
  trouble : Option Trouble
  color : Bool

namespace Reply

def chunks (r : Reply) : List Console.Chunk :=
  r.written ++ ((r.trouble.bind (·.line r.color)).map fun line => .err (line ++ "\n")).toList

def stdout (r : Reply) : String := Console.stdout r.chunks

def stderr (r : Reply) : String := Console.stderr r.chunks

end Reply

/-- What ends a command out of order: a problem that is not reported, or a number that is to be written and has too many
digits. -/
inductive Escape where
  | trouble (trouble : Trouble)
  | unwritable

/-- How a command ends. Besides a reply and an explanation of the usage it may end out of order, after something has
been written; or because the stack has no room for it, and then it is not known what has been written. It may hold a
text that cannot be followed here, the program may be put together wrongly, or go on too long. -/
inductive Answer where
  | reply (reply : Reply)
  | usage (stop : Stop)
  | crash (written : List Console.Chunk) (escape : Escape)
  | exhausted
  | untold
  | defect (defect : Defect)
  | unfinished

namespace Answer

/-- The answer to a problem that comes up after something has been written. -/
def ofTrouble (written : List Console.Chunk) (trouble : Trouble) (color : Bool) : Answer :=
  if trouble.isUntold then .untold
  else if !trouble.isReported then .crash written (.trouble trouble)
  else if trouble.message.isNone then .crash written .unwritable
  else .reply ⟨1, written, some trouble, color⟩

/-- Writes one thing after the other and goes on, or ends at the first that cannot be written. -/
def afterChunks (chunks : List (Option Console.Chunk)) (next : List Console.Chunk → Answer) : Answer :=
  if chunks.all Option.isSome then next (chunks.filterMap id)
  else .crash ((chunks.takeWhile Option.isSome).filterMap id) .unwritable

end Answer

/-! ## The runtime -/

/-- What there is to run programs with: how often a loop may ask for its condition, and which documents the stack has
room to read, which programs to run under some settings, and which to check. -/
structure Runtime where
  loopLimit : Nat
  reads : Document → Bool
  runs : Config → Program → Bool
  checks : Program → Bool

/-- A runtime whose stack has room for everything. -/
def Runtime.roomy (loopLimit : Nat) : Runtime := ⟨loopLimit, fun _ => true, fun _ _ => true, fun _ => true⟩

/-! ## Programs -/

section

variable (rt : Runtime)

def loadProgram (files : Files) (file : String) : Except Trouble Program :=
  let path := Path.ofString file
  match files path with
  | none => .error (.notFound path)
  | some .directory => .error (.isDirectory file)
  | some .nameTooLong => .error (.nameTooLong file)
  | some (.text content) => (Program.ofFile rt.reads path (.ok content)).mapError .program
  | some .garbled => (Program.ofFile rt.reads path (.error .notText)).mapError .program

def traceLine (v : Visit) : Option String :=
  v.stmt.span.start.text.map fun place =>
    engineLine s!"trace: {place} {v.stmt.kindName} (scope depth {v.depth})"

/-- What an entry of the log makes the command line write. -/
def eventChunks (config : Config) : Event → List (Option Console.Chunk)
  | .visited v => if config.trace then [(traceLine v).map fun line => .err (line ++ "\n")] else []
  | .emitted r => [some (Console.chunk config.color r)]

def debugChunks (config : Config) (message : Option String) : List (Option Console.Chunk) :=
  if config.debug then [message.map fun m => .err (engineLine m ++ "\n")] else []

def startedMessage : String := "Engine has started successfully."

def finishedMessage (p : Program) : Option String :=
  p.name.plain.map fun name => s!"Finished {name} ({p.statements.length} statement(s))."

def runAnswer (config : Config) (p : Program) : Answer :=
  let report := p.run rt.loopLimit
  let chunks := debugChunks config (some startedMessage) ++ report.final.log.toList.flatMap (eventChunks config)
  if !rt.runs config p then .exhausted
  else
    match report.ending with
    | .success =>
      .afterChunks (chunks ++ debugChunks config (finishedMessage p)) fun written =>
        .reply ⟨0, written, none, config.color⟩
    | .error e => .afterChunks chunks fun written => .ofTrouble written (.program e) config.color
    | .defect d => .afterChunks chunks fun _ => .defect d
    | .unfinished => .unfinished

/-- The last line about a checked program. -/
def checkSummary (p : Program) (found : Collector) : Option String :=
  p.name.plain.map fun name =>
    if found.hasErrors then s!"{name}: {found.errorCount} error(s)"
    else s!"OK: {name} - {p.statements.length} statement(s), no errors"

/-- The lines about a checked program: its diagnostics, and then the last one. -/
def checkLines (p : Program) : List (Option String) :=
  let found := Check.run p Collector.defaultLimit
  found.diagnostics.toList.map Diagnostic.format ++ [checkSummary p found]

def checkAnswer (config : Config) (p : Program) : Answer :=
  let found := Check.run p Collector.defaultLimit
  let chunks := (checkLines p).map (·.map fun line => Console.Chunk.out (line ++ "\n"))
  if !rt.checks p then .exhausted
  else
    .afterChunks chunks fun written =>
      .reply ⟨if found.hasErrors then 1 else 0, written, none, config.color⟩

def versionLines : List String := ["V12 0.1.0", "Evaluator core with arbitrary-precision integers"]

/-! ## Commands -/

/-- Carries out an action with a configuration. -/
def act (files : Files) (config : Config) : Action → Answer
  | .version => .reply ⟨0, versionLines.map fun l => .out (l ++ "\n"), none, config.color⟩
  | .check file =>
    match loadProgram rt files file with
    | .error trouble => .ofTrouble [] trouble config.color
    | .ok p => checkAnswer rt config p
  | .run file overrides =>
    let config := config.withOverrides overrides
    match loadProgram rt files file with
    | .error trouble => .ofTrouble [] trouble config.color
    | .ok p => runAnswer rt config p

/-- Carries out the command of the arguments. Problems with the configuration are reported without colors. -/
def respond (files : Files) (env : Environment) (args : List String) : Answer :=
  match Command.ofArguments args with
  | .error stop => .usage stop
  | .ok command =>
    match Config.load files env command.config with
    | .error fault => .ofTrouble [] (.config fault) false
    | .ok config => act rt files config command.action

end

end TreeScript.CommandLine
