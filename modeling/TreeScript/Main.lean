/-
The command line program: it reads the files that a command may look at, answers, and writes what
the answer says.
-/
import TreeScript.CommandLine.Reply

namespace TreeScript.CommandLine

/-- What a path leads to on the disk. -/
def readEntry (path : Path) : IO (Option Entry) := do
  try
    return some (.ofBytes (← IO.FS.readBinFile path.text))
  catch e =>
    match e with
    | .inappropriateType .. => return some .directory
    | .invalidArgument .. => return some .nameTooLong
    | _ => return none

def readFiles (paths : List Path) : IO Files := do
  let entries ← paths.mapM fun p => return (p, ← readEntry p)
  return fun p => (entries.lookup p).join

/-- The accounts of the system, each with its name, its number and its home. -/
def readAccounts : IO (List (String × String × String)) := do
  try
    let table ← IO.FS.readFile "/etc/passwd"
    return (table.splitOn "\n").filterMap fun line =>
      match line.splitOn ":" with
      | [name, _, number, _, _, home, _] => some (name, number, home)
      | _ => none
  catch _ => return []

/-- The number of the account that is in use. -/
def readAccountNumber : IO (Option String) := do
  try
    let status ← IO.FS.readFile "/proc/self/status"
    let line := (status.splitOn "\n").find? (·.startsWith "Uid:")
    return line.bind fun line => (line.splitOn "\t")[1]?
  catch _ => return none

def readEnvironment : IO Environment := do
  let names := ["HOME", "V12_CONFIG", "V12_DEBUG", "V12_TRACE", "V12_NO_COLOR"]
  let values ← names.mapM fun name => return (name, ← IO.getEnv name)
  let accounts ← readAccounts
  let number ← readAccountNumber
  return {
    value? := fun name => (values.lookup name).join
    ownHome? := (accounts.find? fun (_, n, _) => some n == number).map fun (_, _, home) => home
    homeOf? := fun name => (accounts.lookup name).map Prod.snd }

/-- How often a loop may ask for its condition. -/
def loopLimit : Nat := 1000000000000000000

def writeChunks (chunks : List Console.Chunk) : IO Unit := do
  for chunk in chunks do
    match chunk with
    | .out text => IO.print text
    | .err text => IO.eprint text

/-- Writes an answer and gives the exit code. -/
def write : Answer → IO UInt32
  | .reply r => do
    writeChunks r.chunks
    return r.exitCode.toUInt32
  | .usage stop => do
    let chunk : String → Console.Chunk := match stop with
      | .help => .out
      | .misuse => .err
    writeChunks (usage.map fun line => chunk (line ++ "\n"))
    return if stop matches .help then 0 else 2
  | .crash written escape => do
    writeChunks written
    throw (.userError (match escape with
      | .trouble t => t.message.getD Text.unwritableMessage
      | .unwritable => Text.unwritableMessage))
  | .exhausted => throw (.userError "the stack has no room for the program")
  | .untold => throw (.userError "a text with half of a surrogate pair")
  | .defect d => throw (.userError d.message)
  | .unfinished => throw (.userError "the program goes on too long")

end TreeScript.CommandLine

open TreeScript TreeScript.CommandLine in
def main (args : List String) : IO UInt32 := do
  let env ← readEnvironment
  let files ← match Command.ofArguments args with
    | .ok command => readFiles (command.paths env)
    | .error _ => pure fun _ => none
  write (respond (.roomy loopLimit) files env args)
