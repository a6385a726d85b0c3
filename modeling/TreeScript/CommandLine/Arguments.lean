/-
The arguments of the command line: a command, with options before and after it. The words of an
option may be cut short as long as they stay unique, and its value may follow an equals sign; after
a bare pair of dashes nothing is an option. A request for help ends the reading at once, and what
cannot be understood is misuse.
-/
import TreeScript.Config

namespace TreeScript.CommandLine

/-- Why there is nothing to do but to say how the command line is used. -/
inductive Stop where
  | help | misuse
deriving DecidableEq

/-- What an option asks for. -/
inductive Request where
  | help | config | debug | trace | noColor
deriving DecidableEq

/-- The options of a command, by their spellings. -/
abbrev Options := List (String × Request)

namespace Options

def common : Options := [("-h", .help), ("--help", .help)]

def leading : Options := common ++ [("--config", .config)]

def running : Options := common ++ [("--debug", .debug), ("--trace", .trace), ("--no-color", .noColor)]

end Options

def usage : List String :=
  ["usage: v12 [--config FILE] run FILE [--debug] [--trace] [--no-color]",
    "       v12 [--config FILE] check FILE",
    "       v12 [--config FILE] version"]

/-! ## Words -/

/-- What an option has with it in the same word: nothing, a value after an equals sign, or, if it has one dash,
more letters, with or without such a sign. -/
inductive Attached where
  | nothing
  | value (text : String)
  | letters (text : String)
deriving DecidableEq

/-- An argument as it looks to a command. -/
inductive Word where
  | plain (text : String)
  | dashes
  | option (request : Request) (attached : Attached)
  | unknown
deriving DecidableEq

/-- An option is short if it has one dash. -/
def isShort (spelling : String) : Bool := !spelling.startsWith "--"

/-- What stands before the first equals sign, and after it, if there is one. -/
def splitEquals (s : String) : String × Option String :=
  let name := s.toList.takeWhile (· != '=')
  match s.toList.drop name.length with
  | [] => (s, none)
  | _ :: value => (String.ofList name, some (String.ofList value))

/-- A minus sign and digits of any script, perhaps with a point before the last of them. A line feed at the end
does not matter. -/
def isNegativeNumber (s : String) : Bool :=
  let cs := s.toList
  match if cs.getLast? == some '\n' then cs.dropLast else cs with
  | '-' :: rest =>
    let places :=
      match rest.dropWhile Text.isDecimalDigit with
      | '.' :: places => places
      | [] => rest
      | other => other
    !places.isEmpty && places.all Text.isDecimalDigit
  | _ => false

/-- What an option has with it behind an equals sign. -/
def Attached.ofValue (spelling value : String) : Attached :=
  if isShort spelling then .letters value else .value value

/-- The options that a word may stand for when it is none as it is: those that it begins, if it has two dashes,
else a short one with more letters. -/
def candidates (known : Options) (s : String) : List Word :=
  if isShort s then
    (known.filter (·.1 == String.ofList (s.toList.take 2))).map fun o =>
      .option o.2 (.letters (String.ofList (s.toList.drop 2)))
  else
    let (name, value) := splitEquals s
    (known.filter (·.1.startsWith name)).map fun o => .option o.2 ((value.map .value).getD .nothing)

/-- The one candidate for a word; if there is none, the word may still be plain. -/
def guess (known : Options) (s : String) : Except Stop Word :=
  match candidates known s with
  | [] => .ok (if isNegativeNumber s || s.toList.contains ' ' then .plain s else .unknown)
  | [w] => .ok w
  | _ => .error .misuse

/-- How a word looks to a command with some options. -/
def classify (known : Options) (s : String) : Except Stop Word :=
  if !s.startsWith "-" || s == "-" then .ok (.plain s)
  else
    match known.lookup s with
    | some r => .ok (.option r .nothing)
    | none =>
      match splitEquals s with
      | (name, some value) =>
        match known.lookup name with
        | some r => .ok (.option r (.ofValue name value))
        | none => guess known s
      | (_, none) => guess known s

/-- How all words look. Behind a bare pair of dashes they are plain. -/
def classifyAll (known : Options) : List String → Except Stop (List Word)
  | [] => .ok []
  | s :: rest =>
    if s == "--" then .ok (.dashes :: rest.map .plain)
    else
      match classify known s, classifyAll known rest with
      | .ok w, .ok ws => .ok (w :: ws)
      | .error stop, _ => .error stop
      | _, .error stop => .error stop

/-- Whether an option that has no value may have this with it. Letters are more options, and of the short ones
only the one for help is known. -/
def Attached.isAdmitted : Attached → Bool
  | .nothing => true
  | .value _ => false
  | .letters s => !s.isEmpty && s.toList.all (· == 'h')

/-! ## The words of a command -/

/-- What the words of a command say: its file, what is asked for, and whether there is too much. -/
structure Selection where
  file : Option String
  requests : List Request
  surplus : Bool

namespace Selection

def empty : Selection := ⟨none, [], false⟩

/-- Takes a word that is no option: the file, unless there is one, or none is wanted. -/
def take (r : Selection) (wantsFile : Bool) (s : String) : Selection :=
  if wantsFile && r.file.isNone then { r with file := some s } else { r with surplus := true }

/-- Reads words. A pair of dashes belongs to the file next to it. -/
def words (wantsFile : Bool) : Bool → List Word → Selection → Except Stop Selection
  | _, [], r => .ok r
  | _, .plain s :: rest, r => words wantsFile (wantsFile && r.file.isNone) rest (r.take wantsFile s)
  | afterFile, .dashes :: rest, r =>
    let belongs := afterFile || (wantsFile && r.file.isNone && !rest.isEmpty)
    words wantsFile false rest { r with surplus := r.surplus || !belongs }
  | _, .unknown :: rest, r => words wantsFile false rest { r with surplus := true }
  | _, .option request attached :: rest, r =>
    if !attached.isAdmitted then .error .misuse
    else if request = .help then .error .help
    else words wantsFile false rest { r with requests := request :: r.requests }

/-- The words of a command, which must be neither too many nor too few. -/
def ofArguments (known : Options) (wantsFile : Bool) (args : List String) : Except Stop Selection :=
  match classifyAll known args with
  | .error stop => .error stop
  | .ok ws =>
    match words wantsFile false ws .empty with
    | .error stop => .error stop
    | .ok r => if r.surplus || r.file.isSome != wantsFile then .error .misuse else .ok r

/-- A setting that is asked for, or left open. -/
def setting (r : Selection) (request : Request) (value : Bool) : Option Bool :=
  if r.requests.contains request then some value else none

def overrides (r : Selection) : Overrides :=
  ⟨r.setting .debug true, r.setting .trace true, r.setting .noColor false⟩

end Selection

/-! ## Commands -/

inductive Action where
  | run (file : String) (overrides : Overrides)
  | check (file : String)
  | version
deriving DecidableEq

structure Command where
  config : Config.Choice
  action : Action
deriving DecidableEq

namespace Action

def ofArguments (name : String) (args : List String) : Except Stop Action :=
  match name with
  | "run" => (Selection.ofArguments .running true args).map fun r => run (r.file.getD "") r.overrides
  | "check" => (Selection.ofArguments .common true args).map fun r => check (r.file.getD "")
  | "version" => (Selection.ofArguments .common false args).map fun _ => version
  | _ => .error .misuse

end Action

namespace Command

/-- The configuration that a value after an equals sign asks for. A bare pair of dashes counts for nothing. -/
def choice (value : String) : Config.Choice := if value == "--" then .pathless else .file value

/-- Reads the words up to the command's name, next to the arguments they come from. An unknown option is misuse,
but the command may still explain itself. -/
def words (config : Config.Choice) (surplus : Bool) : List (Word × String) → Except Stop Command
  | [] => .error .misuse
  | (.plain _, name) :: rest =>
    match Action.ofArguments name (rest.map Prod.snd) with
    | .error stop => .error stop
    | .ok action => if surplus then .error .misuse else .ok ⟨config, action⟩
  | (.dashes, _) :: _ => .error .misuse
  | (.unknown, _) :: rest => words config true rest
  | (.option .config (.value value), _) :: rest => words (choice value) surplus rest
  | (.option .config .nothing, _) :: (.plain value, _) :: rest => words (.file value) surplus rest
  | (.option .config _, _) :: _ => .error .misuse
  | (.option _ attached, _) :: _ => .error (if attached.isAdmitted then .help else .misuse)

def ofArguments (args : List String) : Except Stop Command :=
  match classifyAll .leading args with
  | .error stop => .error stop
  | .ok ws => words .standard false (ws.zip args)

/-- The paths that may be looked at: the configuration and the program. -/
def paths (env : Environment) (c : Command) : List Path :=
  let config :=
    match c.config with
    | .standard => (Config.defaultPath env).toOption.toList
    | .file s => [Path.ofString s]
    | .pathless => []
  match c.action with
  | .run file _ => config ++ [Path.ofString file]
  | .check file => config ++ [Path.ofString file]
  | .version => config

end Command

end TreeScript.CommandLine
