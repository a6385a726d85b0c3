/-
The configuration of the command line. Settings come from the defaults, a file, and variables of
the environment; the later ones prevail. The file is a YAML mapping from names of settings to truth
values. It is the one asked for, which must exist, or else the one that a variable names, or the
one in the home directory.
-/
import TreeScript.FileTree
import TreeScript.Yaml.Reader

namespace TreeScript

/-- How the command line runs programs: with messages about the engine, with a line for each statement, and
with colors. -/
structure Config where
  debug : Bool
  trace : Bool
  color : Bool
deriving DecidableEq

/-- Settings, each of which may be left open. -/
structure Overrides where
  debug : Option Bool
  trace : Option Bool
  color : Option Bool
deriving DecidableEq

/-- What the system says of the surroundings: the values of the variables that are set, the home of the account that
is in use, and those of the accounts with a name. -/
structure Environment where
  value? : String → Option String
  ownHome? : Option String
  homeOf? : String → Option String

namespace Environment

instance : CoeFun Environment fun _ => String → Option String := ⟨value?⟩

/-- The home of an account with a name, or of the one in use, where a variable prevails. -/
def home? (env : Environment) : Option String → Option String
  | some name => env.homeOf? name
  | none => env "HOME" <|> env.ownHome?

end Environment

/-- The file that is asked for: none, the one at a path, or one without any path. -/
inductive Config.Choice where
  | standard
  | file (path : String)
  | pathless
deriving DecidableEq

namespace Config

def standard : Config := ⟨false, false, true⟩

/-- The settings after those that are not left open have been replaced. -/
def withOverrides (c : Config) (o : Overrides) : Config :=
  ⟨o.debug.getD c.debug, o.trace.getD c.trace, o.color.getD c.color⟩

def optionNames : List String := ["debug", "trace", "color"]

/-! ## What can go wrong -/

inductive Fault where
  | missing (path : Path)
  | undecodable (path : Path) (reason : Undecodable)
  | badValue (message : String)
  | notMapping (path : Path)
  | unknownOptions (path : Path) (names : List String)
  | notBoolean (path : Path) (name : String)
  | directory (path : Path)
  | nameTooLong (path : Path)
  | unnamedOption (path : Path)
  | noHome
  | noPath
deriving DecidableEq

namespace Fault

def message : Fault → String
  | missing path => s!"config file not found: {path.text}"
  | undecodable path reason => s!"cannot parse config file {path.text}: {reason.message}"
  | badValue message => message
  | notMapping path => s!"config file {path.text} must contain a mapping"
  | unknownOptions path names => s!"unknown config option(s) in {path.text}: " ++ ", ".intercalate names
  | notBoolean path name => s!"config option '{name}' in {path.text} must be true or false"
  | directory path => s!"config file {path.text} is a directory"
  | nameTooLong path => s!"the name of config file {path.text} is too long"
  | unnamedOption path => s!"a config option in {path.text} is no text"
  | noHome => "Could not determine home directory."
  | noPath => "a config file is asked for without its path"

/-- Whether the command line reports the fault and ends in order. -/
def isReported : Fault → Bool
  | undecodable _ reason => reason.isReported
  | directory _ => false
  | nameTooLong _ => false
  | unnamedOption _ => false
  | noHome => false
  | noPath => false
  | _ => true

end Fault

/-! ## The file -/

def isOption (key : Document) : Bool := optionNames.any key.isText

def setting? (entries : List (Document × Document)) (name : String) : Option Bool :=
  (Document.field? name entries).bind Document.bool?

/-- The settings of entries whose keys are all known. The values must be truth values. -/
def ofEntries (path : Path) (entries : List (Document × Document)) : Except Fault Overrides :=
  match entries.find? fun e => e.2.bool?.isNone with
  | some (key, _) => .error (.notBoolean path (key.text?.getD ""))
  | none => .ok ⟨setting? entries "debug", setting? entries "trace", setting? entries "color"⟩

/-- The settings that a document holds. Whatever counts as false holds none. -/
def ofDocument (path : Path) (d : Document) : Except Fault Overrides :=
  if !d.isTruthy then .ok ⟨none, none, none⟩
  else
    match d.view with
    | .map entries =>
      let unknown := (entries.map Prod.fst).filter (!isOption ·)
      if unknown.isEmpty then ofEntries path entries
      else
        match unknown.mapM Document.text? with
        | some names => .error (.unknownOptions path (names.mergeSort fun a b => decide (a ≤ b)))
        | none => .error (.unnamedOption path)
    | _ => .error (.notMapping path)

def ofText (path : Path) (text : String) : Except Fault Overrides :=
  match Yaml.read text with
  | .ok d => ofDocument path d
  | .error (.value message) => .error (.badValue message)
  | .error reason => .error (.undecodable path reason)

/-- The settings of a file, of which there are none if there is no file. -/
def ofEntry (path : Path) : Option Entry → Except Fault Overrides
  | none => .ok ⟨none, none, none⟩
  | some .directory => .error (.directory path)
  | some .nameTooLong => .error (.nameTooLong path)
  | some .garbled => .error (.badValue Undecodable.notText.message)
  | some (.text content) => ofText path content

/-! ## The environment -/

/-- What a variable says: nothing if it is blank, else yes for one of four words. -/
def flag? (value : Option String) : Option Bool :=
  match value with
  | none => none
  | some s =>
    let word := Text.lower (Text.strip s)
    if word.isEmpty then none else some (["1", "true", "yes", "on"].contains word)

def ofEnvironment (env : Environment) : Overrides :=
  ⟨flag? (env "V12_DEBUG"), flag? (env "V12_TRACE"), (flag? (env "V12_NO_COLOR")).map (!·)⟩

/-- The names on the way from the home directory to the file. -/
def homeParts : List String := [".config", "v12", "config.yaml"]

/-- The file that holds the configuration unless another one is asked for. -/
def defaultPath (env : Environment) : Except Fault Path :=
  let expanded :=
    match env "V12_CONFIG" with
    | none | some "" => ((Path.ofString "~").expandHome env.home?).map (·.below homeParts)
    | some s => (Path.ofString s).expandHome env.home?
  match expanded with
  | some path => .ok path
  | none => .error .noHome

/-! ## Loading -/

/-- The path of the configuration. One that is asked for must lead to something. -/
def locate (files : Files) (env : Environment) : Choice → Except Fault Path
  | .standard => defaultPath env
  | .file s =>
    let path := Path.ofString s
    if (files path).isSome then .ok path else .error (.missing path)
  | .pathless => .error .noPath

def load (files : Files) (env : Environment) (choice : Choice) : Except Fault Config :=
  match locate files env choice with
  | .error fault => .error fault
  | .ok path =>
    (ofEntry path (files path)).map fun o => (standard.withOverrides o).withOverrides (ofEnvironment env)

end Config

end TreeScript
