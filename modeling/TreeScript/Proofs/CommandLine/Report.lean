/-
Which problems end a command out of order. A command whose arguments are understood answers with a code of zero or one,
and reports a problem with its configuration or with the document of its program in one error line. The exceptions are
listed here: a configuration that is asked for without a path or has no home, that is a directory or has too long a
name, or that sets an option without a text for its name; a text that the decoder fails on in a way that is not
foreseen; a program that contains itself; a stack without room; and a number that is too long to be written, in an
error, a line of the trace, a diagnostic or the name of a program.
-/
import TreeScript.Proofs.CommandLine.Output
import TreeScript.Proofs.Tree.Acceptance

namespace TreeScript

/-! ## Configurations -/

theorem mapM_eq_none_iff {α β : Type} {f : α → Option β} {l : List α} : l.mapM f = none ↔ ∃ a ∈ l, f a = none := by
  induction l with
  | nil => simp
  | cons a rest ih =>
    rw [List.mapM_cons, List.exists_mem_cons_iff, ← ih]
    cases f a with
    | none => simp
    | some b => cases rest.mapM f <;> simp

theorem Document.fillEntries_ne_nil {wholes : List (Nat × Document)} {entries : List (Document × Document)}
    (h : fillEntries wholes entries ≠ []) : entries ≠ [] := by
  rintro rfl
  exact h rfl

/-- A map with an entry counts as true, also if it has a label. -/
theorem Document.isTruthy_of_view {d : Document} {entries : List (Document × Document)} (h : d.view = .map entries)
    (hentries : entries ≠ []) : d.isTruthy = true := by
  cases d with
  | map entries' =>
    cases h
    simpa [isTruthy] using hentries
  | labelled label content =>
    cases content with
    | map entries' =>
      rw [view, fill] at h
      cases h
      simpa [isTruthy] using fillEntries_ne_nil hentries
    | again label' => rfl
    | _ => cases h
  | _ => cases h

namespace Config

/-- A key that is no text is no option. -/
theorem isOption_of_text? {key : Document} (h : key.text? = none) : isOption key = false := by
  cases key with
  | text s => cases h
  | _ => rfl

/-- A key that is no text is among the unknown options, whose names make up the message; so one of the names is missing
exactly if one of the keys is no text. -/
theorem mapM_unknown_eq_none_iff {keys : List Document} :
    (keys.filter (!isOption ·)).mapM Document.text? = none ↔ ∃ key ∈ keys, key.text? = none := by
  rw [mapM_eq_none_iff]
  constructor
  · rintro ⟨key, hkey, htext⟩
    exact ⟨key, List.mem_of_mem_filter hkey, htext⟩
  · rintro ⟨key, hkey, htext⟩
    refine ⟨key, List.mem_filter.mpr ⟨hkey, ?_⟩, htext⟩
    rw [isOption_of_text? htext]
    rfl

/-- What stands at the path of the configuration cannot be read in order. -/
inductive Unreadable : Entry → Prop
  | directory : Unreadable .directory
  | nameTooLong : Unreadable .nameTooLong
  | unforeseen {content : String} {reason : Undecodable} (h : Yaml.read content = .error reason)
    (hreason : reason.isReported = false) : Unreadable (.text content)
  | unnamedOption {content : String} {d : Document} {entries : List (Document × Document)} {key : Document}
    (h : Yaml.read content = .ok d) (hview : d.view = .map entries) (hkey : key ∈ entries.map Prod.fst)
    (htext : key.text? = none) : Unreadable (.text content)

/-- The configuration cannot be read in order. -/
inductive Escapes (files : Files) (env : Environment) : Choice → Prop
  | pathless : Escapes files env .pathless
  | noHome (h : defaultPath env = .error .noHome) : Escapes files env .standard
  | unreadable {choice : Choice} {path : Path} {entry : Entry} (hpath : locate files env choice = .ok path)
    (hentry : files path = some entry) (h : Unreadable entry) : Escapes files env choice

end Config

namespace CommandLine

/-! ## Programs -/

section

variable (rt : Runtime) (files : Files) (file : String)

/-- The program of a document that a file has. -/
def programOf (d : Document) : Except Error Program :=
  Program.load rt.reads (some (Path.ofString file).text) (.text (Path.ofString file).stem) d

/-- The program of a file cannot be loaded in order. -/
inductive ProgramEscapes : Prop
  | unforeseen {content : String} {reason : Undecodable} (hentry : files (Path.ofString file) = some (.text content))
    (h : (Format.ofPath (Path.ofString file)).decode content = .error reason) (hreason : reason.isReported = false)
  | unread {content : String} {d : Document} {e : Error} (hentry : files (Path.ofString file) = some (.text content))
    (hdecode : (Format.ofPath (Path.ofString file)).decode content = .ok d) (h : programOf rt file d = .error e)
    (he : e.isReported = false) (hd : ¬ d.Finite ∨ ¬ d.Writable ∨ rt.reads d = false)
  | unplaced {content : String} {d : Document} {e : Error} (hentry : files (Path.ofString file) = some (.text content))
    (hdecode : (Format.ofPath (Path.ofString file)).decode content = .ok d) (h : programOf rt file d = .error e)
    (hplace : e.format = none)

end

variable {rt : Runtime}

/-- What keeps a check from being told of: the stack has no room for it, a diagnostic is at a place without a text, or
the program has a name without one. -/
inductive CheckEscapes (rt : Runtime) (p : Program) : Prop
  | stack (h : rt.checks p = false)
  | place {d : Diagnostic} (hd : d ∈ (Check.run p Collector.defaultLimit).diagnostics.toList) (h : d.format = none)
  | name (h : p.name.plain = none)

/-- The program file of an action. -/
def Action.file? : Action → Option String
  | run file _ => some file
  | check file => some file
  | version => none

/-- The settings that an action is carried out with. -/
def Action.settings (config : Config) : Action → Config
  | run _ overrides => config.withOverrides overrides
  | _ => config

section

variable (rt : Runtime) (files : Files) (env : Environment) (command : Command)

/-- A problem with the configuration of a command or with the document of its program, and whether its error line has
colors. -/
inductive Obstacle : Trouble → Bool → Prop
  | config {fault : Config.Fault} (h : Config.load files env command.config = .error fault) :
    Obstacle (.config fault) false
  | program {config : Config} {file : String} {t : Trouble} (h : Config.load files env command.config = .ok config)
    (hfile : command.action.file? = some file) (ht : loadProgram rt files file = .error t) :
    Obstacle t (command.action.settings config).color

/-- A command ends out of order because of its configuration, the document of its program, or what a run or a check has
to tell. -/
inductive Escapes : Prop
  | config (h : Config.Escapes files env command.config)
  | program {config : Config} {file : String} (h : Config.load files env command.config = .ok config)
    (hfile : command.action.file? = some file) (hprogram : ProgramEscapes rt files file)
  | run {config : Config} {file : String} {overrides : Overrides} {p : Program}
    (h : Config.load files env command.config = .ok config) (haction : command.action = .run file overrides)
    (hload : loadProgram rt files file = .ok p) (hp : RunEscapes rt (config.withOverrides overrides) p)
  | check {config : Config} {file : String} {p : Program} (h : Config.load files env command.config = .ok config)
    (haction : command.action = .check file) (hload : loadProgram rt files file = .ok p) (hp : CheckEscapes rt p)

end

/-- A problem is all that a reply tells of, in one line. -/
structure Reply.Reports (t : Trouble) (color : Bool) (r : Reply) : Prop where
  exitCode : r.exitCode = 1
  stdout : r.stdout = ""
  stderr : ∃ line, t.line color = some line ∧ r.stderr = line ++ "\n"

variable {files : Files} {env : Environment} {command : Command} {args : List String}

theorem Obstacle.unique {t t' : Trouble} {color color' : Bool} (h : Obstacle rt files env command t color)
    (h' : Obstacle rt files env command t' color') : t = t' ∧ color = color' := by
  cases h with
  | config h =>
    cases h' with
    | config h' => cases h.symm.trans h'; exact ⟨rfl, rfl⟩
    | program h' _ _ => cases h.symm.trans h'
  | program h hfile ht =>
    cases h' with
    | config h' => cases h.symm.trans h'
    | program h' hfile' ht' =>
      cases h.symm.trans h'
      cases hfile.symm.trans hfile'
      cases ht.symm.trans ht'
      exact ⟨rfl, rfl⟩

end CommandLine

end TreeScript
