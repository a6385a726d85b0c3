/-
Programs from text and from files: the text is decoded as JSON or YAML, and the document is read as
a program.
-/
import TreeScript.Json.Reader
import TreeScript.Path
import TreeScript.Tree.Reading
import TreeScript.Yaml.Reader

namespace TreeScript

inductive Format where
  | json | yaml
deriving DecidableEq

def Format.name : Format → String
  | json => "json"
  | yaml => "yaml"

def Format.decode (format : Format) (text : String) : Except Undecodable Document :=
  match format with
  | json => Json.read text
  | yaml => Yaml.read text

section

variable (hasRoom : Document → Bool)

def Program.ofText (format : Format) (name : Document) (text : String) : Except Error Program :=
  match format.decode text with
  | .ok d => Program.load hasRoom none name d
  | .error reason => (Problem.undecodable (format.name ++ " document") reason).unplaced

/-- The format of a file, by the end of its name. -/
def Format.ofPath (path : Path) : Format := if path.suffix == ".json" then .json else .yaml

/-- The program of a file, whose bytes may not be a text. Unless it has a name of its own it is named after the
file. -/
def Program.ofFile (path : Path) (text : Except Undecodable String) : Except Error Program :=
  match text >>= (Format.ofPath path).decode with
  | .ok d => Program.load hasRoom (some path.text) (.text path.stem) d
  | .error reason => (Problem.undecodable path.name reason).unplaced

end

end TreeScript
