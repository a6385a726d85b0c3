/-
Documents: the plain data that a program arrives as. A map keeps the order in which its keys came.
Keys are told apart as numbers are, so that 1, 1.0 and true are one key. A list or a map that
contains itself carries a label, and where it comes up again inside of itself only the label stands.
A key that is equal to nothing but itself carries a label too.
-/
import TreeScript.Document.Moment
import TreeScript.Double.Basic

namespace TreeScript

/-- A decoded document: scalars, lists, pairs, sets of scalars, and maps from scalars to documents. -/
inductive Document where
  | null
  | bool (value : Bool)
  | int (value : Int)
  | double (value : Double)
  | text (value : String)
  | date (value : Date)
  | moment (value : Moment)
  | bytes (value : List UInt8)
  | list (items : List Document)
  | pair (first second : Document)
  | set (items : List Document)
  | map (entries : List (Document × Document))
  | labelled (label : Nat) (content : Document)
  | again (label : Nat)
deriving Inhabited

namespace Document

/-! ## Labels -/

mutual

/-- The document with others in place of their labels. A label that the document itself carries stays. -/
def fill (wholes : List (Nat × Document)) : Document → Document
  | .list items => .list (fillItems wholes items)
  | .pair a b => .pair (fill wholes a) (fill wholes b)
  | .map entries => .map (fillEntries wholes entries)
  | .labelled label content => .labelled label (fill (wholes.filter (·.1 != label)) content)
  | .again label => (wholes.lookup label).getD (.again label)
  | d => d

def fillItems (wholes : List (Nat × Document)) : List Document → List Document
  | [] => []
  | d :: rest => fill wholes d :: fillItems wholes rest

def fillEntries (wholes : List (Nat × Document)) : List (Document × Document) → List (Document × Document)
  | [] => []
  | (k, v) :: rest => (k, fill wholes v) :: fillEntries wholes rest

end

/-- The document without its label, which may still stand inside of it. -/
def content : Document → Document
  | .labelled _ content => content
  | d => d

/-- The document without its label: what contained itself by its label now contains itself as a whole. -/
def view : Document → Document
  | .labelled label content => content.fill [(label, .labelled label content)]
  | d => d

def isLabelled : Document → Bool
  | .labelled _ _ => true
  | _ => false

/-- A document from among others that have labels, with them in place of their labels. -/
def inside (wholes : List (Nat × Document)) (d : Document) : Document :=
  if wholes.isEmpty then d else d.fill wholes

/-! ## Keys -/

/-- The number that a scalar counts as, if it is a whole one. -/
def wholeNumber? : Document → Option Int
  | .bool b => some (if b then 1 else 0)
  | .int n => some n
  | .double d => d.toInt?
  | _ => none

/-- Whether two scalars are one key. -/
def sameKey : Document → Document → Bool
  | .null, .null => true
  | .text a, .text b => a == b
  | .date a, .date b => a == b
  | .moment a, .moment b => a.same b
  | .bytes a, .bytes b => a == b
  | .double a, .double b => a.same b
  | .labelled a _, .labelled b _ => a == b
  | a, b =>
    match a.wholeNumber?, b.wholeNumber? with
    | some m, some n => m == n
    | _, _ => false

/-- Puts a value under a key: in the old entry's place if there is one, else at the end. -/
def putEntry (key value : Document) : List (Document × Document) → List (Document × Document)
  | [] => [(key, value)]
  | (k, v) :: rest => if k.sameKey key then (k, value) :: rest else (k, v) :: putEntry key value rest

/-- The map in which each key has the last value that the pairs give it. -/
def ofPairs (pairs : List (Document × Document)) : Document :=
  .map (pairs.foldl (fun entries (k, v) => putEntry k v entries) [])

def isText (name : String) : Document → Bool
  | .text s => s == name
  | _ => false

/-- The value that the entries hold under a text key. -/
def field? {α : Type} (name : String) : List (Document × α) → Option α
  | [] => none
  | (k, v) :: rest => if k.isText name then some v else field? name rest

/-! ## Kinds -/

def text? : Document → Option String
  | .text s => some s
  | _ => none

def bool? : Document → Option Bool
  | .bool b => some b
  | _ => none

def isNull : Document → Bool
  | .null => true
  | _ => false

/-- False for the null document, false, zero, and whatever is empty. -/
def isTruthy : Document → Bool
  | .null => false
  | .bool b => b
  | .int n => n != 0
  | .double d => !d.isZero
  | .text s => !s.isEmpty
  | .date _ => true
  | .moment _ => true
  | .bytes b => !b.isEmpty
  | .list items => !items.isEmpty
  | .pair _ _ => true
  | .set items => !items.isEmpty
  | .map entries => !entries.isEmpty
  | .labelled _ content => content.isTruthy
  | .again _ => true

def kindName : Document → String
  | .null => "NoneType"
  | .bool _ => "bool"
  | .int _ => "int"
  | .double _ => "float"
  | .text _ => "str"
  | .date _ => "date"
  | .moment _ => "datetime"
  | .bytes _ => "bytes"
  | .list _ => "list"
  | .pair _ _ => "tuple"
  | .set _ => "set"
  | .map _ => "dict"
  | .labelled _ content => content.kindName
  | .again _ => "list"

end Document

end TreeScript
