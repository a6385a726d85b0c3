/-
Tokens: the literal kinds and operators that nodes of a program carry, their names, and how
operators are spelled. Several spellings may mean one operator; the first one stands for it in
messages.
-/

namespace TreeScript

/-- Literal kinds and operators. -/
inductive Token where
  | intLiteral | stringLiteral | boolLiteral
  | plus | minus | star | slash | percent
  | eq | ne | lt | le | gt | ge
  | and | or | not
  | assign | plusAssign | minusAssign | starAssign | increment | decrement
deriving DecidableEq

namespace Token

def all : List Token :=
  [intLiteral, stringLiteral, boolLiteral, plus, minus, star, slash, percent, eq, ne, lt, le, gt, ge, and, or,
    not, assign, plusAssign, minusAssign, starAssign, increment, decrement]

def name : Token → String
  | intLiteral => "INT_LITERAL"
  | stringLiteral => "STRING_LITERAL"
  | boolLiteral => "BOOL_LITERAL"
  | plus => "PLUS"
  | minus => "MINUS"
  | star => "STAR"
  | slash => "SLASH"
  | percent => "PERCENT"
  | eq => "EQ"
  | ne => "NE"
  | lt => "LT"
  | le => "LE"
  | gt => "GT"
  | ge => "GE"
  | and => "AND"
  | or => "OR"
  | not => "NOT"
  | assign => "ASSIGN"
  | plusAssign => "PLUS_ASSIGN"
  | minusAssign => "MINUS_ASSIGN"
  | starAssign => "STAR_ASSIGN"
  | increment => "INCREMENT"
  | decrement => "DECREMENT"

def ofName? (name : String) : Option Token := all.find? (·.name == name)

def spellings : List (String × Token) :=
  [("+", plus), ("-", minus), ("*", star), ("/", slash), ("%", percent), ("==", eq), ("===", eq), ("!=", ne),
    ("!==", ne), ("<", lt), ("<=", le), (">", gt), (">=", ge), ("&&", and), ("||", or), ("!", not),
    ("=", assign), ("+=", plusAssign), ("-=", minusAssign), ("*=", starAssign), ("++", increment),
    ("--", decrement)]

/-- The operator that a spelling means. -/
def ofSymbol? (symbol : String) : Option Token := spellings.lookup symbol

/-- The first spelling of an operator; a literal kind, which has none, goes by its name. -/
def symbol (t : Token) : String :=
  match spellings.find? (·.2 == t) with
  | some (s, _) => s
  | none => t.name

/-! ## Classes of operators -/

def isArithmetic (t : Token) : Bool := t ∈ [plus, minus, star, slash, percent]

def isComparison (t : Token) : Bool := t ∈ [eq, ne, lt, le, gt, ge]

def isLogical (t : Token) : Bool := t ∈ [and, or]

/-- The operators that join two operands. -/
def isBinary (t : Token) : Bool := t.isArithmetic || t.isComparison || t.isLogical

/-- The operators that stand before one operand. -/
def isUnary (t : Token) : Bool := t ∈ [minus, not]

/-- The binary operator that a compound assignment applies. -/
def compound? : Token → Option Token
  | plusAssign => some plus
  | minusAssign => some minus
  | starAssign => some star
  | _ => none

def isAssignment (t : Token) : Bool := t == assign || t.compound?.isSome

def isUpdate (t : Token) : Bool := t ∈ [increment, decrement]

end Token

end TreeScript
