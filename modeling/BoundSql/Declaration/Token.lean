import BoundSql.Text.Blank

/-!
# The tokens of a declaration

Declarations of record types are written in the syntax of Rust. Their text is a sequence of
identifiers, literals, punctuation and delimiters; comments separate them like white space, but a
documentation comment stands for an attribute.

Of literals only the kinds are kept apart that an attribute can take: text and integers carry their
values, all others are one kind. The characters of an identifier are ASCII letters, digits, the
underscore, and every character beyond ASCII that is no white space; in a declaration that keeps to
the syntax nothing else beyond ASCII stands outside of literals and comments.
-/

namespace BoundSql.Declaration

inductive Delimiter
  | parenthesis
  | bracket
  | brace
  | angle
deriving DecidableEq, Repr

/-- A token that is no delimiter. -/
inductive Atom
  /-- An identifier; a raw one is written with `r#` in front. -/
  | identifier (raw : Bool) (name : String)
  | lifetime
  | text (value : String)
  | integer (value : Nat)
  | literal
  /-- Two colons next to each other, between the names of a path. -/
  | doubleColon
  /-- A hyphen and an angle bracket next to each other, in front of a function's result. -/
  | arrow
  | punctuation (c : Char)
deriving DecidableEq, Repr

inductive Lexeme
  | atom (a : Atom)
  | opening (d : Delimiter)
  | closing (d : Delimiter)
deriving DecidableEq, Repr

/-! ## Words -/

/-- The reserved words, which are no identifiers unless they are raw. -/
def reservedWords : List String :=
  [ "_", "abstract", "as", "async", "await", "become", "box", "break", "const", "continue", "crate",
    "do", "dyn", "else", "enum", "extern", "false", "final", "fn", "for", "if", "impl", "in", "let",
    "loop", "macro", "match", "mod", "move", "mut", "override", "priv", "pub", "ref", "return",
    "Self", "self", "static", "struct", "super", "trait", "true", "try", "type", "typeof", "unsafe",
    "unsized", "use", "virtual", "where", "while", "yield" ]

/-- The reserved words that stand for a module or a type, and so may start a path. -/
def pathWords : List String :=
  ["Self", "crate", "self", "super"]

def identifierText (raw : Bool) (name : String) : String :=
  (if raw then "r#" else "") ++ name

/-- An identifier, raw or not. -/
structure Identifier where
  raw : Bool := false
  name : String
deriving DecidableEq, Repr, Inhabited

/-- An identifier as it is printed. -/
def Identifier.text (i : Identifier) : String :=
  identifierText i.raw i.name

/-! ## Characters -/

/-- White space between tokens: the Unicode property, and the two marks of writing direction. -/
def isSpace (c : Char) : Bool :=
  Text.isWhiteSpace c || c.toNat == 0x200E || c.toNat == 0x200F

def startsIdentifier (c : Char) : Bool :=
  c.isAlpha || c == '_' || (128 ≤ c.toNat && !isSpace c)

def continuesIdentifier (c : Char) : Bool :=
  startsIdentifier c || c.isDigit

/-- The value of a digit in a base up to sixteen. -/
def digitValue? (base : Nat) (c : Char) : Option Nat :=
  let value? :=
    if '0' ≤ c ∧ c ≤ '9' then some (c.toNat - 48)
    else if 'a' ≤ c ∧ c ≤ 'f' then some (c.toNat - 87)
    else if 'A' ≤ c ∧ c ≤ 'F' then some (c.toNat - 55)
    else none
  value?.filter fun n => decide (n < base)

/-- The number of some digits in a base; underscores do not count. -/
def numberOf (base : Nat) (digits : List Char) : Nat :=
  digits.foldl (fun n c => ((digitValue? base c).map (base * n + ·)).getD n) 0

end BoundSql.Declaration
