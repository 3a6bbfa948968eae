import BoundSql.Declaration.Lexer

/-!
# Nested tokens

Tokens with their delimiters matched: what stands between an opening and its closing delimiter is
the content of one group. In types the angle brackets are delimiters as well, but between delimiters
of another kind an angle bracket may be an operator and is a token like any other.
-/

namespace BoundSql.Declaration

/-- A token, or the tokens between two delimiters. -/
inductive Token
  | atom (a : Atom)
  | group (d : Delimiter) (content : List Token)

/-- Tokens read so far: the groups that are still open, innermost first, each with what stood in
front of it, and the content of the innermost. -/
structure Nesting where
  outer : List (Delimiter × List Token) := []
  inner : List Token := []

namespace Nesting

def push (n : Nesting) (t : Token) : Nesting :=
  { n with inner := n.inner ++ [t] }

def enter (n : Nesting) (d : Delimiter) : Nesting :=
  ⟨(d, n.inner) :: n.outer, []⟩

/-- The end of the innermost group, if it is of that kind. -/
def leave (n : Nesting) (d : Delimiter) : Option Nesting :=
  match n.outer with
  | (d', before) :: outer =>
    if d' = d then some ⟨outer, before ++ [.group d n.inner]⟩ else none
  | [] => none

def kind? (n : Nesting) : Option Delimiter :=
  n.outer.head?.map Prod.fst

/-- The tokens with one more of them, which is no delimiter of its own; `angles` says whether angle
brackets are delimiters. -/
def nextAtom (angles : Bool) (n : Nesting) (a : Atom) : Option Nesting :=
  match n.kind? with
  | none =>
    if angles && a == .punctuation '<' then some (n.enter .angle) else some (n.push (.atom a))
  | some .angle =>
    if a == .punctuation '<' then some (n.enter .angle)
    else if a == .punctuation '>' then n.leave .angle
    else some (n.push (.atom a))
  | some _ => some (n.push (.atom a))

/-- The tokens with one more of them. -/
def next (angles : Bool) (n : Nesting) : Lexeme → Option Nesting
  | .opening d => some (n.enter d)
  | .closing d => n.leave d
  | .atom a => n.nextAtom angles a

/-- The tokens after a run of them. -/
def run (angles : Bool) : Nesting → List Lexeme → Option Nesting
  | n, [] => some n
  | n, lexeme :: rest =>
    match n.next angles lexeme with
    | some n => n.run angles rest
    | none => none

end Nesting

/-- The nested tokens of a text, if all its delimiters match. -/
def tokens? (angles : Bool) (s : String) : Option (List Token) :=
  match (lexemes? s.toList).bind (Nesting.run angles {}) with
  | some ⟨[], inner⟩ => some inner
  | _ => none

end BoundSql.Declaration
