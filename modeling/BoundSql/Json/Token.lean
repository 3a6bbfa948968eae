import BoundSql.Json.Source
import BoundSql.Text.Reading

/-!
# The tokens of a JSON text

A JSON text is a sequence of tokens with white space between them. Each reader answers what it found
at the head of a list of characters together with the rest, which is shorter; that is why reading
ends.
-/

namespace BoundSql.Json

open Text (Reading)

inductive Token
  | openBracket
  | closeBracket
  | openBrace
  | closeBrace
  | colon
  | comma
  | null
  | bool (b : Bool)
  | number (n : Numeral)
  | string (pieces : List Piece)
deriving DecidableEq, Repr

def isSpace (c : Char) : Bool :=
  c == ' ' || c == '\t' || c == '\n' || c == '\r'

def hexValue? (c : Char) : Option Nat :=
  if '0' ≤ c ∧ c ≤ '9' then some (c.toNat - 48)
  else if 'a' ≤ c ∧ c ≤ 'f' then some (c.toNat - 87)
  else if 'A' ≤ c ∧ c ≤ 'F' then some (c.toNat - 55)
  else none

def hexCode? (a b c d : Char) : Option Nat :=
  match hexValue? a, hexValue? b, hexValue? c, hexValue? d with
  | some a, some b, some c, some d => some (((a * 16 + b) * 16 + c) * 16 + d)
  | _, _, _, _ => none

def simpleEscape? (c : Char) : Option Char :=
  if c = '"' ∨ c = '\\' ∨ c = '/' then some c
  else if c = 'b' then some '\x08'
  else if c = 'f' then some '\x0c'
  else if c = 'n' then some '\n'
  else if c = 'r' then some '\r'
  else if c = 't' then some '\t'
  else none

/-- The pieces of a string up to its closing quote. Control characters have to be escaped. -/
def readPieces : (cs : List Char) → Reading (List Piece) cs
  | [] => none
  | '"' :: _ => .first []
  | '\\' :: 'u' :: a :: b :: c :: d :: rest =>
    match hexCode? a b c d with
    | some n => ((readPieces rest).map (.code n :: ·)).behindAll ['\\', 'u', a, b, c, d]
    | none => none
  | '\\' :: e :: rest =>
    match simpleEscape? e with
    | some c => ((readPieces rest).map (.char c :: ·)).behindAll ['\\', e]
    | none => none
  | c :: rest =>
    if c = '\\' ∨ c.toNat < 32 then none else ((readPieces rest).map (.char c :: ·)).behind

/-! ## Numbers -/

def isNumeralChar (c : Char) : Bool :=
  c.isDigit || c == '-' || c == '+' || c == '.' || c == 'e' || c == 'E'

/-- Whether digits may stand in front of the point: a zero stands alone there. -/
def isWhole : List Char → Bool
  | [] => false
  | ['0'] => true
  | c :: _ => c != '0'

/-- An exponent behind its letter: a sign if there is one, and one or more digits. -/
def exponent? (cs : List Char) : Option (List Char) :=
  let digits :=
    match cs with
    | c :: rest => if c = '+' ∨ c = '-' then rest else cs
    | [] => []
  if !digits.isEmpty && digits.all Char.isDigit then some cs else none

/-- A number from its digits in front of the point, its fraction, and what follows them: nothing or
an exponent. -/
def withExponent? (negative : Bool) (whole : List Char) (fraction : Option (List Char)) :
    List Char → Option Numeral
  | [] => some ⟨negative, whole, fraction, none⟩
  | c :: rest =>
    if c = 'e' ∨ c = 'E' then
      (exponent? rest).map fun exponent => ⟨negative, whole, fraction, some exponent⟩
    else none

/-- A number without its sign. A point has one or more digits behind it. -/
def magnitude? (negative : Bool) (cs : List Char) : Option Numeral :=
  let whole := cs.takeWhile Char.isDigit
  if isWhole whole then
    match cs.dropWhile Char.isDigit with
    | '.' :: rest =>
      let fraction := rest.takeWhile Char.isDigit
      if fraction.isEmpty then none
      else withExponent? negative whole (some fraction) (rest.dropWhile Char.isDigit)
    | rest => withExponent? negative whole none rest
  else none

def numeral? : List Char → Option Numeral
  | '-' :: rest => magnitude? true rest
  | cs => magnitude? false cs

/-! ## Tokens -/

/-- The token at the head of a text without leading white space. A number takes all characters that
may stand in one: what may follow a number in a document is none of them. -/
def readToken (cs : List Char) : Reading Token cs :=
  match cs with
  | '[' :: _ => .first .openBracket
  | ']' :: _ => .first .closeBracket
  | '\x7b' :: _ => .first .openBrace
  | '\x7d' :: _ => .first .closeBrace
  | ':' :: _ => .first .colon
  | ',' :: _ => .first .comma
  | 'n' :: 'u' :: 'l' :: 'l' :: _ => (Reading.first .null).behindAll ['n', 'u', 'l']
  | 't' :: 'r' :: 'u' :: 'e' :: _ => (Reading.first (.bool true)).behindAll ['t', 'r', 'u']
  | 'f' :: 'a' :: 'l' :: 's' :: 'e' :: _ =>
    (Reading.first (.bool false)).behindAll ['f', 'a', 'l', 's']
  | '"' :: rest => ((readPieces rest).map .string).behind
  | _ :: _ => (Reading.run isNumeralChar).filterMap fun cs => (numeral? cs).map .number
  | [] => none

def tokens? (cs : List Char) : Option (List Token) :=
  match cs with
  | [] => some []
  | c :: rest =>
    if isSpace c then tokens? rest
    else
      match readToken (c :: rest) with
      | some (token, ⟨after, _⟩) => (tokens? after).map (token :: ·)
      | none => none
termination_by cs.length
decreasing_by
  · simp
  · assumption

end BoundSql.Json
