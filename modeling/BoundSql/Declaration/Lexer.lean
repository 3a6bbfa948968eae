import BoundSql.Declaration.Literal

/-!
# From text to tokens

The tokens of a text, one after the other. A comment is no token, and a documentation comment stands
for the tokens of an attribute.
-/

namespace BoundSql.Declaration

open Text (Reading Rest)

/-! ## Comments -/

/-- The text of a block comment; `depth` comments are open inside it. -/
def readBlock (depth : Nat) : (cs : List Char) → Reading (List Char) cs
  | [] => none
  | '/' :: '*' :: rest =>
    ((readBlock (depth + 1) rest).map (['/', '*'] ++ ·)).behindAll ['/', '*']
  | '*' :: '/' :: rest =>
    match depth with
    | 0 => (Reading.first []).behind
    | n + 1 => ((readBlock n rest).map (['*', '/'] ++ ·)).behindAll ['*', '/']
  | c :: rest => ((readBlock depth rest).map (c :: ·)).behind

/-- The attribute that a documentation comment stands for. -/
def documentation (inner : Bool) (content : List Char) : List Lexeme :=
  let mark := if inner then [.atom (.punctuation '!')] else []
  .atom (.punctuation '#') :: mark ++
    [.opening .bracket, .atom (.identifier false "doc"), .atom (.punctuation '='),
      .atom (.text (String.ofList content)), .closing .bracket]

/-- What a line comment stands for, given its text behind the two slashes. -/
def lineComment (content : List Char) : List Lexeme :=
  match content with
  | '/' :: '/' :: _ => []
  | '/' :: text => documentation false text
  | '!' :: text => documentation true text
  | _ => []

/-- What a block comment stands for, given its text behind the opening. -/
def blockComment (content : List Char) : List Lexeme :=
  match content with
  | '*' :: '*' :: _ => []
  | ['*'] => []
  | '*' :: text => documentation false text
  | '!' :: text => documentation true text
  | _ => []

/-! ## Tokens -/

def opened? : Char → Option Delimiter
  | '(' => some .parenthesis
  | '[' => some .bracket
  | '\x7b' => some .brace
  | _ => none

def closed? : Char → Option Delimiter
  | ')' => some .parenthesis
  | ']' => some .bracket
  | '\x7d' => some .brace
  | _ => none

def isPunctuation (c : Char) : Bool :=
  "~!@#$%^&*-=+|;:,<.>/?".toList.contains c

def readIdentifier (raw : Bool) : (cs : List Char) → Reading Atom cs
  | [] => none
  | c :: _ =>
    if startsIdentifier c then
      (Reading.run continuesIdentifier).map fun name => .identifier raw (String.ofList name)
    else none

/-- A raw text behind its letters: hash marks, a quote, and the same hash marks behind another. -/
def readRawText (cs : List Char) : Reading (List Char) cs :=
  let isHash c := c == '#'
  Reading.past isHash <| withSuffix <|
    match cs.dropWhile isHash with
    | '"' :: rest => (readRaw (cs.takeWhile isHash) rest).behind
    | _ => none

def readRawIdentifier : (cs : List Char) → Reading Atom cs
  | '#' :: rest => (readIdentifier true rest).behind
  | _ => none

/-- The name of a lifetime, behind its apostrophe; the name may be a raw identifier. -/
def readLifetime : (cs : List Char) → Reading Atom cs
  | [] => none
  | 'r' :: '#' :: rest => ((readIdentifier true rest).map fun _ => .lifetime).behindAll ['r', '#']
  | c :: rest => (readIdentifier false (c :: rest)).map fun _ => .lifetime

def readApostrophe : (cs : List Char) → Reading Atom cs
  | '\\' :: c :: rest =>
    ((withSuffix (skipQuoted '\'' rest)).map fun _ => .literal).behindAll ['\\', c]
  | _ :: '\'' :: _ => (withSuffix (Reading.first .literal)).behind
  | cs => readLifetime cs

def readQuoted (close : Char) (cs : List Char) : Reading Atom cs :=
  (withSuffix (skipQuoted close cs)).map fun _ => .literal

def readRawLiteral (cs : List Char) : Reading Atom cs :=
  (readRawText cs).map fun _ => .literal

/-- What the letter `r` begins: a raw text, a raw identifier, or an identifier. -/
def readRawForm (rest : List Char) : Reading Atom ('r' :: rest) :=
  let text : Reading Atom rest :=
    (readRawText rest).map fun content => .text (String.ofList content)
  (text.or (readRawIdentifier rest)).behind.or (readIdentifier false ('r' :: rest))

def readTextLiteral (cs : List Char) : Reading Atom cs :=
  (withSuffix (readText cs)).map fun content => .text (String.ofList content)

def readAtom (cs : List Char) : Reading Atom cs :=
  match cs with
  | '"' :: rest => (readTextLiteral rest).behind
  | '\'' :: rest => (readApostrophe rest).behind
  | 'b' :: '\'' :: rest => (readQuoted '\'' rest).behindAll ['b', '\'']
  | 'b' :: '"' :: rest => (readQuoted '"' rest).behindAll ['b', '"']
  | 'c' :: '"' :: rest => (readQuoted '"' rest).behindAll ['c', '"']
  | 'b' :: 'r' :: rest =>
    ((readRawLiteral rest).behindAll ['b', 'r']).or (readIdentifier false ('b' :: 'r' :: rest))
  | 'c' :: 'r' :: rest =>
    ((readRawLiteral rest).behindAll ['c', 'r']).or (readIdentifier false ('c' :: 'r' :: rest))
  | 'r' :: rest => readRawForm rest
  | ':' :: ':' :: _ => (Reading.first .doubleColon).behind
  | '-' :: '>' :: _ => (Reading.first .arrow).behind
  | c :: rest =>
    if c.isDigit then
      let (atom, after) := readNumber c (Rest.whole rest)
      .upTo atom after
    else if isPunctuation c then .first (.punctuation c)
    else readIdentifier false (c :: rest)
  | [] => none

/-- The tokens at the head of a text: none for a comment, several for documentation. -/
def readLexemes (cs : List Char) : Reading (List Lexeme) cs :=
  match cs with
  | '/' :: '/' :: rest =>
    (Reading.upTo (lineComment (rest.takeWhile (· != '\n')))
      ((Rest.whole rest).dropWhile (· != '\n'))).behind
  | '/' :: '*' :: rest => ((readBlock 0 rest).map blockComment).behindAll ['/', '*']
  | c :: rest =>
    match opened? c, closed? c with
    | some d, _ => .first [.opening d]
    | none, some d => .first [.closing d]
    | none, none => (readAtom (c :: rest)).map fun atom => [.atom atom]
  | [] => none

def lexemes? (cs : List Char) : Option (List Lexeme) :=
  match cs with
  | [] => some []
  | c :: rest =>
    if isSpace c then lexemes? rest
    else
      match readLexemes (c :: rest) with
      | some (found, ⟨after, _⟩) => (lexemes? after).map (found ++ ·)
      | none => none
termination_by cs.length
decreasing_by
  · simp
  · assumption

end BoundSql.Declaration
