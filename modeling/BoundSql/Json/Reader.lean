import BoundSql.Json.Token

/-!
# Nesting the tokens of a JSON text

Reading a document goes once over its tokens. Between two tokens the reader stands somewhere in the
grammar, inside the arrays and objects that are still open; each token moves it on or is a fault. A
text is a document when the reader ends behind one value with nothing open.
-/

namespace BoundSql.Json

/-- An array or object that is still open, with what stands in it so far. -/
inductive Frame
  | array (before : List Source)
  | object (before : List (List Piece × Source)) (name : List Piece)

/-- Where the reader stands, inside the frames, innermost first. -/
inductive Position
  | beforeValue (frames : List Frame)
  | inArray (frames : List Frame)
  | inObject (frames : List Frame)
  /-- In front of the name of a further member. -/
  | beforeName (before : List (List Piece × Source)) (frames : List Frame)
  | beforeColon (before : List (List Piece × Source)) (name : List Piece) (frames : List Frame)
  | afterValue (value : Source) (frames : List Frame)

namespace Position

/-- The position behind the first token of a value. -/
def openValue (frames : List Frame) : Token → Option Position
  | .null => some (.afterValue .null frames)
  | .bool b => some (.afterValue (.bool b) frames)
  | .number n => some (.afterValue (.number n) frames)
  | .string pieces => some (.afterValue (.string pieces) frames)
  | .openBracket => some (.inArray frames)
  | .openBrace => some (.inObject frames)
  | _ => none

/-- The position behind a token, if the token may stand there. -/
def next : Position → Token → Option Position
  | .beforeValue frames, token => openValue frames token
  | .inArray frames, .closeBracket => some (.afterValue (.array []) frames)
  | .inArray frames, token => openValue (.array [] :: frames) token
  | .inObject frames, .closeBrace => some (.afterValue (.object []) frames)
  | .inObject frames, .string name => some (.beforeColon [] name frames)
  | .beforeName before frames, .string name => some (.beforeColon before name frames)
  | .beforeColon before name frames, .colon => some (.beforeValue (.object before name :: frames))
  | .afterValue value (.array before :: frames), .comma =>
    some (.beforeValue (.array (before ++ [value]) :: frames))
  | .afterValue value (.array before :: frames), .closeBracket =>
    some (.afterValue (.array (before ++ [value])) frames)
  | .afterValue value (.object before name :: frames), .comma =>
    some (.beforeName (before ++ [(name, value)]) frames)
  | .afterValue value (.object before name :: frames), .closeBrace =>
    some (.afterValue (.object (before ++ [(name, value)])) frames)
  | _, _ => none

/-- The position behind a run of tokens. -/
def run : Position → List Token → Option Position
  | position, [] => some position
  | position, token :: rest =>
    match position.next token with
    | some position => position.run rest
    | none => none

end Position

/-- The document of a whole text; white space may stand between its tokens. -/
def Source.read? (cs : List Char) : Option Source :=
  match (tokens? cs).bind (Position.run (.beforeValue [])) with
  | some (.afterValue value []) => some value
  | _ => none

end BoundSql.Json
