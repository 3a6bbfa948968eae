/-!
# Cutting a text

Lengths of statement text are counted in UTF-8 bytes, and a text can be cut only where a character
ends. Such a place is a position of the text (`String.Pos`), which carries the proof that it is one;
an offset in bytes may lie inside a character. What shortens a text by bytes therefore goes back
from an offset, byte by byte, to a position (`scanBack`). What cuts a text back to a length takes
the length as it is, and cannot be carried out where that is no position (`truncate?`).
-/

namespace BoundSql.Text

/-- The position that is met first on the way back from an offset. The start of the text is one, so
the way ends there at the latest. -/
def scanBack (s : String) : Nat → s.Pos
  | 0 => s.startPos
  | offset + 1 =>
    if here : String.Pos.Raw.IsValid s ⟨offset + 1⟩ then ⟨⟨offset + 1⟩, here⟩
    else scanBack s offset

/-- The text in front of a position. -/
def front {s : String} (p : s.Pos) : String :=
  (s.sliceTo p).copy

/-- `s` without its last `n` bytes, and without the rest of a character that this splits. -/
def dropLastBytes (n : Nat) (s : String) : String :=
  front (scanBack s (s.utf8ByteSize - n))

/-- `s`, if it has no more bytes than the limit, and else its characters that end within the
limit. -/
def cut (limit : Nat) (s : String) : String :=
  if s.utf8ByteSize ≤ limit then s else front (scanBack s limit)

/-- The first bytes of `s`, or all of it if it is shorter. There is no answer, and the program
panics, where this would split a character. -/
def truncate? (length : Nat) (s : String) : Option String :=
  if s.utf8ByteSize < length then some s
  else if here : String.Pos.Raw.IsValid s ⟨length⟩ then some (front ⟨⟨length⟩, here⟩)
  else none

end BoundSql.Text
