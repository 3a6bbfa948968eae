/-!
# Blank text

A text is blank when every character of it has the Unicode property White_Space. The table holds the
25 characters of that property; it is wider than the ASCII class of the core library.
-/

namespace BoundSql.Text

/-- The characters with the Unicode property White_Space. -/
def isWhiteSpace (c : Char) : Bool :=
  let n := c.toNat
  (0x9 ≤ n && n ≤ 0xD) || n == 0x20 || n == 0x85 || n == 0xA0 || n == 0x1680 ||
    (0x2000 ≤ n && n ≤ 0x200A) || n == 0x2028 || n == 0x2029 || n == 0x202F || n == 0x205F ||
    n == 0x3000

/-- No character, or white space only. -/
def isBlank (s : String) : Bool :=
  s.toList.all isWhiteSpace

end BoundSql.Text
