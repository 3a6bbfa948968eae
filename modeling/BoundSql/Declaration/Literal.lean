import BoundSql.Declaration.Token
import BoundSql.Text.Reading

/-!
# The literals of a declaration

Text between quotes with its escapes, raw text between hash marks, and numbers. A line break behind
a backslash vanishes together with the white space after it, and a line break written as two
characters is one. Integers are decimal or carry the mark of their base; a suffix of letters behind
a literal names its type and is passed over.
-/

namespace BoundSql.Declaration

open Text (Reading Rest)

/-! ## Text literals -/

def simpleEscape? (c : Char) : Option Char :=
  if c = 'n' then some '\n'
  else if c = 'r' then some '\r'
  else if c = 't' then some '\t'
  else if c = '0' then some '\x00'
  else if c = '\\' ∨ c = '"' ∨ c = '\'' then some c
  else none

/-- White space that a line break behind a backslash swallows. -/
def isIndent (c : Char) : Bool :=
  c == ' ' || c == '\t' || c == '\n' || c == '\r'

/-- A code of hexadecimal digits and underscores in front of a closing brace: the character with
that code. -/
def readCodePoint (cs : List Char) : Reading Char cs :=
  let isHex c := c == '_' || (digitValue? 16 c).isSome
  Reading.past isHex
    (Text.readChar '\x7d' (Char.ofNat (numberOf 16 (cs.takeWhile isHex))) (cs.dropWhile isHex))

/-- An escape behind its backslash: the character that it stands for, or none where it stands for
nothing. -/
def readEscape (cs : List Char) : Reading (List Char) cs :=
  match cs with
  | 'x' :: a :: b :: _ =>
    match digitValue? 16 a, digitValue? 16 b with
    | some m, some n => (Reading.first [Char.ofNat (16 * m + n)]).behindAll ['x', a]
    | _, _ => none
  | 'u' :: '\x7b' :: rest => ((readCodePoint rest).map fun c => [c]).behindAll ['u', '\x7b']
  | c :: _ =>
    if c = '\n' ∨ c = '\r' then (Reading.first []).skip isIndent
    else
      match simpleEscape? c with
      | some e => .first [e]
      | none => none
  | [] => none

/-- The characters of a text literal up to its closing quote. -/
def readText (cs : List Char) : Reading (List Char) cs :=
  match cs with
  | [] => none
  | '"' :: _ => .first []
  | '\\' :: rest =>
    match readEscape rest with
    | some (found, ⟨after, h⟩) => (((readText after).map (found ++ ·)).beyond h).behind
    | none => none
  | '\r' :: '\n' :: rest => ((readText rest).map ('\n' :: ·)).behindAll ['\r', '\n']
  | c :: rest => ((readText rest).map (c :: ·)).behind
termination_by cs.length
decreasing_by all_goals simp only [List.length_cons]; omega

/-- The characters of a raw text up to a quote with `hashes` after it. -/
def readRaw (hashes : List Char) : (cs : List Char) → Reading (List Char) cs
  | [] => none
  | c :: rest =>
    if c = '"' ∧ hashes.isPrefixOf rest then
      some ([], ⟨rest.drop hashes.length, Nat.lt_succ_of_le (List.drop_sublist _ rest).length_le⟩)
    else ((readRaw hashes rest).map (c :: ·)).behind

/-- Text up to an unescaped closing character. -/
def skipQuoted (close : Char) : (cs : List Char) → Reading Unit cs
  | [] => none
  | '\\' :: c :: rest => (skipQuoted close rest).behindAll ['\\', c]
  | c :: rest => if c = close then .first () else (skipQuoted close rest).behind

/-- The rest behind the suffix of a literal, if there is one. -/
def dropSuffix {cs : List Char} (r : Rest cs) : Rest cs :=
  if r.1.head?.any startsIdentifier then r.dropWhile continuesIdentifier else r

/-- The same finding, with the suffix of a literal behind it. -/
def withSuffix {α : Type} {cs : List Char} (r : Reading α cs) : Reading α cs :=
  match r with
  | some (a, ⟨rest, h⟩) =>
    if rest.head?.any startsIdentifier then Reading.skip continuesIdentifier (some (a, ⟨rest, h⟩))
    else some (a, ⟨rest, h⟩)
  | none => none

/-! ## Numbers -/

def isDecimal (c : Char) : Bool :=
  c.isDigit || c == '_'

/-- The base that a letter behind a leading zero marks. -/
def markedBase? (c : Char) : Option Nat :=
  if c = 'x' then some 16
  else if c = 'o' then some 8
  else if c = 'b' then some 2
  else none

/-- An integer behind the mark of its base, if its digits fit the base and there is one; letters
behind them are a type suffix. -/
def basedInteger (base : Nat) (tail : List Char) : Atom :=
  let isDigitLike c := c == '_' || (digitValue? (max base 10) c).isSome
  let digits := tail.takeWhile isDigitLike
  if digits.all (fun c => c == '_' || (digitValue? base c).isSome) && digits.any (· != '_') then
    .integer (numberOf base digits)
  else .literal

/-- The rest behind an exponent: its letter, a sign or none, and digits with one digit at least;
underscores may stand between them. -/
def dropExponent? {cs : List Char} (r : Rest cs) : Option (Rest cs) :=
  (r.tail? fun c => c == 'e' || c == 'E').bind fun r =>
    let digits := ((r.dropWhile (· == '_')).tail? fun c => c == '+' || c == '-').getD r
    if (digits.1.takeWhile isDecimal).any Char.isDigit then some (digits.dropWhile isDecimal)
    else none

/-- The rest behind the point of a number, if the point belongs to it: no name and no other point
follows. -/
def dropPoint? {cs : List Char} (r : Rest cs) : Option (Rest cs) :=
  (r.tail? (· == '.')).bind fun r =>
    if r.1.head?.any fun c => c == '.' || startsIdentifier c then none else some r

/-- A decimal number with its first digit, and the rest behind it. With a point or an exponent it is
no integer. -/
def readDecimal (first : Char) {cs : List Char} (r : Rest cs) : Atom × Rest cs :=
  let digits := r.1.takeWhile isDecimal
  let r := r.dropWhile isDecimal
  match dropPoint? r with
  | some r =>
    let r := r.dropWhile isDecimal
    (.literal, dropSuffix ((dropExponent? r).getD r))
  | none =>
    match dropExponent? r with
    | some r => (.literal, dropSuffix r)
    | none => (.integer (numberOf 10 (first :: digits)), dropSuffix r)

/-- A number with its first digit, and the rest behind it. -/
def readNumber (first : Char) {cs : List Char} (r : Rest cs) : Atom × Rest cs :=
  match (if first = '0' then r.1.head?.bind markedBase? else none) with
  | some base =>
    (basedInteger base (r.tail.1.takeWhile continuesIdentifier),
      r.tail.dropWhile continuesIdentifier)
  | none => readDecimal first r

end BoundSql.Declaration
