import BoundSql.Number.Shortest

/-!
# JSON documents and their compact text

A document keeps the order of its object members. Integers and binary64 numbers are different
numbers, as in the text: an integer never has a point, a binary64 number always has a point or an
exponent. The printer writes no space, and escapes in a string only what the grammar demands: the
quote, the backslash and the control characters below U+0020.
-/

namespace BoundSql

inductive Json
  | null
  | bool (b : Bool)
  | int (n : Int)
  | float (x : Binary64)
  | string (s : String)
  | array (items : List Json)
  | object (members : List (String × Json))
deriving Inhabited

namespace Json

/-- Object members in ascending order of their names, by code point. -/
def sortMembers (members : List (String × Json)) : List (String × Json) :=
  members.mergeSort fun a b => !decide (b.1 < a.1)

/-! ## Strings -/

/-- The lower-case hexadecimal digit of a number below sixteen. -/
def hexDigit (n : Nat) : Char :=
  if n < 10 then Char.ofNat (48 + n) else Char.ofNat (87 + n)

/-- The four hexadecimal digits of a code below 2 ^ 16. -/
def hexCode (n : Nat) : List Char :=
  [hexDigit (n / 4096 % 16), hexDigit (n / 256 % 16), hexDigit (n / 16 % 16), hexDigit (n % 16)]

/-- A character as it stands between the quotes. -/
def escape (c : Char) : List Char :=
  if c = '"' then ['\\', '"']
  else if c = '\\' then ['\\', '\\']
  else if 32 ≤ c.toNat then [c]
  else if c.toNat = 8 then ['\\', 'b']
  else if c.toNat = 9 then ['\\', 't']
  else if c.toNat = 10 then ['\\', 'n']
  else if c.toNat = 12 then ['\\', 'f']
  else if c.toNat = 13 then ['\\', 'r']
  else '\\' :: 'u' :: hexCode c.toNat

def quoted (s : String) : List Char :=
  '"' :: s.toList.flatMap escape ++ ['"']

/-! ## Numbers -/

/-- Where decimal digits stand in the text of a number. -/
structure FloatLayout where
  /-- The least exponent of the leading digit that is written without an exponent part. -/
  leastPlain : Int
  /-- The greatest one. -/
  greatestPlain : Int
  /-- What stands after an integer's digits. -/
  integerTail : List Char
  /-- What stands between the digits and a positive exponent. -/
  positiveMark : List Char
  /-- What stands between the digits and the digits of a negative exponent. -/
  negativeMark : List Char

/-- Numbers are written plainly from 0.00001 up to sixteen digits before the point; an integer
keeps `.0`, and an exponent carries its sign. -/
def floatLayout : FloatLayout where
  leastPlain := -5
  greatestPlain := 15
  integerTail := ['.', '0']
  positiveMark := ['e', '+']
  negativeMark := ['e', '-']

/-- A positive decimal without trailing zeros in the given layout. -/
def FloatLayout.chars (l : FloatLayout) (d : Decimal) : List Char :=
  let digits := Nat.toDigits 10 d.digits
  let lead := d.exponent + (digits.length : Int) - 1
  if l.leastPlain ≤ lead ∧ lead ≤ l.greatestPlain then
    if 0 ≤ d.exponent then digits ++ List.replicate d.exponent.toNat '0' ++ l.integerTail
    else if 0 ≤ lead then
      digits.take (lead.toNat + 1) ++ '.' :: digits.drop (lead.toNat + 1)
    else '0' :: '.' :: List.replicate (-lead - 1).toNat '0' ++ digits
  else
    let fraction := if digits.length = 1 then [] else '.' :: digits.drop 1
    let mark := if 0 ≤ lead then l.positiveMark else l.negativeMark
    digits.take 1 ++ fraction ++ mark ++ Nat.toDigits 10 lead.natAbs

/-- The text of a binary64 number: its shortest digits, or `null` where it is no finite number. -/
def floatChars (x : Binary64) : List Char :=
  if !x.isFinite then ['n', 'u', 'l', 'l']
  else
    let sign := if x.negative then ['-'] else []
    if x.isZero then sign ++ ['0', '.', '0'] else sign ++ floatLayout.chars x.shortest

def intChars (n : Int) : List Char :=
  if n < 0 then '-' :: Nat.toDigits 10 n.natAbs else Nat.toDigits 10 n.natAbs

/-! ## Documents -/

mutual

def chars : Json → List Char
  | .null => ['n', 'u', 'l', 'l']
  | .bool true => ['t', 'r', 'u', 'e']
  | .bool false => ['f', 'a', 'l', 's', 'e']
  | .int n => intChars n
  | .float x => floatChars x
  | .string s => quoted s
  | .array items => '[' :: itemChars items ++ [']']
  | .object members => '\x7b' :: memberChars members ++ ['\x7d']

def itemChars : List Json → List Char
  | [] => []
  | [item] => item.chars
  | item :: next :: rest => item.chars ++ ',' :: itemChars (next :: rest)

def memberChars : List (String × Json) → List Char
  | [] => []
  | [(name, value)] => quoted name ++ ':' :: value.chars
  | (name, value) :: next :: rest =>
    quoted name ++ ':' :: value.chars ++ ',' :: memberChars (next :: rest)

end

def text (doc : Json) : String :=
  String.ofList doc.chars

/-! ## Equality -/

mutual

/-- Equality of documents. Numbers are equal within their kind only, and binary64 numbers as
numbers, so a not-a-number equals nothing. -/
def equals : Json → Json → Bool
  | .null, .null => true
  | .bool a, .bool b => a == b
  | .int a, .int b => a == b
  | .float a, .float b => a.equals b
  | .string a, .string b => a == b
  | .array a, .array b => itemsEqual a b
  | .object a, .object b => membersEqual a b
  | _, _ => false

def itemsEqual : List Json → List Json → Bool
  | [], [] => true
  | a :: as, b :: bs => a.equals b && itemsEqual as bs
  | _, _ => false

def membersEqual : List (String × Json) → List (String × Json) → Bool
  | [], [] => true
  | (n, a) :: as, (m, b) :: bs => n == m && a.equals b && membersEqual as bs
  | _, _ => false

end

end Json

end BoundSql
