import BoundSql.Json

/-!
# JSON documents as they are written

A document that keeps what its text says and decides nothing about it: strings as the pieces between
their quotes, numbers as their digits, objects as their members in order with repeated names and
all. What a string or a number stands for is asked of it afterwards, so that a part of a text that
nobody asks about only has to follow the grammar. A string that holds half of a surrogate pair
follows the grammar, but stands for no text.
-/

namespace BoundSql.Json

/-- A piece of a string: a character, or a code of four hexadecimal digits. -/
inductive Piece
  | char (c : Char)
  | code (n : Nat)
deriving DecidableEq, Repr

/-- A number as its digits. -/
structure Numeral where
  negative : Bool
  whole : List Char
  fraction : Option (List Char)
  /-- The sign of the exponent and its digits. -/
  exponent : Option (List Char)
deriving DecidableEq, Repr

/-- A document as its text spells it. -/
inductive Source
  | null
  | bool (b : Bool)
  | number (n : Numeral)
  | string (pieces : List Piece)
  | array (items : List Source)
  | object (members : List (List Piece × Source))

/-! ## What a part stands for -/

def ofDigits (digits : List Char) : Nat :=
  digits.foldl (fun n c => 10 * n + (c.toNat - 48)) 0

/-- The integer that a number without fraction and exponent stands for. -/
def Numeral.integer? (n : Numeral) : Option Int :=
  if n.fraction.isNone && n.exponent.isNone then
    some (if n.negative then -(ofDigits n.whole : Int) else ofDigits n.whole)
  else none

/-- The natural number that a number without sign, fraction and exponent stands for. -/
def Numeral.natural? (n : Numeral) : Option Nat :=
  if !n.negative && n.fraction.isNone && n.exponent.isNone then some (ofDigits n.whole) else none

def isLeadingCode (n : Nat) : Bool :=
  0xD800 ≤ n && n < 0xDC00

def isTrailingCode (n : Nat) : Bool :=
  0xDC00 ≤ n && n < 0xE000

/-- The characters that pieces stand for. Two codes may form one character; half of such a pair
alone forms none. -/
def decode? : List Piece → Option (List Char)
  | [] => some []
  | .char c :: rest => (decode? rest).map (c :: ·)
  | .code m :: .code n :: rest =>
    if isLeadingCode m then
      if isTrailingCode n then
        (decode? rest).map (Char.ofNat (0x10000 + (m - 0xD800) * 0x400 + (n - 0xDC00)) :: ·)
      else none
    else if isTrailingCode m then none
    else (decode? (.code n :: rest)).map (Char.ofNat m :: ·)
  | .code m :: rest =>
    if isLeadingCode m || isTrailingCode m then none else (decode? rest).map (Char.ofNat m :: ·)

def Source.text? : Source → Option String
  | .string pieces => (decode? pieces).map String.ofList
  | _ => none

def Source.natural? : Source → Option Nat
  | .number n => n.natural?
  | _ => none

end BoundSql.Json
