/-!
# Double-precision numbers by their bits

A floating-point value is kept as the 64 bits of its IEEE 754 interchange format, so that a
not-a-number keeps its payload and negative zero its sign. The parts are read off the bits in `Nat`,
by division with the weights of the fields.
-/

namespace BoundSql

/-- A binary64 number, stored as its interchange format. -/
structure Binary64 where
  bits : UInt64
deriving DecidableEq, Repr

namespace Binary64

/-- The weight of the sign bit, which stands above 63 others. -/
def signWeight : Nat := 1 <<< 63

/-- The weight of the exponent's lowest bit, which stands above 52 of the fraction. -/
def exponentWeight : Nat := 1 <<< 52

/-- The largest exponent field of 11 bits. It marks what is no finite number. -/
def topExponent : Nat := 2047

def negative (x : Binary64) : Bool :=
  signWeight ≤ x.bits.toNat

def exponentField (x : Binary64) : Nat :=
  x.bits.toNat / exponentWeight % (topExponent + 1)

def fractionField (x : Binary64) : Nat :=
  x.bits.toNat % exponentWeight

def isFinite (x : Binary64) : Bool :=
  x.exponentField != topExponent

/-- A not-a-number: the largest exponent with a fraction. -/
def isNaN (x : Binary64) : Bool :=
  x.exponentField == topExponent && x.fractionField != 0

def isZero (x : Binary64) : Bool :=
  x.exponentField == 0 && x.fractionField == 0

/-- The integer `m` of a finite magnitude `m * 2 ^ q`: normal numbers carry a hidden leading bit. -/
def significand (x : Binary64) : Nat :=
  if x.exponentField = 0 then x.fractionField else x.fractionField + exponentWeight

/-- The power `q` of a finite magnitude `m * 2 ^ q`. -/
def power (x : Binary64) : Int :=
  if x.exponentField = 0 then -1074 else (x.exponentField : Int) - 1075

/-- Equality of numbers: a not-a-number differs from everything, the two zeros are equal. -/
def equals (x y : Binary64) : Bool :=
  !x.isNaN && !y.isNaN && (x == y || (x.isZero && y.isZero))

def ofFields (negative : Bool) (exponent fraction : Nat) : Binary64 :=
  ⟨UInt64.ofNat ((if negative then signWeight else 0) + exponent * exponentWeight + fraction)⟩

/-- The binary64 number equal to a binary32 number given by its bits: a sign, 8 bits of exponent and
23 of fraction. Every binary32 number is representable; one below the normal range gets a leading
bit of its own, and a not-a-number keeps its payload and becomes quiet. -/
def ofBinary32 (bits : UInt32) : Binary64 :=
  let negative := decide (1 <<< 31 ≤ bits.toNat)
  let exponent := bits.toNat >>> 23 % 256
  let fraction := bits.toNat % 1 <<< 23
  if exponent = 255 then
    if fraction = 0 then ofFields negative topExponent 0
    else ofFields negative topExponent (1 <<< 51 + (fraction % 1 <<< 22) <<< 29)
  else if exponent = 0 then
    if fraction = 0 then ofFields negative 0 0
    else
      let lead := fraction.log2
      ofFields negative (874 + lead) ((fraction - 1 <<< lead) <<< (52 - lead))
  else ofFields negative (exponent + 896) (fraction <<< 29)

end Binary64

end BoundSql
