/-!
# Universally unique identifiers

A 128-bit identifier and its text: 32 lower-case hexadecimal digits in groups of 8, 4, 4, 4 and 12.
-/

namespace BoundSql

/-- A universally unique identifier. -/
structure Uuid where
  bits : BitVec 128
deriving DecidableEq, Repr

namespace Uuid

def digits (u : Uuid) : List Char :=
  (List.range 32).map fun i => Nat.digitChar (u.bits.toNat >>> (4 * (31 - i)) % 16)

/-- The digits in groups, with hyphens between the groups. -/
def text (u : Uuid) : String :=
  let d := u.digits
  String.ofList <|
    d.take 8 ++ '-' :: (d.drop 8).take 4 ++ '-' :: (d.drop 12).take 4 ++
      '-' :: (d.drop 16).take 4 ++ '-' :: d.drop 20

end Uuid

end BoundSql
