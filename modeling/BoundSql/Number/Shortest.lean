import BoundSql.Number.Binary64

/-!
# Shortest decimal digits

The shortest decimal of a binary number `m * 2 ^ q` has the fewest digits that read back as that
number, and of those the digits nearest to it. A decimal reads back when it lies in the interval of
reals that round to the number; the ends belong to it exactly when `m` is even. For each number of
digits the value has two neighbours on the decimal grid, and if any point of the grid lies in the
interval, one of the two does. All comparisons are between natural numbers.
-/

namespace BoundSql

/-- The decimal number `digits * 10 ^ exponent`. -/
structure Decimal where
  digits : Nat
  exponent : Int
deriving DecidableEq, Repr

namespace Decimal

/-- How many decimal digits `n` has; one for zero. -/
def digitCount (n : Nat) : Nat :=
  if n < 10 then 1 else digitCount (n / 10) + 1

/-- The same number without trailing zeros among the digits. -/
def trimmed (d : Decimal) : Decimal :=
  if d.digits = 0 then d
  else if d.digits % 10 = 0 then trimmed ⟨d.digits / 10, d.exponent + 1⟩
  else d
termination_by d.digits

/-- The largest `e` with `10 ^ e` at most `m * 2 ^ q`, for a positive `m`. -/
def leadingExponent (m : Nat) (q : Int) : Int :=
  let num := m <<< q.toNat
  let den := 1 <<< (-q).toNat
  if den ≤ num then (digitCount (num / den) : Int) - 1
  else -(digitCount ((den - 1) / num) : Int)

def tenTo : Nat → Nat
  | 0 => 1
  | n + 1 => 10 * tenTo n

/-- `c * 10 ^ s` over the common denominator of decimal step `s` and binary power `q`. -/
def overDecimal (s q : Int) (c : Nat) : Nat :=
  (c * tenTo s.toNat) <<< (-q).toNat

/-- `a * 2 ^ q` over the same denominator. -/
def overBinary (s q : Int) (a : Nat) : Nat :=
  a <<< q.toNat * tenTo (-s).toNat

/-- Whether `c * 10 ^ s` rounds to `m * 2 ^ q`. The interval reaches half a unit to both sides, a
quarter unit downwards where a smaller binade begins below (`edge`). -/
def readsBack (m : Nat) (q : Int) (edge : Bool) (s : Int) (c : Nat) : Bool :=
  let low := overBinary s (q - 2) (4 * m - if edge then 1 else 2)
  let high := overBinary s (q - 2) (4 * m + 2)
  let point := overDecimal s (q - 2) c
  if m % 2 = 0 then low ≤ point && point ≤ high else low < point && point < high

/-- Of the value's two neighbours `c` and `c + 1` on the grid of step `s`, the one that reads back;
of two, the nearer, and the even one when they are equally near. -/
def onGrid? (m : Nat) (q : Int) (edge : Bool) (s : Int) : Option Nat :=
  let value := overBinary s q m
  let step := overDecimal s q 1
  let c := value / step
  let twice := 2 * (value - c * step)
  match readsBack m q edge s c, readsBack m q edge s (c + 1) with
  | true, true => some (if twice < step || (twice == step && c % 2 == 0) then c else c + 1)
  | true, false => some c
  | false, true => some (c + 1)
  | false, false => none

/-- The shortest decimal that reads back as `m * 2 ^ q`, for a positive `m`. Seventeen digits always
read back for 53-bit `m`. -/
def shortest (m : Nat) (q : Int) (edge : Bool) : Decimal :=
  let lead := leadingExponent m q
  let found := (List.range 17).findSome? fun (n : Nat) =>
    (onGrid? m q edge (lead - n)).map fun c => (⟨c, lead - n⟩ : Decimal)
  trimmed (found.getD ⟨m, 0⟩)

end Decimal

/-- The shortest decimal of the magnitude of a finite number other than zero. Below a power of two,
unless it is the smallest normal one, the numbers lie twice as dense. -/
def Binary64.shortest (x : Binary64) : Decimal :=
  Decimal.shortest x.significand x.power (x.fractionField == 0 && decide (1 < x.exponentField))

end BoundSql
