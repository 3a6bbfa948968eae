/-!
# Dates and times of day

Calendar values as a database stores them: dates of the proleptic Gregorian calendar with
astronomical year numbers, times of day with nanoseconds, and the two together. A leap second is the
last second of a minute with a nanosecond count of one thousand million or more. Each kind has one
text, in the extended form of ISO 8601.
-/

namespace BoundSql

/-- Whether the calendar gives the year a 29th of February. -/
def isLeapYear (year : Int) : Bool :=
  year % 4 == 0 && (year % 100 != 0 || year % 400 == 0)

def daysInMonth (year : Int) : Nat → Nat
  | 1 | 3 | 5 | 7 | 8 | 10 | 12 => 31
  | 4 | 6 | 9 | 11 => 30
  | 2 => if isLeapYear year then 29 else 28
  | _ => 0

/-- The decimal digits of `n`, with zeros in front up to `width`. -/
def paddedDigits (width n : Nat) : String :=
  let digits := Nat.toDigits 10 n
  String.ofList (List.replicate (width - digits.length) '0' ++ digits)

structure Date where
  year : Int
  month : Nat
  day : Nat
  day_pos : 1 ≤ day
  day_le : day ≤ daysInMonth year month
deriving DecidableEq, Repr

namespace Date

def firstYear : Int := -262143

def lastYear : Int := 262142

/-- The date of a year, month and day, if the calendar has it. -/
def ofParts? (year : Int) (month day : Nat) : Option Date :=
  if h : 1 ≤ day ∧ day ≤ daysInMonth year month then
    if firstYear ≤ year ∧ year ≤ lastYear then some ⟨year, month, day, h.1, h.2⟩ else none
  else none

/-- Year, month and day. Years of four digits stand bare; all others carry a sign. -/
def text (d : Date) : String :=
  let year :=
    if 0 ≤ d.year ∧ d.year ≤ 9999 then paddedDigits 4 d.year.toNat
    else (if d.year < 0 then "-" else "+") ++ paddedDigits 4 d.year.natAbs
  year ++ "-" ++ paddedDigits 2 d.month ++ "-" ++ paddedDigits 2 d.day

end Date

/-- A time of day to the nanosecond. Only second 59 may be a leap second, which counts
`1_000_000_000` nanoseconds and more. -/
structure TimeOfDay where
  hour : Nat
  minute : Nat
  second : Nat
  nanosecond : Nat
  hour_lt : hour < 24
  minute_lt : minute < 60
  second_lt : second < 60
  nanosecond_lt : nanosecond < if second = 59 then 2000000000 else 1000000000
deriving DecidableEq, Repr

namespace TimeOfDay

/-- The time with the given parts, if a clock shows it. -/
def ofParts? (hour minute second nanosecond : Nat) : Option TimeOfDay :=
  if h : hour < 24 ∧ minute < 60 ∧ second < 60 ∧
      nanosecond < if second = 59 then 2000000000 else 1000000000 then
    some ⟨hour, minute, second, nanosecond, h.1, h.2.1, h.2.2.1, h.2.2.2⟩
  else none

/-- A fraction of a second in nanoseconds: three, six or nine digits, the fewest that lose nothing,
and nothing at all for zero. -/
def fractionText (n : Nat) : String :=
  if n = 0 then ""
  else if n % 1000000 = 0 then "." ++ paddedDigits 3 (n / 1000000)
  else if n % 1000 = 0 then "." ++ paddedDigits 6 (n / 1000)
  else "." ++ paddedDigits 9 n

/-- Hours, minutes and seconds, with the fraction; a leap second is shown as second 60. -/
def text (t : TimeOfDay) : String :=
  let leap := 1000000000 ≤ t.nanosecond
  let second := if leap then t.second + 1 else t.second
  let nanosecond := if leap then t.nanosecond - 1000000000 else t.nanosecond
  paddedDigits 2 t.hour ++ ":" ++ paddedDigits 2 t.minute ++ ":" ++ paddedDigits 2 second ++
    fractionText nanosecond

end TimeOfDay

structure DateTime where
  date : Date
  time : TimeOfDay
deriving DecidableEq, Repr

namespace DateTime

def text (t : DateTime) : String :=
  t.date.text ++ "T" ++ t.time.text

/-- The same as an instant of Coordinated Universal Time. -/
def utcText (t : DateTime) : String :=
  t.text ++ "Z"

end DateTime

end BoundSql
