import BoundSql.Writer

/-!
# Predicates as conditions

A predicate is written as an SQL condition. Values never enter the text: each is bound to a
parameter, and its placeholder is written. A comparison is written from its column's side, a
comparison with the missing value as a null test. A condition inside another is parenthesised
exactly when both are joined conditions with different connectives. A membership test of more values
than one `in` test may take becomes several tests joined by `or`.
-/

namespace BoundSql

/-- A list cut into runs of `size` elements; the last may be shorter. -/
def chunks {α : Type} (size : Nat) (pos : 0 < size) : List α → List (List α)
  | [] => []
  | x :: xs => (x :: xs).take size :: chunks size pos ((x :: xs).drop size)
termination_by xs => xs.length
decreasing_by
  rw [List.length_drop, List.length_cons]
  omega

/-- How many runs of `size` elements it takes to hold `n`: a last run that is not full counts. -/
def chunkCount (size n : Nat) : Nat :=
  if n % size = 0 then n / size else n / size + 1

namespace Predicate

/-- Whether a condition needs parentheses under a connective. -/
def grouped (op : Connective) : Predicate → Bool
  | .logical inner _ _ => inner != op
  | _ => false

/-- A comparison from its column's side: the operator as it stands there, the member, and the
operand to evaluate. Of two columns the left one is the column. -/
def columnSide? (op : Comparison) : Predicate → Predicate → Option (Comparison × String × Predicate)
  | .column member, operand => some (op, member, operand)
  | operand, .column member => some (op.mirror, member, operand)
  | _, _ => none

/-- Write a column's name, compared with a value. -/
def writeComparison (d : Dialect) (column : Column) (op : Comparison) (value : Value) :
    Writing Unit := do
  Writing.identifier d column.name
  match op, value with
  | .eq, .null => Writing.text " is null"
  | .ne, .null => Writing.text " is not null"
  | op, value => do
    Writing.text op.sql
    Writing.bindNext d value

def writeInTest (d : Dialect) (column : Column) (values : List Value) : Writing Unit := do
  Writing.identifier d column.name
  Writing.text " in "
  Writing.bindNext d (.list values)

/-- Write a membership test: a contradiction without values, one `in` test if that may take them
all, and else several between parentheses. The tests are counted before the values are cut. -/
def writeMembership (d : Dialect) (column : Column) (values : List Value) : Writing Unit :=
  match chunkCount d.chunkSize values.length with
  | 0 => Writing.text "1 = 0"
  | 1 => writeInTest d column values
  | count => do
    Writing.report (.membershipSplit column.member values.length count)
    Writing.text "("
    Writing.separated Connective.or.sql (writeInTest d column)
      (chunks d.chunkSize d.chunkSize_pos values)
    Writing.text ")"

/-- Write a condition, between parentheses if it is grouped. -/
def writeGrouped (grouped : Bool) (condition : Writing Unit) : Writing Unit :=
  if grouped then do
    Writing.text "("
    condition
    Writing.text ")"
  else condition

/-- Write a predicate as a condition over a table's columns. -/
def compile (d : Dialect) (t : Table) : Predicate → Writing Unit
  | .logical op left right => do
    writeGrouped (left.grouped op) (left.compile d t)
    Writing.text op.sql
    writeGrouped (right.grouped op) (right.compile d t)
  | .comparison op left right =>
    match columnSide? op left right with
    | some (op, member, operand) => do
      let column ← Writing.ofExcept (t.mappedColumn member)
      let value ← Writing.asking operand.evaluate
      writeComparison d column op value
    | none =>
      throw (.unsupportedPredicate ("comparison between " ++ left.kind ++ " and " ++ right.kind ++
        " has no column operand"))
  | .membership member values => do
    let column ← Writing.ofExcept (t.mappedColumn member)
    writeMembership d column values
  | .literal (.bool true) => Writing.text "1 = 1"
  | .literal (.bool false) => Writing.text "1 = 0"
  | other => throw (.unsupportedPredicate (other.kind ++ " cannot be used as a condition"))

end Predicate

end BoundSql
