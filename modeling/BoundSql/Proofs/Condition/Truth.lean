import BoundSql.Proofs.Execution

/-!
# What a condition means

The meaning of a condition is a truth value out of three, under an assignment that says what the
database finds of each atomic condition. It is given twice: for the tree that a caller builds
(`Predicate.truth`), and for a condition as it is read from SQL (`Condition.truth`), whose
placeholders stand for the values bound under them.

An assignment is free but for one law. A membership test of some values and some more holds as the
two tests joined by `or` do, and one of no values does not hold. Nothing is said about what a
comparison finds, nor that `is not null` denies `is null`.
-/

namespace BoundSql

/-- The truth of a condition: the missing value makes some neither true nor false. -/
inductive Truth
  | true
  | false
  | unknown
deriving DecidableEq, Repr

namespace Truth

/-- Both hold. -/
protected def and : Truth → Truth → Truth
  | .true, b => b
  | .false, _ => .false
  | .unknown, .false => .false
  | .unknown, _ => .unknown

/-- One of both holds. -/
protected def or : Truth → Truth → Truth
  | .true, _ => .true
  | .false, b => b
  | .unknown, .true => .true
  | .unknown, _ => .unknown

end Truth

/-- What a connective makes of two truth values. -/
def Connective.truth : Connective → Truth → Truth → Truth
  | .and => .and
  | .or => .or

theorem Connective.truth_assoc (op : Connective) (a b c : Truth) :
    op.truth (op.truth a b) c = op.truth a (op.truth b c) := by
  cases op <;> cases a <;> cases b <;> cases c <;> rfl

/-- What the database finds of each atomic condition over a column, given by its name. -/
structure Assignment where
  compared : String → Comparison → Value → Truth
  isNull : String → Truth
  isNotNull : String → Truth
  among : String → List Value → Truth
  among_nil : ∀ column, among column [] = .false
  among_append : ∀ column xs ys, among column (xs ++ ys) = (among column xs).or (among column ys)

namespace Assignment

variable (σ : Assignment)

/-- A column compared with the value of an operand. Equality with the missing value asks whether the
column is missing, and so does inequality. -/
def leaf (column : String) : Comparison → Value → Truth
  | .eq, .null => σ.isNull column
  | .ne, .null => σ.isNotNull column
  | op, value => σ.compared column op value

theorem leaf_eq (column : String) (op : Comparison) (value : Value) :
    σ.leaf column op value =
      if op.testsNull value then if op = .eq then σ.isNull column else σ.isNotNull column
      else σ.compared column op value := by
  cases op <;> cases value <;> rfl

end Assignment

/-! ## Of a tree -/

namespace Predicate

/-- A comparison with a member, from the side of its column. -/
def leafTruth (t : Table) (σ : Assignment) (op : Comparison) (member : String)
    (operand : Predicate) : Asking Truth := do
  let column ← liftM (t.mappedColumn member)
  let value ← operand.evaluate
  pure (σ.leaf column.name op value)

/-- The truth of a predicate. Operands are evaluated from left to right; what stands in front of a
column is compared with it the other way round. -/
def truth (t : Table) (σ : Assignment) : Predicate → Asking Truth
  | .logical op left right => do
    let first ← left.truth t σ
    let second ← right.truth t σ
    pure (op.truth first second)
  | .comparison op (.column member) operand => leafTruth t σ op member operand
  | .comparison op operand (.column member) => leafTruth t σ op.mirror member operand
  | .membership member values => do
    let column ← liftM (t.mappedColumn member)
    pure (σ.among column.name values)
  | .literal (.bool true) => pure .true
  | .literal (.bool false) => pure .false
  | other => throw (.unsupportedPredicate (other.kind ++ " is no condition"))

theorem truth_comparison {op side : Comparison} {member : String} {left right operand : Predicate}
    (h : columnSide? op left right = some (side, member, operand)) (t : Table) (σ : Assignment) :
    (comparison op left right).truth t σ = leafTruth t σ side member operand := by
  unfold columnSide? at h
  split at h
  · cases h
    rw [truth]
  · next notColumn =>
    cases h
    rw [truth]
    exact notColumn
  · cases h

end Predicate

/-! ## Of a condition in SQL -/

/-- An atomic condition. Placeholders are given by their names. -/
inductive Atom
  | compared (column : String) (op : Comparison) (placeholder : String)
  | isNull (column : String)
  | isNotNull (column : String)
  | among (column : String) (placeholder : String)
  | constant (b : Bool)
deriving DecidableEq, Repr

/-- A condition as it is read. -/
inductive Condition
  | atom (a : Atom)
  | joined (op : Connective) (left right : Condition)
deriving DecidableEq, Repr

/-- The truth of an atomic condition, if its placeholders stand for values, and the one of a
membership test for a list. -/
def Atom.truth (σ : Assignment) (look : String → Option Value) : Atom → Option Truth
  | .compared column op placeholder => (look placeholder).map (σ.compared column op)
  | .isNull column => some (σ.isNull column)
  | .isNotNull column => some (σ.isNotNull column)
  | .among column placeholder =>
    (look placeholder).bind fun value => value.elements?.map (σ.among column)
  | .constant true => some .true
  | .constant false => some .false

/-- The truth of a condition. -/
def Condition.truth (σ : Assignment) (look : String → Option Value) : Condition → Option Truth
  | .atom a => a.truth σ look
  | .joined op left right => do
    let first ← left.truth σ look
    let second ← right.truth σ look
    pure (op.truth first second)

/-- How a chain of one connective is split does not matter. -/
theorem Condition.truth_assoc (σ : Assignment) (look : String → Option Value) (op : Connective)
    (a b c : Condition) :
    (joined op (joined op a b) c).truth σ look = (joined op a (joined op b c)).truth σ look := by
  simp only [truth]
  cases a.truth σ look with
  | none => rfl
  | some x =>
    cases b.truth σ look with
    | none => rfl
    | some y =>
      cases c.truth σ look with
      | none => rfl
      | some z => exact congrArg some (op.truth_assoc x y z)

end BoundSql
