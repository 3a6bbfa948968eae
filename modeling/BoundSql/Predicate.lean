import BoundSql.Value

/-!
# Predicates

A predicate is a tree over the members of one record type. A condition is a comparison with a
column, a membership test, a truth constant, or two conditions joined; an operand is a constant, a
value that a producer computes, or an element of a list-valued operand.

A producer is asked once for each place that needs its value. What it answers may depend on the
producers asked before, which are known by their labels.
-/

namespace BoundSql

inductive Comparison
  | eq
  | ne
  | lt
  | le
  | gt
  | ge
deriving DecidableEq, Repr, Inhabited

namespace Comparison

def all : List Comparison :=
  [.eq, .ne, .lt, .le, .gt, .ge]

/-- The operator seen from the other side: `a < b` is `b > a`. -/
def mirror : Comparison → Comparison
  | .eq => .eq
  | .ne => .ne
  | .lt => .gt
  | .le => .ge
  | .gt => .lt
  | .ge => .le

/-- The operator in SQL, with a space on both sides. -/
def sql : Comparison → String
  | .eq => " = "
  | .ne => " <> "
  | .lt => " < "
  | .le => " <= "
  | .gt => " > "
  | .ge => " >= "

end Comparison

inductive Connective
  | and
  | or
deriving DecidableEq, Repr, Inhabited

namespace Connective

/-- The connective in SQL, with a space on both sides. -/
def sql : Connective → String
  | .and => " and "
  | .or => " or "

end Connective

/-- The labels of the producers asked so far, in order. -/
abbrev CallLog := List String

/-- A source of values outside the tree. Its answer may depend on the calls made before; a failure
is a reason in words. -/
structure Producer where
  label : String
  outcome : CallLog → Except String Value

namespace Producer

def constant (label : String) (value : Value) : Producer :=
  ⟨label, fun _ => .ok value⟩

def failing (label : String) (reason : String) : Producer :=
  ⟨label, fun _ => .error reason⟩

/-- A producer that counts its own calls: one, two, three and so on. -/
def counting (label : String) : Producer :=
  ⟨label, fun log => .ok (.int (Int64.ofNat (log.count label + 1)))⟩

end Producer

inductive Predicate
  | literal (value : Value)
  | column (member : String)
  /-- A value computed on demand. -/
  | computed (producer : Producer)
  /-- An element of a list-valued operand, counted from zero. -/
  | element (source : Predicate) (index : Nat)
  /-- Two operands compared, one of which has to be a column. -/
  | comparison (op : Comparison) (left right : Predicate)
  | logical (op : Connective) (left right : Predicate)
  /-- A member that has to have one of some values. -/
  | membership (member : String) (values : List Value)

namespace Predicate

/-- The kind of a node, as messages give it. -/
def kind : Predicate → String
  | .literal _ => "literal"
  | .column _ => "column reference"
  | .computed _ => "computed value"
  | .element .. => "element access"
  | .comparison .. => "comparison"
  | .logical .. => "logical expression"
  | .membership .. => "membership test"

/-- A list of conditions joined from the left; a single one stands for itself. -/
def joinLeft (op : Connective) : Predicate → List Predicate → Predicate
  | first, [] => first
  | first, next :: rest => joinLeft op (.logical op first next) rest

def joinRight (op : Connective) : Predicate → List Predicate → Predicate
  | first, [] => first
  | first, next :: rest => .logical op first (joinRight op next rest)

end Predicate

end BoundSql
