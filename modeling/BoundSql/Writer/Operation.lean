import BoundSql.Predicate.Compile

/-!
# Writing by hand

The single acts of writing, as data: what a caller's own step of a statement is made of. A sequence
of acts stops at the first that fails.
-/

namespace BoundSql

/-- A single act of writing. The last one is a step's own refusal to go on. -/
inductive Operation
  | text (s : String)
  | newline
  | trim (n : Nat)
  | identifier (name : String)
  | tableName
  /-- Append the number of values that one `in` test may take. -/
  | listLimit
  | bind (name : String) (value : Value)
  | bindNext (value : Value)
  | compile (predicate : Predicate)
  | fail (error : StatementError)

namespace Operation

/-- Carry out one act. -/
def write (d : Dialect) (t : Table) : Operation → Writing Unit
  | .text s => Writing.text s
  | .newline => Writing.text "\n"
  | .trim n => Writing.trim n
  | .identifier name => Writing.identifier d name
  | .tableName => Writing.tableName d t
  | .listLimit => Writing.text (toString d.listLimit.toNat)
  | .bind name value => Writing.bind d name value
  | .bindNext value => Writing.bindNext d value
  | .compile predicate => predicate.compile d t
  | .fail error => throw error

/-- Carry out acts in order, up to the first that fails. -/
def writeAll (d : Dialect) (t : Table) : List Operation → Writing Unit
  | [] => pure ()
  | op :: rest => do
    op.write d t
    writeAll d t rest

end Operation

end BoundSql
