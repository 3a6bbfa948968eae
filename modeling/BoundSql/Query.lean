import BoundSql.Parameters
import BoundSql.Value

/-!
# Finished statements

A query is the text of a statement with the values of its placeholders. A statement that binds
nothing has no collection of parameters, which is not the same as an empty one.
-/

namespace BoundSql

/-- The document of a collection: an object with the names in order. -/
def Parameters.toJson (p : Parameters Value) : Json :=
  .object (p.toList.map fun entry => (entry.1, entry.2.toJson))

/-- Whether two lists of entries have the same names and equal values, in the same order. -/
def Parameters.entriesEqual : List (String × Value) → List (String × Value) → Bool
  | [], [] => true
  | (n, a) :: as, (m, b) :: bs => n == m && a.equals b && entriesEqual as bs
  | _, _ => false

/-- Equality of collections: the order counts, and values compare as values. -/
def Parameters.equals (p q : Parameters Value) : Bool :=
  entriesEqual p.toList q.toList

structure Query where
  text : String
  parameters : Option (Parameters Value)

namespace Query

def toJson (q : Query) : Json :=
  .object
    [ ("text", .string q.text),
      ("parameters",
        match q.parameters with
        | some p => p.toJson
        | none => .null) ]

/-- Equality of queries. A query that binds a not-a-number differs from itself. -/
def equals (q r : Query) : Bool :=
  q.text == r.text &&
    match q.parameters, r.parameters with
    | some p, some p' => p.equals p'
    | none, none => true
    | _, _ => false

/-- The query with other values for the names that it binds. The text stays. -/
def fill (q : Query) (pairs : List (String × Value)) : Query :=
  { q with parameters := q.parameters.map fun p => p.overwrite pairs }

end Query

end BoundSql
