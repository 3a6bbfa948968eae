import BoundSql.Catalog

/-!
# Requests to a catalogue, as data

What a program asks of its catalogue, so that a run is a list of requests: the table of one type, or
the tables of all registered types. What the types are called, and what their descriptions answer at
each call, is given from outside.
-/

namespace BoundSql

/-- All types, with their printed names and their descriptions. Two types may have one name. -/
structure Descriptions where
  called : TypeId → String
  /-- What the description of a type answers, given the number of times that it was asked before. -/
  answer : TypeId → Nat → Except StatementError Table

def Descriptions.entity (d : Descriptions) (id : TypeId) : Entity :=
  ⟨id, d.called id, d.answer id⟩

namespace Catalog

inductive Request
  | lookup (id : TypeId)
  /-- The registered types, in the order of the registry. -/
  | preload (ids : List TypeId)
deriving DecidableEq, Repr

/-- The catalogue after a request, whatever the request answers. -/
def serve (d : Descriptions) (c : Catalog) : Request → Catalog
  | .lookup id => (c.lookup (d.entity id)).2
  | .preload ids => (c.preload (ids.map d.entity)).2

/-- The catalogue after the requests of a run. A request that fails does not end the run. -/
def serveAll (d : Descriptions) (c : Catalog) (requests : List Request) : Catalog :=
  requests.foldl (serve d) c

end Catalog

end BoundSql
