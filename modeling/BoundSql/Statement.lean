import BoundSql.Builder

/-!
# Statements in one call

The common statements over a whole table: one command, and a filter where the statement takes one.
The first step that fails is the answer.
-/

namespace BoundSql

/-- A statement that is built by one call. -/
inductive Statement
  | count (filter : Option Predicate)
  | select (filter : Option Predicate)
  | insert (ambient : Bool)
  | update (ambient : Bool) (filter : Option Predicate)
  | delete (filter : Option Predicate)
  | truncate

namespace Statement

/-- The steps of a command with an optional filter. -/
def filtered (c : Command) (filter : Option Predicate) : List Command :=
  c :: (filter.map Command.filter).toList

/-- The commands that a statement is made of, in their order. -/
def commands : Statement → List Command
  | .count filter => filtered .count filter
  | .select filter => filtered (.select none) filter
  | .insert ambient => [.insert none ambient]
  | .update ambient filter => filtered (.update none ambient) filter
  | .delete filter => filtered .delete filter
  | .truncate => [.truncate]

/-- The query of a statement under a dialect. -/
def build (d : Dialect) (t : Table) (s : Statement) : Except StatementError Query :=
  match Builder.commands { dialect := d, table := t } s.commands with
  | (.ok (), b) => .ok b.query
  | (.error e, _) => .error e

end Statement

end BoundSql
