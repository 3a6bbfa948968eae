import BoundSql.Parameters.Edit
import BoundSql.Parameters.Sharing

/-!
# Changes to two collections, as data

What may be done to a collection and its copy: either of them is changed, either becomes a copy of
the other, or they are exchanged. A history of such steps has the latest step in front, because the
question where a stored value comes from is answered backwards.
-/

namespace BoundSql

/-- One of two collections. -/
inductive Side
  | current
  | copy
deriving DecidableEq, Repr

def Side.other : Side → Side
  | .current => .copy
  | .copy => .current

namespace SharedParameters

inductive Step
  | edit (side : Side) (change : Edit Value)
  /-- The other side becomes a copy of this one. -/
  | clone (source : Side)
  | swap

def side (s : SharedParameters) : Side → Parameters Stored
  | .current => s.current
  | .copy => s.copy

/-- What a change to the present collection answers, and both collections after it. -/
def edit (s : SharedParameters) :
    Edit Value → Except StatementError (Option Value) × SharedParameters
  | .add name value =>
    let (outcome, t) := s.add name value
    (outcome.map fun _ => none, t)
  | .set name value => (.ok none, s.set name value)
  | .append pairs =>
    let (outcome, t) := s.append pairs
    (outcome.map fun _ => none, t)
  | .overwrite pairs => (.ok none, s.overwrite pairs)
  | .remove name =>
    let (value, t) := s.remove name
    (.ok value, t)
  | .clear => (.ok none, s.clear)
  | .truncate n => (.ok none, { s with current := s.current.truncate n })

/-- What a step answers, and both collections after it. -/
def step (s : SharedParameters) :
    Step → Except StatementError (Option Value) × SharedParameters
  | .edit .current change => s.edit change
  | .edit .copy change =>
    let (answer, t) := s.swap.edit change
    (answer, t.swap)
  | .clone .current => (.ok none, s.clone)
  | .clone .copy => (.ok none, s.swap.clone.swap)
  | .swap => (.ok none, s.swap)

/-- Both collections after a history. -/
def after (s : SharedParameters) : List Step → SharedParameters
  | [] => s
  | latest :: past => ((s.after past).step latest).2

end SharedParameters

end BoundSql
