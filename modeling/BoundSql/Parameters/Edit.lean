import BoundSql.Parameters

/-!
# Changes to a collection, as data

What a caller may do to a collection, so that a history of changes is a list. A change that is
refused does not end the history.
-/

namespace BoundSql

universe u

inductive Edit (α : Type u)
  | add (name : String) (value : α)
  | set (name : String) (value : α)
  | append (pairs : List (String × α))
  | overwrite (pairs : List (String × α))
  | remove (name : String)
  | clear
  | truncate (n : Nat)

namespace Parameters

variable {α : Type u}

/-- What a change answers, and the collection after it. Only a removal answers a value. -/
def edit (p : Parameters α) : Edit α → Except StatementError (Option α) × Parameters α
  | .add name value =>
    match p.add name value with
    | .ok q => (.ok none, q)
    | .error e => (.error e, p)
  | .set name value => (.ok none, p.set name value)
  | .append pairs =>
    let (outcome, q) := p.append pairs
    (outcome.map fun _ => none, q)
  | .overwrite pairs => (.ok none, p.overwrite pairs)
  | .remove name =>
    let (value, q) := p.remove name
    (.ok value, q)
  | .clear => (.ok none, empty)
  | .truncate n => (.ok none, p.truncate n)

/-- What the changes of a history answer, and the collection at its end. -/
def editAll (p : Parameters α) :
    List (Edit α) → List (Except StatementError (Option α)) × Parameters α
  | [] => ([], p)
  | change :: rest =>
    let (answer, q) := p.edit change
    let (answers, last) := q.editAll rest
    (answer :: answers, last)

end Parameters

end BoundSql
