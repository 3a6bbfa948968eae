import BoundSql.Query

/-!
# Copies that share their values

A collection can be copied, and the copy shares the stored values until either side stores another
one under the name. To say so, each stored value carries the number of the store operation that made
it: copying keeps the numbers, and storing takes a fresh one, even for an equal value.
-/

namespace BoundSql

/-- A value in a collection, with the number it got when it was stored. -/
structure Stored where
  number : Nat
  value : Value

/-- A collection and a copy of it, with the number of values stored so far. -/
structure SharedParameters where
  current : Parameters Stored := Parameters.empty
  copy : Parameters Stored := Parameters.empty
  supply : Nat := 0

namespace SharedParameters

/-- Give each value the next number. -/
def number (supply : Nat) : List (String × Value) → List (String × Stored)
  | [] => []
  | (name, value) :: rest => (name, ⟨supply, value⟩) :: number (supply + 1) rest

/-- The collection of a list of pairs, copied at once. -/
def ofList (pairs : List (String × Value)) : SharedParameters :=
  let p := Parameters.ofList (number 0 pairs)
  ⟨p, p, pairs.length⟩

def values (p : Parameters Stored) : List (String × Value) :=
  p.toList.map fun entry => (entry.1, entry.2.value)

/-- Bind a name that is not bound yet. -/
def add (s : SharedParameters) (name : String) (value : Value) :
    Except StatementError Unit × SharedParameters :=
  match s.current.add name ⟨s.supply, value⟩ with
  | .ok p => (.ok (), { s with current := p, supply := s.supply + 1 })
  | .error e => (.error e, { s with supply := s.supply + 1 })

/-- Bind a name, or store another value under it. -/
def set (s : SharedParameters) (name : String) (value : Value) : SharedParameters :=
  { s with current := s.current.set name ⟨s.supply, value⟩, supply := s.supply + 1 }

/-- Bind names up to the first that is bound already. -/
def append (s : SharedParameters) (pairs : List (String × Value)) :
    Except StatementError Unit × SharedParameters :=
  let (outcome, p) := s.current.append (number s.supply pairs)
  (outcome, { s with current := p, supply := s.supply + pairs.length })

/-- Store other values under the names that are bound. -/
def overwrite (s : SharedParameters) (pairs : List (String × Value)) : SharedParameters :=
  { s with
    current := s.current.overwrite (number s.supply pairs)
    supply := s.supply + pairs.length }

/-- Remove a name, and answer its value. -/
def remove (s : SharedParameters) (name : String) : Option Value × SharedParameters :=
  let (stored, p) := s.current.remove name
  (stored.map Stored.value, { s with current := p })

def clear (s : SharedParameters) : SharedParameters :=
  { s with current := Parameters.empty }

/-- Let the copy be a copy of the present collection. -/
def clone (s : SharedParameters) : SharedParameters :=
  { s with copy := s.current }

def swap (s : SharedParameters) : SharedParameters :=
  { s with current := s.copy, copy := s.current }

/-- Whether the collection equals the copy: the same names in the same order, with equal values. -/
def agrees (s : SharedParameters) : Bool :=
  Parameters.entriesEqual (values s.current) (values s.copy)

/-- Whether both hold the same stored value under a name, if both bind it. -/
def shares? (s : SharedParameters) (name : String) : Option Bool :=
  match s.current.get? name, s.copy.get? name with
  | some a, some b => some (a.number == b.number)
  | _, _ => none

def toJson (s : SharedParameters) : Json :=
  .object ((values s.current).map fun entry => (entry.1, entry.2.toJson))

end SharedParameters

end BoundSql
