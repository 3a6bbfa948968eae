import BoundSql.Error
import BoundSql.Index

/-!
# Bound parameters

A collection of named values in the order in which they were bound, with an index from each name to
its position. Every operation keeps the index exact: it holds the position of every entry's name and
nothing else (`index_eq`). Two collections with the same entries are therefore equal, whatever
operations led to them (`Parameters.ext`), and no name stands twice (`names_nodup`).
-/

namespace BoundSql

universe u

/-- Named values in insertion order. -/
structure Parameters (α : Type u) where
  /-- The names and values, first bound first. -/
  entries : Array (String × α)
  /-- The position of each name. -/
  index : Index
  /-- A name's position is where its entry stands. -/
  index_eq : ∀ (name : String) (i : Nat),
    index[name]? = some i ↔ entries[i]?.map Prod.fst = some name

namespace Parameters

variable {α : Type u}

/-! ## Looking at a collection -/

def toList (p : Parameters α) : List (String × α) :=
  p.entries.toList

def names (p : Parameters α) : List String :=
  p.toList.map Prod.fst

def size (p : Parameters α) : Nat :=
  p.entries.size

def isEmpty (p : Parameters α) : Bool :=
  p.entries.isEmpty

def contains (p : Parameters α) (name : String) : Bool :=
  p.index[name]?.isSome

def get? (p : Parameters α) (name : String) : Option α :=
  p.index[name]?.bind fun i => p.entries[i]?.map Prod.snd

/-! ## Building and changing a collection -/

/-- The collection that binds nothing. -/
def empty : Parameters α where
  entries := #[]
  index := ∅
  index_eq := by simp

instance : EmptyCollection (Parameters α) := ⟨empty⟩

instance : Inhabited (Parameters α) := ⟨empty⟩

/-- A new name, bound after all others. -/
def push (p : Parameters α) (name : String) (value : α) (fresh : p.index[name]? = none) :
    Parameters α where
  entries := p.entries.push (name, value)
  index := p.index.insert name p.entries.size
  index_eq := by
    intro other i
    have own := p.index_eq name
    have all := p.index_eq other
    grind

/-- Another value at a position, under the name that stands there. -/
def put (p : Parameters α) (i : Nat) (value : α) : Parameters α where
  entries := p.entries.modify i fun entry => (entry.1, value)
  index := p.index
  index_eq := by
    intro name j
    rw [p.index_eq, Array.getElem?_modify]
    split <;> simp [Function.comp_def]

/-- Bind a name that is not bound yet. -/
def add (p : Parameters α) (name : String) (value : α) : Except StatementError (Parameters α) :=
  match fresh : p.index[name]? with
  | some _ => .error (.duplicateParameter name)
  | none => .ok (p.push name value fresh)

/-- Bind a name, or give it another value where it stands. -/
def set (p : Parameters α) (name : String) (value : α) : Parameters α :=
  match fresh : p.index[name]? with
  | some i => p.put i value
  | none => p.push name value fresh

/-- Give a name another value where it stands, if it is bound. -/
def replace (p : Parameters α) (name : String) (value : α) : Parameters α :=
  match p.index[name]? with
  | some i => p.put i value
  | none => p

/-- Bind names one after the other up to the first that is bound already. What was bound before it
stays. -/
def append (p : Parameters α) : List (String × α) → Except StatementError Unit × Parameters α
  | [] => (.ok (), p)
  | (name, value) :: rest =>
    match p.add name value with
    | .error e => (.error e, p)
    | .ok q => q.append rest

/-- Give other values to the names that are bound, and ignore the rest. -/
def overwrite (p : Parameters α) (pairs : List (String × α)) : Parameters α :=
  pairs.foldl (fun q pair => q.replace pair.1 pair.2) p

/-- The collection of a list of pairs: a repeated name keeps its first position and its last
value. -/
def ofList (pairs : List (String × α)) : Parameters α :=
  pairs.foldl (fun q pair => q.set pair.1 pair.2) empty

/-- Where a position goes when the entry at position `i` is removed. -/
def closeGap (i j : Nat) : Nat :=
  if i < j then j - 1 else j

/-- An exact index stays exact when one name is removed and the positions after it move up. -/
theorem closeGap_index_iff {at? : Nat → Option String} {index? : String → Option Nat}
    (exact_index : ∀ name i, index? name = some i ↔ at? i = some name) {name : String} {i : Nat}
    (bound : index? name = some i) (other : String) (j : Nat) :
    (if name = other then none else index? other).map (closeGap i) = some j ↔
      (if j < i then at? j else at? (j + 1)) = some other := by
  have here := (exact_index name i).1 bound
  have below := exact_index other j
  have above := exact_index other (j + 1)
  by_cases same : name = other
  · subst same
    simp only [if_true, Option.map_none, reduceCtorEq, false_iff]
    intro again
    split at again
    · have := below.2 again
      rw [bound, Option.some.injEq] at this
      omega
    · have := above.2 again
      rw [bound, Option.some.injEq] at this
      omega
  · simp only [same, if_false, Option.map_eq_some_iff]
    constructor
    · rintro ⟨k, found, rfl⟩
      have there := (exact_index other k).1 found
      have apart : k ≠ i := by
        rintro rfl
        rw [here, Option.some.injEq] at there
        exact same there
      unfold closeGap
      split
      · rw [if_neg (by omega), Nat.sub_add_cancel (by omega)]
        exact there
      · rw [if_pos (by omega)]
        exact there
    · intro there
      split at there
      · exact ⟨j, below.2 there, if_neg (by omega)⟩
      · exact ⟨j + 1, above.2 there, if_pos (by omega)⟩

/-- The collection without the entry at a position; the entries after it move up. -/
def eraseAt (p : Parameters α) (name : String) (i : Nat) (h : p.index[name]? = some i) :
    Parameters α where
  entries := p.entries.eraseIdxIfInBounds i
  index := (p.index.erase name).map fun _ j => closeGap i j
  index_eq := by
    intro other j
    have inside : i < p.entries.size := by
      have here := (p.index_eq name i).1 h
      apply Decidable.byContradiction
      intro outside
      rw [Array.getElem?_eq_none (by omega)] at here
      cases here
    rw [Std.ExtHashMap.getElem?_map, Std.ExtHashMap.getElem?_erase, Array.eraseIdxIfInBounds,
      dif_pos inside, Array.getElem?_eraseIdx inside, apply_ite (Option.map Prod.fst),
      ← closeGap_index_iff p.index_eq h]
    simp only [beq_iff_eq]

/-- Remove a name; the value that it had and the collection without it. -/
def remove (p : Parameters α) (name : String) : Option α × Parameters α :=
  match h : p.index[name]? with
  | some i => (p.entries[i]?.map Prod.snd, p.eraseAt name i h)
  | none => (none, p)

def truncate (p : Parameters α) (n : Nat) : Parameters α where
  entries := p.entries.take n
  index := p.index.filter fun _ i => decide (i < n)
  index_eq := by
    intro name i
    rw [Std.ExtHashMap.getElem?_filter', Array.take_eq_extract, Array.getElem?_extract]
    have all := p.index_eq name
    grind

end Parameters

end BoundSql
