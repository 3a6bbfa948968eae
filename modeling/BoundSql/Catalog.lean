import BoundSql.Table

/-!
# A catalogue of tables

An entity is a record type that can describe its table. A catalogue asks for the description at the
first lookup and keeps the first success for good; a failure is not kept, so the next lookup asks
again. What a description answers may depend on how often it was asked before. A lookup answers the
table and the slot that keeps it, so that two answers can be told to be the same stored table.
-/

namespace BoundSql

/-- The identity of a type. It stands for nothing but itself: types with one name may be two. -/
structure TypeId where
  number : Nat
deriving DecidableEq, Repr, Inhabited

structure Entity where
  id : TypeId
  /-- The name as it is printed. -/
  typeName : String
  /-- The description, given the number of times that it was asked before. -/
  describe : Nat → Except StatementError Table

/-- An entity whose description is always the same. -/
def Entity.ofDraft (id : TypeId) (typeName : String) (draft : TableDraft) : Entity :=
  ⟨id, typeName, fun _ => draft.build⟩

/-- The place of one type in a catalogue. It is empty until a description succeeds. -/
structure Slot where
  id : TypeId
  table : Option Table := none

/-- The slots so far, and the descriptions asked for so far by type. -/
structure Catalog where
  slots : List Slot := []
  asked : List TypeId := []

/-- A table, and where it is kept. -/
structure Kept where
  slot : Nat
  table : Table

namespace Catalog

/-- The position of a type's slot, if there is one. -/
def slot? (c : Catalog) (id : TypeId) : Option Nat :=
  c.slots.findIdx? fun slot => slot.id == id

/-- The position of a type's slot, which is laid out empty if there is none. -/
def slot (c : Catalog) (id : TypeId) : Nat × Catalog :=
  match c.slot? id with
  | some i => (i, c)
  | none => (c.slots.length, { c with slots := c.slots ++ [{ id }] })

/-- The table kept in a slot, if there is one. -/
def keptAt? (c : Catalog) (i : Nat) : Option Kept :=
  c.slots[i]?.bind fun slot => slot.table.map fun table => ⟨i, table⟩

/-- The table kept for a type, if there is one. -/
def kept? (c : Catalog) (id : TypeId) : Option Kept :=
  (c.slot? id).bind c.keptAt?

/-- Keep a table in the slot of its type. -/
def keep (c : Catalog) (i : Nat) (id : TypeId) (table : Table) : Catalog :=
  { c with slots := c.slots.set i ⟨id, some table⟩ }

/-- An entity's table, described at need. -/
def lookup (c : Catalog) (e : Entity) : Except StatementError Kept × Catalog :=
  let (i, c) := c.slot e.id
  match c.keptAt? i with
  | some kept => (.ok kept, c)
  | none =>
    let called : Catalog := { c with asked := c.asked ++ [e.id] }
    match e.describe (c.asked.count e.id) with
    | .ok table => (.ok ⟨i, table⟩, called.keep i e.id table)
    | .error reason => (.error reason, called)

/-- Look up every entity of a list, up to the first that fails, and answer how many there are. -/
def preload (c : Catalog) : List Entity → Except StatementError Nat × Catalog
  | [] => (.ok 0, c)
  | e :: rest =>
    match c.lookup e with
    | (.ok _, c) =>
      match c.preload rest with
      | (.ok n, c) => (.ok (n + 1), c)
      | (.error reason, c) => (.error reason, c)
    | (.error reason, c) => (.error reason, c)

end Catalog

end BoundSql
