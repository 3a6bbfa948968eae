import BoundSql.Error
import BoundSql.Index

/-!
# Tables and their columns

A table describes the members of a record type and the columns that they are stored in. It is built
from drafts, column by column: building refuses a member that is declared twice and an
auto-increment column that is no primary key, and settles the flags that a draft leaves open. It
also lays down an index from the members to their columns. So every table has an exact index, and
with it distinct members (`Table.distinct`), and each of its auto-increment columns is a primary
key.
-/

namespace BoundSql

/-- The type of a member, as far as statements depend on it. -/
inductive MemberType
  | bool
  | i8
  | i16
  | i32
  | i64
  | u8
  | u16
  | u32
  | u64
  | f32
  | f64
  | decimal
  | text
  | bytes
  | date
  | time
  | dateTime
  | timestamp
  | uuid
  | json
  | other
deriving DecidableEq, Repr, Inhabited

namespace MemberType

def all : List MemberType :=
  [.bool, .i8, .i16, .i32, .i64, .u8, .u16, .u32, .u64, .f32, .f64, .decimal, .text, .bytes, .date,
    .time, .dateTime, .timestamp, .uuid, .json, .other]

def name : MemberType → String
  | .bool => "Bool"
  | .i8 => "I8"
  | .i16 => "I16"
  | .i32 => "I32"
  | .i64 => "I64"
  | .u8 => "U8"
  | .u16 => "U16"
  | .u32 => "U32"
  | .u64 => "U64"
  | .f32 => "F32"
  | .f64 => "F64"
  | .decimal => "Decimal"
  | .text => "Text"
  | .bytes => "Bytes"
  | .date => "Date"
  | .time => "Time"
  | .dateTime => "DateTime"
  | .timestamp => "Timestamp"
  | .uuid => "Uuid"
  | .json => "Json"
  | .other => "Other"

def ofName? (name : String) : Option MemberType :=
  all.find? fun type => type.name == name

/-- Integers may count up by themselves. -/
def isInteger : MemberType → Bool
  | .i8 | .i16 | .i32 | .i64 | .u8 | .u16 | .u32 | .u64 => true
  | _ => false

end MemberType

/-- One member and the column that it is stored in. -/
structure Column where
  member : String
  memberType : MemberType
  name : String
  /-- The declared order, carried along only: statements follow the order of declaration. -/
  order : Int
  /-- SQL text that stands for the value in ambient mode. -/
  ambient : Option String
  primaryKey : Bool
  nullable : Bool
  /-- Whether the member takes part in statements at all. -/
  mapped : Bool
  autoIncrement : Bool
deriving DecidableEq, Repr, Inhabited

/-- A column before its table is built; what is `none` is settled then. -/
structure ColumnDraft where
  member : String
  memberType : MemberType
  name : Option String := none
  order : Option Int := none
  ambient : Option String := none
  primaryKey : Bool := false
  nullable : Bool := false
  mapped : Bool := true
  autoIncrement : Option Bool := none
deriving DecidableEq, Repr, Inhabited

structure TableDraft where
  name : String
  schema : Option String := none
  columns : List ColumnDraft := []
deriving DecidableEq, Repr, Inhabited

/-- A table: its columns in the order of declaration. -/
structure Table where
  name : String
  schema : Option String
  columns : List Column
  /-- The position of each member's column. -/
  index : Index
  /-- A member's position is where its column stands. -/
  index_eq : ∀ (member : String) (i : Nat),
    index[member]? = some i ↔ columns[i]?.map Column.member = some member
  /-- Only a primary key counts up by itself. -/
  key_of_auto : ∀ c ∈ columns, c.autoIncrement = true → c.primaryKey = true

/-! ## Building -/

namespace ColumnDraft

/-- The finished column. A column without a flag of its own counts up by itself when it is the
table's only primary key and an integer. -/
def resolve (composite : Bool) (c : ColumnDraft) : Column where
  member := c.member
  memberType := c.memberType
  name := c.name.getD c.member
  order := c.order.getD (-1)
  ambient := c.ambient
  primaryKey := c.primaryKey
  nullable := c.nullable
  mapped := c.mapped
  autoIncrement := c.autoIncrement.getD (c.primaryKey && !composite && c.memberType.isInteger)

/-- The draft asks for a column that counts up without being a key. -/
def Misplaced (c : ColumnDraft) : Prop :=
  c.autoIncrement = some true ∧ c.primaryKey = false
deriving Decidable

theorem primaryKey_of_resolve {composite : Bool} {c : ColumnDraft} (rule : ¬c.Misplaced)
    (auto : (c.resolve composite).autoIncrement = true) :
    (c.resolve composite).primaryKey = true := by
  show c.primaryKey = true
  unfold Misplaced at rule
  have auto' : c.autoIncrement.getD (c.primaryKey && !composite && c.memberType.isInteger) = true :=
    auto
  cases flag : c.autoIncrement <;> cases key : c.primaryKey <;> simp_all

end ColumnDraft

namespace Table

/-- The table without columns. -/
def empty (name : String) (schema : Option String) : Table where
  name
  schema
  columns := []
  index := ∅
  index_eq := by simp
  key_of_auto := List.forall_mem_nil _

/-- One more column, behind the others. -/
def push (t : Table) (c : Column) (fresh : t.index[c.member]? = none)
    (keyed : c.autoIncrement = true → c.primaryKey = true) : Table where
  name := t.name
  schema := t.schema
  columns := t.columns ++ [c]
  index := t.index.insert c.member t.columns.length
  index_eq := by
    intro member i
    rw [Index.exact_insert t.index_eq fresh (by simp) member i]
    grind
  key_of_auto := by
    intro c' mem
    rcases List.mem_append.1 mem with old | new
    · exact t.key_of_auto c' old
    · rw [List.mem_singleton.1 new]
      exact keyed

/-- Add the column of a draft, unless something is wrong with it. A repeated member goes before a
misplaced flag. -/
def add (t : Table) (composite : Bool) (c : ColumnDraft) : Except StatementError Table :=
  match fresh : t.index[c.member]? with
  | some _ => .error (.mapping c.member ("declared twice on table '" ++ t.name ++ "'"))
  | none =>
    if rule : c.Misplaced then
      .error (.mapping c.member "auto-increment column must be a primary key")
    else .ok (t.push (c.resolve composite) fresh (ColumnDraft.primaryKey_of_resolve rule))

/-- Add the columns of drafts in order, up to the first that something is wrong with. -/
def addAll (t : Table) (composite : Bool) : List ColumnDraft → Except StatementError Table
  | [] => .ok t
  | c :: rest =>
    match t.add composite c with
    | .error e => .error e
    | .ok t => t.addAll composite rest

end Table

namespace TableDraft

def composite (d : TableDraft) : Bool :=
  2 ≤ d.columns.countP (·.primaryKey)

/-- The finished table, or the first fault of its columns. -/
def build (d : TableDraft) : Except StatementError Table :=
  (Table.empty d.name d.schema).addAll d.composite d.columns

end TableDraft

/-! ## Looking at a table -/

namespace Table

/-- The column of a member, mapped or not. -/
def column? (t : Table) (member : String) : Option Column :=
  t.index[member]?.bind fun i => t.columns[i]?

/-- What is wrong with a member that the table does not describe. -/
def unknownMember (t : Table) (member : String) : StatementError :=
  .mapping member ("no such member on table '" ++ t.name ++ "'")

/-- The column of a member that has to take part in a statement. -/
def mappedColumn (t : Table) (member : String) : Except StatementError Column :=
  match t.column? member with
  | some c =>
    if c.mapped then .ok c else .error (.mapping member "member is not mapped to a column")
  | none => .error (t.unknownMember member)

/-- The columns that take part in statements. -/
def mappedColumns (t : Table) : List Column :=
  t.columns.filter (·.mapped)

def primaryKey (t : Table) : List Column :=
  t.columns.filter (·.primaryKey)

/-- The mapped columns among some members, or all without a choice, in the order of declaration.
Every member has to be known, and some column has to remain; `statement` is named when none does. -/
def targetColumns (t : Table) (members : Option (List String)) (statement : String) :
    Except StatementError (List Column) :=
  let chosen : Except StatementError (List Column) :=
    match members with
    | none => .ok t.mappedColumns
    | some names =>
      match names.find? fun name => (t.column? name).isNone with
      | some unknown => .error (t.unknownMember unknown)
      | none => .ok (t.mappedColumns.filter fun c => names.contains c.member)
  match chosen with
  | .error e => .error e
  | .ok [] => .error (.validation (statement ++ " on '" ++ t.name ++ "' has no columns"))
  | .ok columns => .ok columns

end Table

end BoundSql
