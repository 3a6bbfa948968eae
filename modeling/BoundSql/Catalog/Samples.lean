import BoundSql.Catalog

/-!
# A sample catalogue

A few record types that between them use all that a description can say: names that differ from the
members', ambient texts, composite keys, flags given and inferred, unmapped members, a blank schema,
and a description that fails.
-/

namespace BoundSql.Samples

/-- People, with names in another script and two columns that the database fills. -/
def person : TableDraft where
  name := "T_People"
  schema := some "dbo"
  columns :=
    [ { member := "id", memberType := .i32, primaryKey := true },
      { member := "last_name", memberType := .text, name := some "姓" },
      { member := "first_name", memberType := .text, name := some "名", nullable := true },
      { member := "full_name", memberType := .text, mapped := false },
      { member := "age", memberType := .i32 },
      { member := "created_at", memberType := .dateTime, ambient := some "SYSDATETIME()" },
      { member := "modified_at", memberType := .dateTime, name := some "UpdatedAt",
        ambient := some "SYSDATETIME()" } ]

/-- Tags under a key of their own. -/
def tag : TableDraft where
  name := "Tag"
  columns :=
    [ { member := "code", memberType := .text, primaryKey := true, autoIncrement := some false },
      { member := "Label", memberType := .text, order := some 2 },
      { member := "payload", memberType := .bytes } ]

/-- Order lines under a composite key. -/
def orderLine : TableDraft where
  name := "order_lines"
  columns :=
    [ { member := "order_id", memberType := .i64, primaryKey := true },
      { member := "line_no", memberType := .i32, primaryKey := true },
      { member := "type", memberType := .text } ]

/-- Nothing but a key that counts up by itself. -/
def autoOnly : TableDraft where
  name := "AutoOnly"
  columns := [ { member := "id", memberType := .u64, primaryKey := true } ]

/-- No mapped member at all. -/
def hidden : TableDraft where
  name := "Hidden"
  columns :=
    [ { member := "a", memberType := .i32, mapped := false },
      { member := "b", memberType := .i32, primaryKey := true, mapped := false } ]

/-- Events, with members of many types and a blank schema. -/
def event : TableDraft where
  name := "Event"
  schema := some "  "
  columns :=
    [ { member := "key", memberType := .uuid, primaryKey := true, autoIncrement := some true },
      { member := "day", memberType := .date },
      { member := "at", memberType := .time, nullable := true },
      { member := "stamp", memberType := .timestamp, ambient := some "now()" },
      { member := "score", memberType := .f64 },
      { member := "ok", memberType := .bool },
      { member := "doc", memberType := .json } ]

/-- A member declared twice. -/
def broken : TableDraft where
  name := "Broken"
  columns := [ { member := "X", memberType := .i32 }, { member := "X", memberType := .i32 } ]

/-- The registered entities, in the order of their names. -/
def registered : List Entity :=
  [ .ofDraft ⟨0⟩ "AutoOnly" autoOnly, .ofDraft ⟨1⟩ "Event" event, .ofDraft ⟨2⟩ "Hidden" hidden,
    .ofDraft ⟨3⟩ "OrderLine" orderLine, .ofDraft ⟨4⟩ "Person" person, .ofDraft ⟨5⟩ "Tag" tag ]

/-- The entity of a name, registered or not. -/
def entity? (name : String) : Option Entity :=
  (registered ++ [Entity.ofDraft ⟨6⟩ "Broken" broken]).find? fun e => e.typeName == name

end BoundSql.Samples
