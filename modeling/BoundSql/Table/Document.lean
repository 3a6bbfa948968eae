import BoundSql.Json
import BoundSql.Table

/-!
# The document of a table

A table as a JSON object: schema, name, and the columns with all their settled flags.
-/

namespace BoundSql

/-- A string, or `null` where there is none. -/
def Json.ofString? : Option String → Json
  | some s => .string s
  | none => .null

/-- A column with all that is settled about it. -/
def Column.toJson (c : Column) : Json :=
  .object
    [ ("member_name", .string c.member),
      ("member_type", .string c.memberType.name),
      ("column_name", .string c.name),
      ("order", .int c.order),
      ("ambient", Json.ofString? c.ambient),
      ("primary_key", .bool c.primaryKey),
      ("nullable", .bool c.nullable),
      ("mapped", .bool c.mapped),
      ("auto_increment", .bool c.autoIncrement) ]

/-- A table with its columns in their order; the index is not shown. -/
def Table.toJson (t : Table) : Json :=
  .object
    [ ("schema", Json.ofString? t.schema),
      ("name", .string t.name),
      ("columns", .array (t.columns.map Column.toJson)) ]

end BoundSql
