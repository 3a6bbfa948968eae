import BoundSql.Calendar
import BoundSql.Json
import BoundSql.Uuid

/-!
# Values

The values that a statement can bind. `null` is the missing value; a JSON document that is `null` is
a document and not the missing value. A list is what one `in` test binds.
-/

namespace BoundSql

/-- A value of a column, or of a test against one. -/
inductive Value
  | null
  | bool (b : Bool)
  | int (n : Int64)
  | uint (n : UInt64)
  | float (x : Binary64)
  | text (s : String)
  | bytes (content : List UInt8)
  | date (d : Date)
  | time (t : TimeOfDay)
  | dateTime (t : DateTime)
  | timestamp (t : DateTime)
  | uuid (u : Uuid)
  | json (doc : Json)
  | list (items : List Value)
deriving Inhabited

namespace Value

/-- The name of a value's kind, as messages give it. -/
def kind : Value → String
  | .null => "null"
  | .bool _ => "bool"
  | .int _ => "int"
  | .uint _ => "uint"
  | .float _ => "float"
  | .text _ => "text"
  | .bytes _ => "bytes"
  | .date _ => "date"
  | .time _ => "time"
  | .dateTime _ => "datetime"
  | .timestamp _ => "timestamp"
  | .uuid _ => "uuid"
  | .json _ => "json"
  | .list _ => "list"

def isNull : Value → Bool
  | .null => true
  | _ => false

/-- The elements of a list. -/
def elements? : Value → Option (List Value)
  | .list items => some items
  | _ => none

/-! ## Equality -/

mutual

/-- Equality of values. Values of different kinds are never equal; floating-point numbers compare
as numbers, so a not-a-number equals nothing. -/
def equals : Value → Value → Bool
  | .null, .null => true
  | .bool a, .bool b => a == b
  | .int a, .int b => a == b
  | .uint a, .uint b => a == b
  | .float a, .float b => a.equals b
  | .text a, .text b => a == b
  | .bytes a, .bytes b => a == b
  | .date a, .date b => a == b
  | .time a, .time b => a == b
  | .dateTime a, .dateTime b => a == b
  | .timestamp a, .timestamp b => a == b
  | .uuid a, .uuid b => a == b
  | .json a, .json b => a.equals b
  | .list a, .list b => elementsEqual a b
  | _, _ => false

def elementsEqual : List Value → List Value → Bool
  | [], [] => true
  | a :: as, b :: bs => a.equals b && elementsEqual as bs
  | _, _ => false

end

/-! ## Documents -/

mutual

/-- The document that shows a value. Dates, times and identifiers are strings, bytes an array of
numbers; a floating-point number without a finite value is shown as `null`. -/
def toJson : Value → Json
  | .null => .null
  | .bool b => .bool b
  | .int n => .int n.toInt
  | .uint n => .int n.toNat
  | .float x => .float x
  | .text s => .string s
  | .bytes content => .array (content.map fun b => .int b.toNat)
  | .date d => .string d.text
  | .time t => .string t.text
  | .dateTime t => .string t.text
  | .timestamp t => .string t.utcText
  | .uuid u => .string u.text
  | .json doc => doc
  | .list items => .array (elementsToJson items)

def elementsToJson : List Value → List Json
  | [] => []
  | item :: rest => item.toJson :: elementsToJson rest

end

end Value

end BoundSql
