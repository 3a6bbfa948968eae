import BoundSql.Predicate.Compile

/-!
# Commands

The built-in steps of a statement. Each appends one fragment and knows nothing of the others: no
grammar is checked across steps. Columns are always written in the order of declaration, whatever
the order of a choice of members.
-/

namespace BoundSql

inductive Direction
  | ascending
  | descending
deriving DecidableEq, Repr, Inhabited

/-- A built-in step. `members` chooses among the mapped members, `none` takes them all; with
`ambient` a column's ambient text stands in place of a parameter. -/
inductive Command
  | count
  | select (members : Option (List String))
  | insert (members : Option (List String)) (ambient : Bool)
  | update (members : Option (List String)) (ambient : Bool)
  | delete
  | truncate
  | filter (predicate : Predicate)
  | orderBy (member : String) (direction : Direction)
  | thenBy (member : String) (direction : Direction)

namespace Command

def name : Command → String
  | .count => "count"
  | .select _ => "select"
  | .insert .. => "insert"
  | .update .. => "update"
  | .delete => "delete"
  | .truncate => "truncate"
  | .filter _ => "where"
  | .orderBy .. => "order by"
  | .thenBy .. => "then by"

/-- The columns that an insertion writes: the chosen ones that do not count up by themselves. -/
def insertColumns (t : Table) (members : Option (List String)) :
    Except StatementError (List Column) :=
  match t.targetColumns members "insert" with
  | .error e => .error e
  | .ok columns =>
    match columns.filter fun c => !c.autoIncrement with
    | [] =>
      .error (.validation ("insert on '" ++ t.name ++ "' has only auto-increment columns"))
    | rest => .ok rest

/-- Write a column's value: its ambient text in ambient mode, and else the placeholder of its
member, bound to the missing value for now. -/
def writeValue (d : Dialect) (ambient : Bool) (c : Column) : Writing Unit :=
  match ambient, c.ambient with
  | true, some literal => Writing.text literal
  | _, _ => Writing.bind d c.member .null

/-- Write one line for each column, with a comma behind each. -/
def writeTrailing (write : Column → Writing Unit) : List Column → Writing Unit
  | [] => pure ()
  | c :: rest => do
    Writing.text "\n    "
    write c
    Writing.text ","
    writeTrailing write rest

/-- Write one line for each column, and take the comma behind the last one away again. -/
def writeLines (write : Column → Writing Unit) (columns : List Column) : Writing Unit := do
  writeTrailing write columns
  Writing.trim 1

def writeKey (d : Dialect) (c : Column) (direction : Direction) : Writing Unit := do
  Writing.identifier d c.name
  match direction with
  | .ascending => pure ()
  | .descending => Writing.text " desc"

def write (d : Dialect) (t : Table) : Command → Writing Unit
  | .count => do
    Writing.text "select count(*) as "
    Writing.identifier d "Count"
    Writing.text " from "
    Writing.tableName d t
  | .select members => do
    let columns ← Writing.ofExcept (t.targetColumns members "select")
    Writing.text "select"
    writeLines
      (fun c => do
        Writing.identifier d c.name
        Writing.text " as "
        Writing.identifier d c.member)
      columns
    Writing.text "\nfrom "
    Writing.tableName d t
  | .insert members ambient => do
    let columns ← Writing.ofExcept (insertColumns t members)
    Writing.text "insert into "
    Writing.tableName d t
    Writing.text "\n("
    writeLines (fun c => Writing.identifier d c.name) columns
    Writing.text "\n)\nvalues\n("
    writeLines (writeValue d ambient) columns
    Writing.text "\n)"
  | .update members ambient => do
    let columns ← Writing.ofExcept (t.targetColumns members "update")
    Writing.text "update "
    Writing.tableName d t
    Writing.text "\nset"
    writeLines
      (fun c => do
        Writing.identifier d c.name
        Writing.text " = "
        writeValue d ambient c)
      columns
  | .delete => do
    Writing.text "delete from "
    Writing.tableName d t
  | .truncate => do
    Writing.text "truncate table "
    Writing.tableName d t
  | .filter predicate => do
    Writing.separator "\n"
    Writing.text "where\n    "
    predicate.compile d t
  | .orderBy member direction => do
    let column ← Writing.ofExcept (t.mappedColumn member)
    Writing.separator "\n"
    Writing.text "order by\n    "
    writeKey d column direction
  | .thenBy member direction => do
    let column ← Writing.ofExcept (t.mappedColumn member)
    Writing.separator ",\n"
    Writing.text "    "
    writeKey d column direction

end Command

end BoundSql
