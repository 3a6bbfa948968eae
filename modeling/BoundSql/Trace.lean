import BoundSql.Error
import BoundSql.Text.Cut

/-!
# What is reported about statements

Three things are reported while a statement is built: a step that failed, a membership test that had
to be split, and the finished statement. The last report is configured by a trace, which says how
loud it is and how much of the text it shows.
-/

namespace BoundSql

inductive Level
  | error
  | warn
  | info
  | debug
  | trace
deriving DecidableEq, Repr, Inhabited

inductive Event
  /-- A step failed and was undone. -/
  | stepFailed (step : String) (error : StatementError)
  /-- A membership test of a number of values was split into chunks. -/
  | membershipSplit (member : String) (values chunks : Nat)
  /-- A statement was finished by the steps named, with a number of parameters. -/
  | statementBuilt (level : Level) (steps : List String) (parameters : Nat) (sql : String)
deriving DecidableEq, Repr

def Event.level : Event → Level
  | .stepFailed .. => .debug
  | .membershipSplit .. => .trace
  | .statementBuilt level .. => level

/-- The names of steps as a bracketed list of quoted names. -/
def Event.stepList (steps : List String) : String :=
  "[" ++ ", ".intercalate (steps.map fun name => "\"" ++ name ++ "\"") ++ "]"

/-- How a finished statement is reported. -/
structure Trace where
  level : Level := .debug
  /-- How many bytes of the text are shown, if not all. -/
  maxLength : Option Nat := some 200
deriving DecidableEq, Repr, Inhabited

/-- A text as a trace shows it: whole if it fits, else its longest prefix that fits and three
dots. -/
def Trace.excerpt (t : Trace) (sql : String) : String :=
  match t.maxLength with
  | some limit => if limit < sql.utf8ByteSize then Text.cut limit sql ++ "..." else sql
  | none => sql

end BoundSql
