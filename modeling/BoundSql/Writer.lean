import BoundSql.Dialect
import BoundSql.Parameters
import BoundSql.Predicate.Evaluate
import BoundSql.Table
import BoundSql.Text.Blank
import BoundSql.Trace

/-!
# Writing a statement

The text of a statement grows together with its parameters. The collection of parameters comes into
being with the first bound value, so a statement without values has none. A failing computation
leaves what it wrote before it failed; `Writer.rollback?` undoes that where the text can be cut
back. The log of the producers asked and the reports made are a record of what happened, and no
rollback touches them.
-/

namespace BoundSql

structure Writer where
  text : String := ""
  /-- What is bound so far, once something is. -/
  parameters : Option (Parameters Value) := none
  calls : CallLog := []
  /-- The reports made so far, first to last. -/
  events : List Event := []

/-- A computation that writes; it keeps what it wrote when it fails. -/
abbrev Writing := ExceptT StatementError (StateM Writer)

namespace Writer

def bound (w : Writer) : Nat :=
  match w.parameters with
  | some p => p.size
  | none => 0

/-- The outcome of a computation and the statement after it. -/
def exec {α : Type} (w : Writer) (body : Writing α) : Except StatementError α × Writer :=
  (body.run).run w

structure Mark where
  /-- The length of the text in bytes. -/
  length : Nat
  /-- The number of parameters, if there was a collection. -/
  bound : Option Nat
deriving DecidableEq, Repr

def mark (w : Writer) : Mark :=
  ⟨w.text.utf8ByteSize, w.parameters.map Parameters.size⟩

/-- Cut text and parameters back to a mark. Only lengths are remembered, so text that was removed
from before the mark does not come back. There is no answer, and the program panics, where the mark
lies inside a character of what has been written over it. -/
def rollback? (w : Writer) (m : Mark) : Option Writer :=
  match Text.truncate? m.length w.text with
  | none => none
  | some text =>
    some { w with
      text
      parameters :=
        match m.bound with
        | some n => w.parameters.map fun p => p.truncate n
        | none => none }

end Writer

namespace Writing

/-! ## Text -/

def text (s : String) : Writing Unit :=
  modify fun w => { w with text := w.text ++ s }

/-- Append an identifier between the dialect's brackets. -/
def identifier (d : Dialect) (name : String) : Writing Unit :=
  text (d.identifier name)

/-- Remove `n` bytes from the end, and the rest of a character that this splits. -/
def trim (n : Nat) : Writing Unit :=
  modify fun w => { w with text := Text.dropLastBytes n w.text }

/-- Append text, but only after other text. -/
def separator (s : String) : Writing Unit :=
  modify fun w => if w.text.isEmpty then w else { w with text := w.text ++ s }

/-- Write each item of a list, with `between` after all but the last. -/
def separated {α : Type} (between : String) (write : α → Writing Unit) : List α → Writing Unit
  | [] => pure ()
  | [item] => write item
  | item :: next :: rest => do
    write item
    text between
    separated between write (next :: rest)

/-- The schema that stands in front of a table's name: the table's own unless it is blank, else the
dialect's unless it is blank. -/
def schemaOf (d : Dialect) (t : Table) : Option String :=
  let declared := t.schema.filter fun s => !Text.isBlank s
  (declared.or d.defaultSchema).filter fun s => !Text.isBlank s

/-- Append the name of a table, after its schema if there is one. -/
def tableName (d : Dialect) (t : Table) : Writing Unit := do
  match schemaOf d t with
  | some schema =>
    identifier d schema
    text "."
  | none => pure ()
  identifier d t.name

/-! ## Values -/

/-- Bind a value and append its placeholder. A name that is taken fails and writes nothing. -/
def bind (d : Dialect) (name : String) (value : Value) : Writing Unit := do
  let w ← get
  match (w.parameters.getD Parameters.empty).add name value with
  | .ok parameters =>
    set { w with parameters := some parameters, text := w.text ++ d.placeholder name }
  | .error e => throw e

/-- The name of the parameter in place `n`, counted from one. -/
def positional (n : Nat) : String :=
  "p" ++ toString n

/-- Bind a value under the next positional name. All parameters count, whatever their names. -/
def bindNext (d : Dialect) (value : Value) : Writing Unit := do
  let w ← get
  bind d (positional (w.bound + 1)) value

/-- Evaluate an operand; the producers asked are logged. -/
def asking {α : Type} (body : Asking α) : Writing α := fun w =>
  let (outcome, calls) := (body.run).run w.calls
  (outcome, { w with calls })

def report (event : Event) : Writing Unit :=
  modify fun w => { w with events := w.events ++ [event] }

/-- The value of an outcome, or its failure. -/
def ofExcept {α : Type} : Except StatementError α → Writing α
  | .ok a => pure a
  | .error e => throw e

end Writing

end BoundSql
