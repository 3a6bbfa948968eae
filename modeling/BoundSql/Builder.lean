import BoundSql.Proofs.Growth
import BoundSql.Query
import BoundSql.Writer.Operation

/-!
# Building a statement step by step

A builder runs steps over one table and one dialect. A step that fails is undone and reported; the
builder goes on from where it stood before. Undoing cuts the text and the parameters back to their
earlier lengths, which is exact for every step that only appends. All commands do, so a command
always comes to an end. A step written by hand may also trim what stood there before it and write
something else in its place, so that the earlier length splits a character. Such a step panics when
it is undone, and has no outcome.
-/

namespace BoundSql

/-- A statement under construction, with what its steps need. -/
structure Builder where
  dialect : Dialect
  table : Table
  writer : Writer := {}
  steps : List String := []
  /-- How the finished statement is reported, if at all. -/
  trace : Option Trace := some {}

namespace Builder

/-- Run a step, if it comes to an end: one that fails and cannot be undone does not. -/
def step? (b : Builder) (name : String) (body : Writing Unit) :
    Option (Except StatementError Unit × Builder) :=
  match b.writer.exec body with
  | (.ok (), w) => some (.ok (), { b with writer := w, steps := b.steps ++ [name] })
  | (.error e, w) =>
    match w.rollback? b.writer.mark with
    | some undone =>
      some (.error e,
        { b with writer := { undone with events := undone.events ++ [.stepFailed name e] } })
    | none => none

/-- A command only appends, so that it can be undone. -/
theorem isSome_step?_command (b : Builder) (c : Command) :
    (b.step? c.name (c.write b.dialect b.table)).isSome := by
  unfold step?
  split
  · rfl
  · next e w run =>
    have grown : b.writer.Extends w := (c.write_ensures b.dialect b.table).of_exec run
    rw [grown.rollback?]
    rfl

def command (b : Builder) (c : Command) : Except StatementError Unit × Builder :=
  (b.step? c.name (c.write b.dialect b.table)).get (b.isSome_step?_command c)

/-- Run a step written by hand, if it comes to an end. -/
def raw? (b : Builder) (body : Writing Unit) : Option (Except StatementError Unit × Builder) :=
  b.step? "raw" body

/-- Run commands in order, each a step of its own, up to the first that fails. -/
def commands (b : Builder) : List Command → Except StatementError Unit × Builder
  | [] => (.ok (), b)
  | c :: rest =>
    match b.command c with
    | (.ok (), b) => b.commands rest
    | (.error e, b) => (.error e, b)

/-- The commands that order by a list of keys: the first opens the block, the others continue it. -/
def orderCommands : List (String × Direction) → List Command
  | [] => []
  | (member, direction) :: rest =>
    .orderBy member direction :: rest.map fun key => .thenBy key.1 key.2

/-- Order by a list of keys. Keys in front of one that fails stay. -/
def order (b : Builder) (keys : List (String × Direction)) : Except StatementError Unit × Builder :=
  b.commands (orderCommands keys)

/-- Use a collection of parameters from here on, in place of the present one. -/
def withParameters (b : Builder) (parameters : Parameters Value) : Builder :=
  { b with writer := { b.writer with parameters := some parameters } }

/-- Report the finished statement as a trace says, or not at all. -/
def withTrace (b : Builder) (trace : Option Trace) : Builder :=
  { b with trace }

def query (b : Builder) : Query :=
  ⟨b.writer.text, b.writer.parameters⟩

def builtEvent? (b : Builder) : Option Event :=
  b.trace.map fun t => .statementBuilt t.level b.steps b.writer.bound (t.excerpt b.writer.text)

/-- Finish the statement: the query, and all reports of its making. -/
def build (b : Builder) : Query × List Event :=
  (b.query, b.writer.events ++ b.builtEvent?.toList)

/-! ## Steps as data -/

/-- What a caller may ask of a builder. -/
inductive Step
  | command (c : Command)
  | raw (operations : List Operation)
  | order (keys : List (String × Direction))
  | parameters (p : Parameters Value)
  | trace (t : Option Trace)

/-- Do what a caller asks, if that comes to an end. -/
def perform? (b : Builder) : Step → Option (Except StatementError Unit × Builder)
  | .command c => some (b.command c)
  | .raw operations => b.raw? (Operation.writeAll b.dialect b.table operations)
  | .order keys => some (b.order keys)
  | .parameters p => some (.ok (), b.withParameters p)
  | .trace t => some (.ok (), b.withTrace t)

/-- Do all that a caller asks, going on after a failure: each outcome, with the builder after it. A
panic ends the run and leaves no outcome. -/
def performAll (b : Builder) : List Step → List (Except StatementError Unit × Builder)
  | [] => []
  | s :: rest =>
    match b.perform? s with
    | some result => result :: result.2.performAll rest
    | none => []

end Builder

end BoundSql
