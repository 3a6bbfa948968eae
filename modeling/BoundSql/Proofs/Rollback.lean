import BoundSql.Builder

/-!
# What a step leaves behind

A step that succeeds leaves what its computation has written, and the name of the step. One that
fails is undone, if it can be. Every built-in step extends the statement, so each comes to an end
(`Builder.step?_command`), and each that fails leaves text, parameters and names of steps as they
were (`Builder.command_error`).
-/

namespace BoundSql.Builder

variable {b b' : Builder} {name : String} {body : Writing Unit} {c : Command} {w : Writer}
  {e : StatementError}

/-! ## Any step -/

/-- A step whose body succeeds is recorded. -/
theorem step?_of_ok (run : b.writer.exec body = (.ok (), w)) :
    b.step? name body = some (.ok (), { b with writer := w, steps := b.steps ++ [name] }) := by
  rw [step?, run]

/-- A step whose body fails is undone, if it can be, and reported. -/
theorem step?_of_error (run : b.writer.exec body = (.error e, w)) :
    b.step? name body = (w.rollback? b.writer.mark).map fun undone =>
      (.error e,
        { b with writer := { undone with events := undone.events ++ [.stepFailed name e] } }) := by
  rw [step?, run]
  dsimp only
  cases w.rollback? b.writer.mark <;> rfl

/-- What a step that succeeded has done. -/
theorem eq_of_step?_ok (h : b.step? name body = some (.ok (), b')) :
    ∃ w, b.writer.exec body = (.ok (), w) ∧
      b' = { b with writer := w, steps := b.steps ++ [name] } := by
  rcases run : b.writer.exec body with ⟨e | ⟨⟩, w⟩
  · obtain ⟨_, -, same⟩ := Option.map_eq_some_iff.1 ((step?_of_error run).symm.trans h)
    cases same
  · rw [step?_of_ok run] at h
    cases h
    exact ⟨w, rfl, rfl⟩

/-- What is left of a step that failed: its computation failed, and the statement was rolled back to
where it stood. -/
theorem eq_of_step?_error (h : b.step? name body = some (.error e, b')) :
    ∃ w undone, b.writer.exec body = (.error e, w) ∧
      w.rollback? b.writer.mark = some undone ∧
      b' = { b with
        writer := { undone with events := undone.events ++ [.stepFailed name e] } } := by
  rcases run : b.writer.exec body with ⟨e' | ⟨⟩, w⟩
  · obtain ⟨undone, back, same⟩ := Option.map_eq_some_iff.1 ((step?_of_error run).symm.trans h)
    cases same
    exact ⟨w, undone, rfl, back, rfl⟩
  · rw [step?_of_ok run] at h
    cases h

/-- A step does not come to an end if it fails and has left a text in which the old length splits a
character. -/
theorem step?_eq_none_iff : b.step? name body = none ↔
    ∃ e w, b.writer.exec body = (.error e, w) ∧
      Text.Inside w.text b.writer.text.utf8ByteSize := by
  rcases run : b.writer.exec body with ⟨e | ⟨⟩, w⟩
  · rw [step?_of_error run, Option.map_eq_none_iff, Writer.rollback?_eq_none_iff]
    constructor
    · exact fun inside => ⟨e, w, rfl, inside⟩
    · rintro ⟨_, _, ⟨⟩, inside⟩
      exact inside
  · rw [step?_of_ok run]
    exact iff_of_false nofun nofun

/-! ## Commands -/

/-- A command never breaks off: what it has written when it fails can be undone. -/
theorem step?_command (b : Builder) (c : Command) :
    b.step? c.name (c.write b.dialect b.table) = some (b.command c) :=
  (Option.some_get _).symm

theorem command_ok (run : b.writer.exec (c.write b.dialect b.table) = (.ok (), w)) :
    b.command c = (.ok (), { b with writer := w, steps := b.steps ++ [c.name] }) :=
  Option.some.inj ((b.step?_command c).symm.trans (step?_of_ok run))

/-- A built-in step that fails is undone, but for what it asked, and is reported. -/
theorem command_failed (run : b.writer.exec (c.write b.dialect b.table) = (.error e, w)) :
    b.command c = (.error e, { b with
      writer :=
        { b.writer with calls := w.calls, events := w.events ++ [.stepFailed c.name e] } }) := by
  have grown : b.writer.Extends w := (c.write_ensures b.dialect b.table).of_exec run
  have step := (b.step?_command c).symm.trans (step?_of_error run)
  rw [grown.rollback?] at step
  exact Option.some.inj step

/-- What a command that succeeds leaves. -/
theorem eq_of_command_ok (h : b.command c = (.ok (), b')) :
    ∃ w, b.writer.exec (c.write b.dialect b.table) = (.ok (), w) ∧
      b' = { b with writer := w, steps := b.steps ++ [c.name] } :=
  eq_of_step?_ok ((b.step?_command c).trans (congrArg some h))

/-- What a command that fails leaves: the builder before it, and a report. -/
theorem eq_of_command_error (h : b.command c = (.error e, b')) :
    ∃ w, b.writer.exec (c.write b.dialect b.table) = (.error e, w) ∧ b' = { b with
      writer :=
        { b.writer with calls := w.calls, events := w.events ++ [.stepFailed c.name e] } } := by
  obtain ⟨w, -, run, -⟩ := eq_of_step?_error ((b.step?_command c).trans (congrArg some h))
  rw [command_failed run] at h
  cases h
  exact ⟨w, run, rfl⟩

theorem command_dialect (b : Builder) (c : Command) : (b.command c).2.dialect = b.dialect := by
  rcases run : b.writer.exec (c.write b.dialect b.table) with ⟨e | ⟨⟩, w⟩
  · rw [command_failed run]
  · rw [command_ok run]

theorem command_table (b : Builder) (c : Command) : (b.command c).2.table = b.table := by
  rcases run : b.writer.exec (c.write b.dialect b.table) with ⟨e | ⟨⟩, w⟩
  · rw [command_failed run]
  · rw [command_ok run]

/-- A built-in step that fails leaves the statement as it was. -/
theorem command_error (h : b.command c = (.error e, b')) :
    b'.writer.text = b.writer.text ∧ b'.writer.parameters = b.writer.parameters ∧
      b'.steps = b.steps := by
  obtain ⟨w, -, rfl⟩ := eq_of_command_error h
  exact ⟨rfl, rfl, rfl⟩

end BoundSql.Builder
