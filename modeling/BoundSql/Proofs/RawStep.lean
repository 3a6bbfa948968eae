import BoundSql.Proofs.Rollback

/-!
# Steps written by hand

A caller's own step is made of single acts of writing, and a failure of one may be passed over. None
of the acts takes a parameter away, so a step by hand that fails and comes to an end leaves the
parameters and the names of steps as they were. The text is another matter: a trim may reach behind
the place where the step began, and a rollback only knows the length of what stood there.

`Builder.raw_writeAll_error` says what becomes of a step whose acts fail. It panics exactly if the
old length splits a character of what the acts left. Otherwise what they left is cut back to this
length, so that the text is back exactly when the old text still stands in front. That is so
whenever no trim takes more bytes than the step has written (`Act.Spares`), and
`Builder.raw_trim_not_restored` is a step that fails it.
-/

namespace BoundSql

namespace Writer

theorem exec_tryCatch {α : Type} (w : Writer) (x : Writing α)
    (handle : StatementError → Writing α) :
    w.exec (tryCatch x handle) =
      match w.exec x with
      | (.ok a, v) => (.ok a, v)
      | (.error e, v) => v.exec (handle e) := by
  unfold exec
  rw [ExceptT.run_tryCatch, StateT.run_bind]
  cases x.run.run w with
  | mk r v => cases r <;> rfl

end Writer

open Writing (Ensures)

/-! ## Acts -/

namespace Operation

variable (d : Dialect) (t : Table)

/-- How many bytes an operation takes away from the end of the text. -/
def reach : Operation → Nat
  | .trim n => n
  | _ => 0

/-- But for trimming, an operation keeps every relation of progress. -/
theorem write_ensures {G : Writer → Writer → Prop} [Writer.Progress G] (op : Operation)
    (trim : ∀ n, op = .trim n → Ensures G (Writing.trim n)) : Ensures G (op.write d t) := by
  cases op with
  | text s => exact .text s
  | newline => exact .text _
  | trim n => exact trim n rfl
  | identifier name => exact .identifier d name
  | tableName => exact .tableName d t
  | listLimit => exact .text _
  | bind name value => exact .bindName d name value
  | bindNext value => exact .bindNext d value
  | compile predicate => exact predicate.compile_ensures d t
  | fail error => exact .throw error

theorem write_bindsOn (op : Operation) : Ensures Writer.BindsOn (op.write d t) :=
  write_ensures d t op fun _ _ _ => .of_eq rfl

/-- A text stays in front as long as no operation reaches into it. -/
theorem write_keeps_front (op : Operation) {w : Writer} {front : String}
    (stands : ∃ s, w.text = front ++ s)
    (room : front.utf8ByteSize + op.reach ≤ w.text.utf8ByteSize) :
    ∃ s, (w.exec (op.write d t)).2.text = front ++ s := by
  obtain ⟨s, hs⟩ := stands
  by_cases h : ∃ n, op = .trim n
  · obtain ⟨n, rfl⟩ := h
    rw [reach] at room
    rw [write, Writer.exec_trim]
    exact (Text.dropLastBytes_longest n w.text).longest front s hs (by omega)
  · obtain ⟨s', hs'⟩ := (write_ensures (G := Writer.Extends) d t op
      (fun n trims => absurd ⟨n, trims⟩ h) w).text
    exact ⟨s ++ s', by rw [hs', hs, String.append_assoc]⟩

end Operation

/-- An act of a step written by hand: an operation, and whether a failure of it is passed over. -/
structure Act where
  operation : Operation
  lenient : Bool := false

namespace Act

variable (d : Dialect) (t : Table)

/-- Carry out one act. -/
def write (act : Act) : Writing Unit :=
  if act.lenient then tryCatch (act.operation.write d t) fun _ => pure ()
  else act.operation.write d t

/-- Carry out acts in order, up to the first failure that is not passed over. -/
def writeAll : List Act → Writing Unit
  | [] => pure ()
  | act :: rest => do
    act.write d t
    writeAll rest

/-- Operations of which none is passed over are the ones of `Operation.writeAll`. -/
theorem writeAll_strict (ops : List Operation) :
    writeAll d t (ops.map fun op => ⟨op, false⟩) = Operation.writeAll d t ops := by
  induction ops with
  | nil => rfl
  | cons op ops ih =>
    rw [List.map_cons, writeAll, ih, Operation.writeAll]
    rfl

/-- Passing over a failure changes the outcome only. -/
theorem exec_write_snd (act : Act) (w : Writer) :
    (w.exec (act.write d t)).2 = (w.exec (act.operation.write d t)).2 := by
  unfold write
  split
  · rw [Writer.exec_tryCatch]
    rcases w.exec (act.operation.write d t) with ⟨_ | _, v⟩ <;> rfl
  · rfl

theorem writeAll_bindsOn (acts : List Act) : Ensures Writer.BindsOn (writeAll d t acts) := by
  induction acts with
  | nil => exact .pure ()
  | cons act rest ih =>
    refine .bind (fun w => ?_) fun _ => ih
    rw [exec_write_snd]
    exact act.operation.write_bindsOn d t w

/-- From a statement `w` on, no act takes away more bytes than stand behind the first `base`. -/
def Spares (base : Nat) : Writer → List Act → Prop
  | _, [] => True
  | w, act :: rest =>
    base + act.operation.reach ≤ w.text.utf8ByteSize ∧
      ((w.exec (act.write d t)).1 = .ok () → Spares base (w.exec (act.write d t)).2 rest)

/-- What stands in front of all that acts take away is still in front when they stop. -/
theorem writeAll_keeps_front {acts : List Act} {w : Writer} {front : String}
    (stands : ∃ s, w.text = front ++ s) (spares : Spares d t front.utf8ByteSize w acts) :
    ∃ s, (w.exec (writeAll d t acts)).2.text = front ++ s := by
  induction acts generalizing w with
  | nil => exact stands
  | cons act rest ih =>
    obtain ⟨room, later⟩ := spares
    have first := act.operation.write_keeps_front d t stands room
    rw [← exec_write_snd] at first
    rw [writeAll, Writer.exec_bind]
    rcases hexec : w.exec (act.write d t) with ⟨e | ⟨⟩, v⟩
    · rw [hexec] at first
      exact first
    · rw [hexec] at first later
      exact ih first (later rfl)

end Act

/-! ## A failing step by hand -/

namespace Builder

/-- What becomes of a step by hand whose acts fail. It has no outcome exactly if the old length
splits a character of the text that the acts left. Otherwise the outcome is their error, the text
they left is cut back to the old length, and the parameters and the names of steps are as they were.
So the text is as it was exactly when the old text still stood in front of what the acts left. There
is an outcome with the old text whenever no trim reaches behind the place where the step began.

All this holds in particular of the steps that a caller can ask for, which pass over no failure. -/
theorem raw_writeAll_error (b : Builder) (acts : List Act) (e : StatementError) (left : Writer)
    (failed : b.writer.exec (Act.writeAll b.dialect b.table acts) = (.error e, left)) :
    let result := b.raw? (Act.writeAll b.dialect b.table acts)
    (result = none ↔ Text.Inside left.text b.writer.text.utf8ByteSize) ∧
    (∀ outcome b', result = some (outcome, b') →
      outcome = .error e ∧
      Text.truncate? b.writer.text.utf8ByteSize left.text = some b'.writer.text ∧
      b'.writer.parameters = b.writer.parameters ∧ b'.steps = b.steps ∧
      (b'.writer.text = b.writer.text ↔ ∃ s, left.text = b.writer.text ++ s)) ∧
    (Act.Spares b.dialect b.table b.writer.text.utf8ByteSize b.writer acts →
      ∃ b', result = some (.error e, b') ∧ b'.writer.text = b.writer.text) ∧
    ∀ ops, acts = ops.map (⟨·, false⟩) → b.perform? (.raw ops) = result := by
  intro result
  have undone : result = (left.rollback? b.writer.mark).map _ := step?_of_error failed
  have bound : b.writer.BindsOn left :=
    (Act.writeAll_bindsOn b.dialect b.table acts).of_exec failed
  refine ⟨?_, fun outcome b' returned => ?_, fun spares => ?_, ?_⟩
  · rw [undone, Option.map_eq_none_iff, Writer.rollback?_eq_none_iff]
  · rw [undone] at returned
    obtain ⟨w, back, same⟩ := Option.map_eq_some_iff.1 returned
    have cut := Writer.truncate?_of_rollback? back
    have parameters := Writer.rollback?_parameters bound back
    have text := Writer.rollback?_text_eq_iff back
    cases same
    exact ⟨rfl, cut, parameters, rfl, text⟩
  · have kept := Act.writeAll_keeps_front b.dialect b.table
      ⟨"", String.append_empty.symm⟩ spares
    rw [failed] at kept
    have back := Writer.Extends.rollback? ⟨kept, bound⟩
    rw [undone, back]
    exact ⟨_, rfl, rfl⟩
  · rintro ops rfl
    rw [perform?, ← Act.writeAll_strict]

/-- A deletion under way. -/
def deletion : Builder :=
  ({ dialect := .sqlite, table := Account.table } : Builder).command .delete |>.2

theorem raw_writeAll_error_deletion :
    let acts : List Act :=
      [⟨.text " limit ", false⟩, ⟨.trim 2, false⟩, ⟨.fail (.validation "stop"), false⟩]
    Act.Spares deletion.dialect deletion.table deletion.writer.text.utf8ByteSize
        deletion.writer acts ∧
      ∃ after, deletion.raw? (Act.writeAll deletion.dialect deletion.table acts) =
          some (.error (.validation "stop"), after) ∧
        after.writer.text = deletion.writer.text := by
  intro acts
  have failed : deletion.writer.exec (Act.writeAll deletion.dialect deletion.table acts) =
      (.error (.validation "stop"), _) :=
    Prod.ext (by rfl) rfl
  have spares : Act.Spares deletion.dialect deletion.table deletion.writer.text.utf8ByteSize
      deletion.writer acts := by
    refine ⟨?_, fun _ => ⟨?_, fun _ => ⟨?_, fun _ => trivial⟩⟩⟩ <;> decide +kernel
  exact ⟨spares, (raw_writeAll_error deletion acts _ _ failed).2.2.1 spares⟩

/-- The text does not come back when a failing step has trimmed what stood there before it. -/
theorem raw_trim_not_restored :
    let acts : List Act := [⟨.trim 3, false⟩, ⟨.fail (.validation "stop"), false⟩]
    ∃ after, deletion.raw? (Act.writeAll deletion.dialect deletion.table acts) =
        some (.error (.validation "stop"), after) ∧
      deletion.writer.text = "delete from \"Account\"" ∧
      after.writer.text = "delete from \"Accou" := by
  intro acts
  let left := (deletion.writer.exec (Act.writeAll deletion.dialect deletion.table acts)).2
  have failed : deletion.writer.exec (Act.writeAll deletion.dialect deletion.table acts) =
      (.error (.validation "stop"), left) :=
    Prod.ext (by rfl) rfl
  have cut : (left.rollback? deletion.writer.mark).map Writer.text =
      some "delete from \"Accou" := by
    decide +kernel
  obtain ⟨undone, back, text⟩ := Option.map_eq_some_iff.1 cut
  have returned : deletion.raw? (Act.writeAll deletion.dialect deletion.table acts) = _ :=
    step?_of_error failed
  rw [back, Option.map_some] at returned
  exact ⟨_, returned, by decide +kernel, text⟩

/-- A step that puts a character of two bytes where the last one was cannot be undone. -/
example : (deletion.raw? (Act.writeAll deletion.dialect deletion.table
    [⟨.trim 1, false⟩, ⟨.text "é", false⟩, ⟨.fail (.validation "stop"), false⟩])).isNone := by
  decide +kernel

end Builder

end BoundSql
