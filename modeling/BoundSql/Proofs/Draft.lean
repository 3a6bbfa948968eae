import BoundSql.Proofs.Isolation
import BoundSql.Proofs.Outline

/-!
# Runs before a dialect is chosen

A run under many dialects is a run over a draft, a builder before a dialect is chosen. One step
makes one draft of another under all of them (`Draft.command_under`); the run follows by induction
over the commands (`Draft.performAll_under`).

So of a dialect nothing shows in a statement but the spelling of its parts, as long as the size of a
chunk is the same: `Builder.performAll_dialects`. The emptiness of the text, which separators ask
for, is the same under all dialects although the lengths differ, and so is what a failed step is
rolled back to.
-/

namespace BoundSql

/-- A builder before a dialect is chosen. -/
structure Draft where
  table : Table
  outline : Outline
  steps : List String
  trace : Option Trace

namespace Draft

/-- The builder that the draft is under a dialect. -/
def under (b : Draft) (d : Dialect) : Builder :=
  ⟨d, b.table, b.outline.under d, b.steps, b.trace⟩

def ofBuilder (b : Builder) : Draft :=
  ⟨b.table, .ofWriter b.writer, b.steps, b.trace⟩

@[simp] theorem under_ofBuilder (b : Builder) (d : Dialect) :
    (ofBuilder b).under d = { b with dialect := d } := by
  unfold under ofBuilder
  rw [Outline.under_ofWriter]

variable {ι : Type} {dialect : ι → Dialect} {size : Nat}

/-- A command does the same to a draft under all dialects. If it fails, no piece is added. -/
theorem command_under (pos : 0 < size) (sized : ∀ i, (dialect i).chunkSize = size) (b : Draft)
    (c : Command) :
    ∃ (outcome : Except StatementError Unit) (b' : Draft),
      (∀ i, (b.under (dialect i)).command c = (outcome, b'.under (dialect i))) ∧
        b.outline.Grows b'.outline ∧ (outcome ≠ .ok () → b'.outline.pieces = b.outline.pieces) := by
  have composed : Writing.Composed dialect (fun _ => True) fun i => c.write (dialect i) b.table :=
    c.write_composed pos sized fun _ _ => trivial
  obtain ⟨outcome, o, grows, run⟩ := composed.outline b.outline
  cases outcome with
  | ok =>
    exact ⟨.ok (), { b with outline := o, steps := b.steps ++ [c.name] },
      fun i => Builder.command_ok (b := b.under (dialect i)) (run i), grows,
      fun failed => absurd rfl failed⟩
  | error e =>
    let undone : Outline :=
      { b.outline with calls := o.calls, events := o.events ++ [.stepFailed c.name e] }
    exact ⟨.error e, { b with outline := undone },
      fun i => Builder.command_failed (b := b.under (dialect i)) (run i), .of_eq rfl rfl,
      fun _ => rfl⟩

/-- A run of commands does the same to a draft under all dialects: the steps end alike, each adds
the same pieces, none if it fails, and for each placeholder among them an entry of its name. So it
is behind the first `k` steps, for all `k`. -/
theorem performAll_under (pos : 0 < size) (sized : ∀ i, (dialect i).chunkSize = size) (b : Draft)
    (cs : List Command) :
    ∃ (outcomes : List (Except StatementError Unit)) (parts : List (List Piece))
      (news : List (List (String × Value))) (draft : Nat → Draft),
      (∀ i, ((b.under (dialect i)).performAll (cs.map .command)).map Prod.fst = outcomes) ∧
        List.Forall₂ (fun outcome part => outcome ≠ .ok () → part = []) outcomes parts ∧
        ∀ k,
          (∀ i, (b.under (dialect i)).after ((cs.take k).map .command) =
            (draft k).under (dialect i)) ∧
          (draft k).outline.pieces = b.outline.pieces ++ (parts.take k).flatten ∧
          (draft k).outline.entries = b.outline.entries ++ (news.take k).flatten ∧
          Piece.placeholders (parts.take k).flatten = (news.take k).flatten.map Prod.fst := by
  induction cs generalizing b with
  | nil =>
    refine ⟨[], [], [], fun _ => b, fun _ => rfl, .nil, fun k => ?_⟩
    simp only [List.take_nil]
    exact ⟨fun _ => rfl, (List.append_nil _).symm, (List.append_nil _).symm, rfl⟩
  | cons c cs ih =>
    obtain ⟨outcome, b', step, ⟨part, new, pieces, entries, named⟩, failed⟩ :=
      command_under pos sized b c
    obtain ⟨outcomes, parts, news, draft, ended, added, behind⟩ := ih b'
    refine ⟨outcome :: outcomes, part :: parts, new :: news, fun k => k.casesOn b draft,
      fun i => ?_, .cons (fun failure => ?_) added, fun k => ?_⟩
    · rw [List.map_cons, Builder.performAll_command, step i, List.map_cons,
        ended i]
    · have same : b.outline.pieces ++ part = b.outline.pieces ++ [] := by
        rw [← pieces, failed failure, List.append_nil]
      exact List.append_cancel_left same
    · cases k with
      | zero => exact ⟨fun _ => rfl, (List.append_nil _).symm, (List.append_nil _).symm, rfl⟩
      | succ k =>
        obtain ⟨after_eq, pieces', entries', named'⟩ := behind k
        simp only [List.take_succ_cons, List.flatten_cons]
        refine ⟨fun i => ?_, ?_, ?_, ?_⟩
        · rw [List.map_cons, Builder.after_command, step i, after_eq i]
        · rw [pieces', pieces, List.append_assoc]
        · rw [entries', entries, List.append_assoc]
        · rw [Piece.placeholders_append, named, named', List.map_append]

end Draft

/-- A dialect decides how the parts of a statement are spelled, and nothing else but the size of a
chunk. Of any commands, run one after the other past their failures, each ends under all dialects
with one size of a chunk with the same success or the same error. Behind any number of steps the
names of steps and the parameters are the same, and the text is one sequence of pieces, spelled by
the dialect: text as it stands, identifiers, the names of tables, and the names of placeholders. -/
theorem Builder.performAll_dialects (b : Builder) (cs : List Command) :
    ∃ parts : List (List Piece), ∀ d : Dialect, d.chunkSize = b.dialect.chunkSize →
      (Builder.performAll { b with dialect := d } (cs.map .command)).map Prod.fst =
          (b.performAll (cs.map .command)).map Prod.fst ∧
        ∀ k,
          let spelled := Builder.after { b with dialect := d } ((cs.take k).map .command)
          spelled.steps = (b.after ((cs.take k).map .command)).steps ∧
            spelled.writer.parameters =
              (b.after ((cs.take k).map .command)).writer.parameters ∧
            spelled.writer.text =
              b.writer.text ++ Piece.renderAll d (parts.take k).flatten := by
  let dialect : { d : Dialect // d.chunkSize = b.dialect.chunkSize } → Dialect := Subtype.val
  have sized : ∀ i, (dialect i).chunkSize = b.dialect.chunkSize := Subtype.property
  obtain ⟨outcomes, parts, news, draft, ended, -, behind⟩ :=
    Draft.performAll_under b.dialect.chunkSize_pos sized (.ofBuilder b) cs
  simp only [Draft.under_ofBuilder] at ended behind
  refine ⟨parts, fun d same => ⟨?_, fun k => ?_⟩⟩
  · exact (ended ⟨d, same⟩).trans (ended ⟨b.dialect, rfl⟩).symm
  · obtain ⟨after_eq, pieces, -, -⟩ := behind k
    have there : Builder.after { b with dialect := d } _ = _ := after_eq ⟨d, same⟩
    have here : b.after _ = _ := after_eq ⟨b.dialect, rfl⟩
    rw [there, here]
    refine ⟨rfl, rfl, ?_⟩
    show Piece.renderAll d (draft k).outline.pieces = _
    rw [pieces, Piece.renderAll_append]
    exact congrArg (· ++ _) (Piece.renderAll_singleton d _)

end BoundSql
