import BoundSql.Proofs.Draft

/-!
# Placeholders and parameters

A run of commands writes a placeholder for every parameter that it binds, and binds one for every
placeholder: `Builder.performAll_placeholders`. It speaks of text and collection behind each step of
the run, and of all dialects with one size of a chunk at once, so that a placeholder is what stands
behind the prefix of the dialect. Steps that failed are part of the run; they have written nothing.
-/

namespace BoundSql

/-- Placeholders and parameters correspond one to one, over any run of commands that goes on after
failures. Each step adds pieces to the text, none if it fails, and entries to the collection, seeded
or not. Behind any number of steps, and so at the end of the run, the placeholders among the pieces
have from left to right the names of the entries, and all names are distinct. A piece is known for a
placeholder by the dialects: under each with the size of a chunk that the builder's has, the text is
the same pieces. -/
theorem Builder.performAll_placeholders (b : Builder) (cs : List Command) :
    ∃ (parts : List (List Piece)) (news : List (List (String × Value))),
      List.Forall₂ (fun result part => result.1 ≠ .ok () → part = [])
        (b.performAll (cs.map .command)) parts ∧
      ∀ k,
        (∀ d : Dialect, d.chunkSize = b.dialect.chunkSize →
          (Builder.after { b with dialect := d } ((cs.take k).map .command)).writer.text =
            b.writer.text ++ Piece.renderAll d (parts.take k).flatten) ∧
        (b.after ((cs.take k).map .command)).writer.entries =
          b.writer.entries ++ (news.take k).flatten ∧
        Piece.placeholders (parts.take k).flatten = (news.take k).flatten.map Prod.fst ∧
        (b.after ((cs.take k).map .command)).writer.names.Nodup := by
  let dialect : { d : Dialect // d.chunkSize = b.dialect.chunkSize } → Dialect := Subtype.val
  have sized : ∀ i, (dialect i).chunkSize = b.dialect.chunkSize := Subtype.property
  obtain ⟨outcomes, parts, news, draft, ended, added, behind⟩ :=
    Draft.performAll_under b.dialect.chunkSize_pos sized (.ofBuilder b) cs
  simp only [Draft.under_ofBuilder] at ended behind
  refine ⟨parts, news, ?_, fun k => ?_⟩
  · rw [← ended ⟨b.dialect, rfl⟩] at added
    exact List.forall₂_map_left_iff.1 added
  · obtain ⟨after_eq, pieces, entries, named⟩ := behind k
    refine ⟨fun d same => ?_, ?_, named, Writer.names_nodup _⟩
    · rw [show Builder.after { b with dialect := d } _ = _ from after_eq ⟨d, same⟩]
      show Piece.renderAll d (draft k).outline.pieces = _
      rw [pieces, Piece.renderAll_append]
      exact congrArg (· ++ _) (Piece.renderAll_singleton d _)
    · rw [show b.after _ = _ from after_eq ⟨b.dialect, rfl⟩]
      exact entries

end BoundSql
