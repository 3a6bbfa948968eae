import BoundSql.Proofs.Draft

/-!
# Collections installed on the way

A collection may be installed at any point of a run, and takes the place of the one that is there.
What this does to the placeholders is `Builder.after_reseeded`: those that are written from then on
have an entry at the end, and those written before have one only if the installed collection has an
entry of the name, or the name is bound again later. `Builder.reseeding_orphans` is a placeholder
that is left without.

The run is again one over a draft, under all dialects at once. An installation adds no piece, so the
pieces go on through the whole run, while the entries start anew.
-/

namespace BoundSql

/-- The query has an entry of the name among its parameters. -/
def Query.Binds (q : Query) (name : String) : Prop :=
  ∃ collection, q.parameters = some collection ∧ name ∈ collection.names

theorem Builder.binds_iff {b : Builder} {name : String} :
    b.query.Binds name ↔ name ∈ b.writer.names := by
  unfold Query.Binds query Writer.names Writer.entries
  cases b.writer.parameters with
  | none =>
    refine iff_of_false ?_ List.not_mem_nil
    rintro ⟨_, none, -⟩
    cases none
  | some collection =>
    constructor
    · rintro ⟨_, same, mem⟩
      cases same
      exact mem
    · exact fun mem => ⟨collection, rfl, mem⟩

namespace Builder

namespace Step

/-- Whether the caller writes the text of the step. -/
def isRaw : Step → Bool
  | .raw _ => true
  | _ => false

/-- Whether the step puts a collection in place of the present one. -/
def installs : Step → Bool
  | .parameters _ => true
  | _ => false

end Step

theorem exists_perform? (b : Builder) {s : Step} (plain : s.isRaw = false) :
    ∃ result, b.perform? s = some result := by
  cases s with
  | raw operations => cases plain
  | _ => exact ⟨_, rfl⟩

/-- Steps that always come to an end may be done in two runs. -/
theorem after_append (b : Builder) {before : List Step} (plain : ∀ s ∈ before, s.isRaw = false)
    (later : List Step) : b.after (before ++ later) = (b.after before).after later := by
  induction before generalizing b with
  | nil => rfl
  | cons s rest ih =>
    obtain ⟨first, rest_plain⟩ := List.forall_mem_cons.1 plain
    obtain ⟨result, performed⟩ := b.exists_perform? first
    rw [List.cons_append, after_of_perform? performed, after_of_perform? performed,
      ih _ rest_plain]

end Builder

namespace Draft

variable {ι : Type} {dialect : ι → Dialect} {size : Nat}

/-- Commands in a row do the same to a draft under all dialects. -/
theorem commands_under (pos : 0 < size) (sized : ∀ i, (dialect i).chunkSize = size) (b : Draft)
    (cs : List Command) :
    ∃ (outcome : Except StatementError Unit) (b' : Draft),
      (∀ i, (b.under (dialect i)).commands cs = (outcome, b'.under (dialect i))) ∧
        b.outline.Grows b'.outline := by
  induction cs generalizing b with
  | nil => exact ⟨.ok (), b, fun _ => rfl, .of_eq rfl rfl⟩
  | cons c cs ih =>
    obtain ⟨outcome, mid, first, grows, -⟩ := command_under pos sized b c
    cases outcome with
    | ok =>
      obtain ⟨outcome', b', later, grows'⟩ := ih mid
      refine ⟨outcome', b', fun i => ?_, grows.trans grows'⟩
      rw [Builder.commands, first i]
      exact later i
    | error e =>
      refine ⟨.error e, mid, fun i => ?_, grows⟩
      rw [Builder.commands, first i]

/-- Whatever is asked of a builder, but for what the caller writes, is the same to a draft under all
dialects. It appends pieces, and binds what they have placeholders for, if it installs no
collection. -/
theorem perform_under (pos : 0 < size) (sized : ∀ i, (dialect i).chunkSize = size) (b : Draft)
    {s : Builder.Step} (plain : s.isRaw = false) :
    ∃ (outcome : Except StatementError Unit) (b' : Draft),
      (∀ i, (b.under (dialect i)).perform? s = some (outcome, b'.under (dialect i))) ∧
        b.outline.pieces <+: b'.outline.pieces ∧
        (s.installs = false → b.outline.Grows b'.outline) := by
  have front : ∀ {o o' : Outline}, o.Grows o' → o.pieces <+: o'.pieces :=
    fun ⟨pieces, _, more, _⟩ => ⟨pieces, more.symm⟩
  cases s with
  | command c =>
    obtain ⟨outcome, b', run, grows, -⟩ := command_under pos sized b c
    exact ⟨outcome, b', fun i => congrArg some (run i), front grows, fun _ => grows⟩
  | raw operations => cases plain
  | order keys =>
    obtain ⟨outcome, b', run, grows⟩ := commands_under pos sized b (Builder.orderCommands keys)
    exact ⟨outcome, b', fun i => congrArg some (run i), front grows, fun _ => grows⟩
  | parameters p =>
    exact ⟨.ok (), { b with outline := { b.outline with parameters := some p } }, fun _ => rfl,
      List.prefix_rfl, nofun⟩
  | trace t =>
    exact ⟨.ok (), { b with trace := t }, fun _ => rfl, List.prefix_rfl, fun _ => .of_eq rfl rfl⟩

/-- So it is with a run. -/
theorem after_under (pos : 0 < size) (sized : ∀ i, (dialect i).chunkSize = size) (b : Draft)
    {steps : List Builder.Step} (plain : ∀ s ∈ steps, s.isRaw = false) :
    ∃ b' : Draft,
      (∀ i, (b.under (dialect i)).after steps = b'.under (dialect i)) ∧
        b.outline.pieces <+: b'.outline.pieces ∧
        ((∀ s ∈ steps, s.installs = false) → b.outline.Grows b'.outline) := by
  induction steps generalizing b with
  | nil => exact ⟨b, fun _ => rfl, List.prefix_rfl, fun _ => .of_eq rfl rfl⟩
  | cons s steps ih =>
    obtain ⟨first, rest⟩ := List.forall_mem_cons.1 plain
    obtain ⟨outcome, mid, run, front, grows⟩ := perform_under pos sized b first
    obtain ⟨b', later, front', grows'⟩ := ih mid rest
    refine ⟨b', fun i => ?_, front.trans front', fun none => ?_⟩
    · rw [Builder.after_of_perform? (run i)]
      exact later i
    · obtain ⟨kept, kept'⟩ := List.forall_mem_cons.1 none
      exact (grows kept).trans (grows' kept')

/-- A run with a collection installed in it: the pieces go on, and the names start anew. -/
theorem reseeded_under (pos : 0 < size) (sized : ∀ i, (dialect i).chunkSize = size) (b : Draft)
    (p : Parameters Value) {before later : List Builder.Step}
    (plain : ∀ s ∈ before ++ later, s.isRaw = false) (last : ∀ s ∈ later, s.installs = false) :
    ∃ (mid final : Draft) (written added : List Piece),
      (∀ i, (b.under (dialect i)).after before = mid.under (dialect i)) ∧
      (∀ i, (b.under (dialect i)).after (before ++ .parameters p :: later) =
        final.under (dialect i)) ∧
      mid.outline.pieces = b.outline.pieces ++ written ∧
      final.outline.pieces = b.outline.pieces ++ (written ++ added) ∧
      final.outline.entries.map Prod.fst = p.names ++ Piece.placeholders added ∧
      ((∀ s ∈ before, s.installs = false) → mid.outline.entries.map Prod.fst =
        b.outline.entries.map Prod.fst ++ Piece.placeholders written) := by
  obtain ⟨ahead, behind⟩ := List.forall_mem_append.1 plain
  obtain ⟨mid, run, ⟨written, front⟩, grows⟩ := after_under pos sized b ahead
  let seeded : Draft := { mid with outline := { mid.outline with parameters := some p } }
  obtain ⟨final, run', -, grows'⟩ := after_under pos sized seeded behind
  obtain ⟨added, new, pieces, entries, named⟩ := grows' last
  refine ⟨mid, final, written, added, run, fun i => ?_, front.symm, ?_, ?_, fun none => ?_⟩
  · rw [Builder.after_append _ ahead, run i, Builder.after_of_perform? rfl]
    exact run' i
  · rw [pieces, ← List.append_assoc, front]
  · rw [entries, List.map_append, named]
    rfl
  · obtain ⟨pieces', new', pieces, entries, named⟩ := grows none
    have same : written = pieces' := List.append_cancel_left (front.trans pieces)
    rw [entries, List.map_append, same, named]

end Draft

namespace Builder

/-- The law of installed collections. Take the last collection that is installed in a run, whose
steps may fail or not. The text is one sequence of pieces, and the entries at the end are those of
the collection, followed by one for each placeholder that is written behind it. So each of these
placeholders has an entry; one that was written earlier has an entry exactly if the collection
brings one of its name, or the name is bound again later. -/
theorem after_reseeded (b : Builder) (p : Parameters Value) {before later : List Step}
    (plain : ∀ s ∈ before ++ later, s.isRaw = false) (last : ∀ s ∈ later, s.installs = false) :
    ∃ written added : List Piece,
      (∀ d : Dialect, d.chunkSize = b.dialect.chunkSize →
        (Builder.after { b with dialect := d } before).query.text =
          b.writer.text ++ Piece.renderAll d written ∧
        (Builder.after { b with dialect := d } (before ++ .parameters p :: later)).query.text =
          b.writer.text ++ Piece.renderAll d (written ++ added)) ∧
      ((∀ s ∈ before, s.installs = false) →
        (b.after before).writer.names = b.writer.names ++ Piece.placeholders written) ∧
      (b.after (before ++ .parameters p :: later)).writer.names =
        p.names ++ Piece.placeholders added ∧
      (∀ name ∈ Piece.placeholders added,
        (b.after (before ++ .parameters p :: later)).query.Binds name) ∧
      ∀ name ∈ Piece.placeholders written,
        ((b.after (before ++ .parameters p :: later)).query.Binds name ↔
          name ∈ p.names ∨ name ∈ Piece.placeholders added) := by
  let dialect : { d : Dialect // d.chunkSize = b.dialect.chunkSize } → Dialect := Subtype.val
  have sized : ∀ i, (dialect i).chunkSize = b.dialect.chunkSize := Subtype.property
  obtain ⟨mid, final, written, added, run, ends, pieces, pieces', names, names'⟩ :=
    Draft.reseeded_under b.dialect.chunkSize_pos sized (.ofBuilder b) p plain last
  simp only [Draft.under_ofBuilder] at run ends
  have here : b.after before = mid.under b.dialect := run ⟨b.dialect, rfl⟩
  have there : b.after (before ++ .parameters p :: later) = final.under b.dialect :=
    ends ⟨b.dialect, rfl⟩
  have bound : ∀ name, (b.after (before ++ .parameters p :: later)).query.Binds name ↔
      name ∈ p.names ∨ name ∈ Piece.placeholders added := by
    intro name
    rw [binds_iff, there, ← List.mem_append, ← names]
    rfl
  refine ⟨written, added, fun d same => ⟨?_, ?_⟩, fun none => ?_, ?_,
    fun name mem => (bound name).2 (.inr mem), fun name _ => bound name⟩
  · rw [show Builder.after { b with dialect := d } before = _ from run ⟨d, same⟩]
    exact Outline.text_under pieces d
  · rw [show Builder.after { b with dialect := d } _ = _ from ends ⟨d, same⟩]
    exact Outline.text_under pieces' d
  · rw [here]
    exact names' none
  · rw [there]
    exact names

/-- A condition on the level of an account. -/
def levelIs (level : Int64) : Step :=
  .command (.filter (.comparison .eq (.column "level") (.literal (.int level))))

/-- Two conditions, and a collection without entries that is installed between them. -/
theorem after_reseeded_levelIs :
    let b : Builder := { dialect := .sqlite, table := Account.table }
    let steps : List Step := [levelIs 5, .parameters Parameters.empty, levelIs 7]
    (∀ s ∈ [levelIs 5] ++ [levelIs 7], s.isRaw = false) ∧
      (∀ s ∈ [levelIs 7], s.installs = false) ∧
      ∃ written added : List Piece,
        (b.after steps).query.text = Piece.renderAll .sqlite (written ++ added) ∧
          (b.after steps).writer.names = Piece.placeholders added ∧
          ∀ name ∈ Piece.placeholders written,
            ((b.after steps).query.Binds name ↔ name ∈ Piece.placeholders added) := by
  intro b steps
  have plain : ∀ s ∈ [levelIs 5] ++ [levelIs 7], s.isRaw = false := by simp [levelIs, Step.isRaw]
  have last : ∀ s ∈ [levelIs 7], s.installs = false := by simp [levelIs, Step.installs]
  obtain ⟨written, added, texts, -, names, -, bound⟩ :=
    after_reseeded b Parameters.empty plain last
  refine ⟨plain, last, written, added, ?_, names, fun name mem => ?_⟩
  · exact (texts .sqlite rfl).2.trans String.empty_append
  · exact (bound name mem).trans (or_iff_right List.not_mem_nil)

/-- Without the second condition, the placeholder of the first one is left without an entry. -/
theorem reseeding_orphans :
    let b : Builder := { dialect := .sqlite, table := Account.table }
    let query := (b.after [levelIs 5, .parameters Parameters.empty]).query
    (∃ first, b.perform? (levelIs 5) = some (.ok (), first) ∧ first.query.Binds "p1") ∧
      query.text = "where\n    \"level\" = @p1" ∧ query.parameters = some Parameters.empty ∧
      ¬query.Binds "p1" := by
  intro b query
  let start : Writer := { text := "where\n    \"level\" = " }
  obtain ⟨p, one, bound⟩ := start.exec_bindName_of_not_mem .sqlite (.int 5)
    (show Writing.positional 1 ∉ start.names from nofun)
  have text : start.text ++ Dialect.sqlite.placeholder (Writing.positional 1) =
      "where\n    \"level\" = @p1" := by
    decide +kernel
  rw [text] at bound
  have run : b.writer.exec ((Command.filter (.comparison .eq (.column "level")
      (.literal (.int 5)))).write b.dialect b.table) =
        start.exec (Writing.bind .sqlite (Writing.positional 1) (.int 5)) := by
    simp only [b, Command.write, Predicate.compile, Predicate.columnSide?,
      Account.mappedColumn_level]
    rfl
  have first : b.perform? (levelIs 5) = some (.ok (), { b with
      writer := { start with text := "where\n    \"level\" = @p1", parameters := some p }
      steps := ["where"] }) := congrArg some (command_ok (run.trans bound))
  have left : query = ⟨"where\n    \"level\" = @p1", some Parameters.empty⟩ := by
    show (b.after _).query = _
    rw [after_of_perform? first]
    rfl
  rw [left]
  refine ⟨⟨_, first, binds_iff.2 ?_⟩, rfl, rfl, ?_⟩
  · show "p1" ∈ p.toList.map Prod.fst
    rw [one]
    exact List.mem_singleton.2 (by decide)
  · rintro ⟨_, same, mem⟩
    cases same
    exact absurd mem List.not_mem_nil

end Builder

end BoundSql
