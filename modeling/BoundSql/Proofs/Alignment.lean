import BoundSql.Proofs.Assignments
import BoundSql.Proofs.Listing

/-!
# Columns and their values

An insertion writes a list of columns and a list of values, in two passes over the same columns; an
update writes columns and values side by side. `Listing.assignments_aligned` says that nothing can
go wrong between the passes on a statement where the members of the table are free: as soon as there
is a column to list, the statement is written as a whole, each value belongs to its column, and
exactly the placeholders written are bound, to the missing value.

That the members are free is enough because the table declares none of them twice.
-/

namespace BoundSql.Listing

variable {t : Table} {members : Option (List String)}

/-- Whether ambient texts stand for values, in a statement that gives values to its columns. -/
def ambient? : Listing → Option Bool
  | .selection => none
  | .insertion ambient | .update ambient => some ambient

theorem boundMembers_command {l : Listing} {ambient : Bool} {columns : List Column}
    (assigns : l.ambient? = some ambient) (listed : l.target t members = .ok columns) :
    (l.command members).boundMembers t =
      (columns.filter (·.isBound ambient)).map Column.member := by
  cases l with
  | selection => cases assigns
  | insertion ambient =>
    cases assigns
    have found : Command.insertColumns t members = .ok columns := listed
    simp only [command, Command.boundMembers, found]
  | update ambient =>
    cases assigns
    have found : t.targetColumns members "update" = .ok columns := listed
    simp only [command, Command.boundMembers, found]

/-- Where the members of the table are free, an assignment is written as a whole. -/
theorem exec_of_assigned (d : Dialect) {l : Listing} {ambient : Bool} {columns : List Column}
    (assigns : l.ambient? = some ambient) (listed : l.target t members = .ok columns) {w : Writer}
    (free : ∀ c ∈ t.columns, c.member ∉ w.names) :
    ∃ v, w.exec ((l.command members).write d t) = (.ok (), v) ∧
      v.text = w.text ++ l.text d t columns ∧
      v.entries = w.entries ++
        (columns.filter (·.isBound ambient)).map fun c => (c.member, .null) := by
  have unfiltered : ∀ p, l.command members ≠ .filter p := by
    cases l <;> exact fun _ => nofun
  have grown := text_ne_of_listed d listed w
  rcases (l.command members).write_assigns d t unfiltered with ⟨e, -, refused, -⟩ | fills
  · rw [refused] at grown
    exact absurd rfl grown
  · have fresh : (w.names ++ (l.command members).boundMembers t).Nodup := by
      refine List.nodup_append.2 ⟨w.names_nodup, Command.boundMembers_nodup t _, ?_⟩
      rintro name taken _ bound rfl
      obtain ⟨c, declared, rfl⟩ := List.mem_map.1 ((Command.boundMembers_sublist t _).subset bound)
      exact free c declared taken
    obtain ⟨v, run, entries, -⟩ := fills w fresh
    refine ⟨v, run, ?_, ?_⟩
    · rw [(l.write_spells d t members).of_ok run, (target_eq_ok_iff.1 listed).2.1]
    · rw [entries, boundMembers_command assigns listed, List.map_map]
      rfl

/-- Otherwise it is refused, with nothing written or bound. -/
theorem exec_of_unlisted (d : Dialect) {l : Listing}
    (unlisted : ¬(t.Knows members ∧ l.columns t members ≠ [])) (w : Writer) :
    ∃ e : StatementError, e.isDuplicateParameter = false ∧
      w.exec ((l.command members).write d t) = (.error e, w) := by
  cases checked : l.target t members with
  | ok columns =>
    obtain ⟨known, rfl, some⟩ := target_eq_ok_iff.1 checked
    exact absurd ⟨known, some⟩ unlisted
  | error e =>
    refine ⟨e, ?_, exec_of_refused d checked w⟩
    cases l with
    | insertion ambient => exact Command.insertColumns_not_duplicate checked
    | selection | update => exact Table.targetColumns_not_duplicate checked

/-- The lists of an assignment are aligned. On a statement where the members of the table are free,
an insertion of known members with a column to list is written as a whole: the columns and, behind
them, as many values, each in the place of its column, with a comma between two lines and none
behind the last. So is an update, with each value next to its column. Nothing in front is touched,
and the members are bound, in order, whose columns have no ambient text in place of a placeholder.

The columns are the mapped ones that the choice takes in, in the order of declaration and each once,
for an insertion without those that count up by themselves. Without any, or with a member that is
not known, the statement is refused and stays as it was.

Each line is written with a comma behind it, and the last byte is trimmed afterwards. That is as if
commas stood between the lines: the trim takes the one comma that dangles and no other text. -/
theorem assignments_aligned (d : Dialect) (t : Table) (members : Option (List String))
    (ambient : Bool) (w : Writer) (free : ∀ c ∈ t.columns, c.member ∉ w.names) :
    let inserted := columns (.insertion ambient) t members
    let updated := columns (.update ambient) t members
    let bound := fun columns : List Column =>
      (columns.filter (·.isBound ambient)).map fun c => (c.member, Value.null)
    (t.Knows members ∧ inserted ≠ [] →
      ∃ v, w.exec ((Command.insert members ambient).write d t) = (.ok (), v) ∧
        v.text = w.text ++ ("insert into " ++ Writing.tableText d t ++
          "\n(" ++ lines (inserted.map fun c => d.identifier c.name) ++ "\n)\nvalues" ++
          "\n(" ++ lines (inserted.map fun c => c.valueText d ambient) ++ "\n)") ∧
        v.entries = w.entries ++ bound inserted) ∧
    (t.Knows members ∧ updated ≠ [] →
      ∃ v, w.exec ((Command.update members ambient).write d t) = (.ok (), v) ∧
        v.text = w.text ++ ("update " ++ Writing.tableText d t ++ "\nset" ++
          lines (updated.map fun c => d.identifier c.name ++ " = " ++ c.valueText d ambient)) ∧
        v.entries = w.entries ++ bound updated) ∧
    (¬(t.Knows members ∧ inserted ≠ []) → ∃ e : StatementError, e.isDuplicateParameter = false ∧
      w.exec ((Command.insert members ambient).write d t) = (.error e, w)) ∧
    (¬(t.Knows members ∧ updated ≠ []) → ∃ e : StatementError, e.isDuplicateParameter = false ∧
      w.exec ((Command.update members ambient).write d t) = (.error e, w)) ∧
    (updated.Sublist t.columns ∧ (updated.map Column.member).Nodup ∧
      ∀ c, c ∈ updated ↔
        c ∈ t.columns ∧ c.mapped = true ∧ ∀ names ∈ members, c.member ∈ names) ∧
    inserted = (updated.filter fun c => !c.autoIncrement) ∧
    ∀ (write : Column → Writing Unit) (columns : List Column), columns ≠ [] →
      (do Command.writeTrailing write columns; Writing.trim 1) =
        Writing.separated "," (fun c => do Writing.text "\n    "; write c) columns := by
  intro inserted updated bound
  refine ⟨?_, ?_, fun unlisted => exec_of_unlisted d unlisted w,
    fun unlisted => exec_of_unlisted d unlisted w,
    ⟨columns_sublist _ t members, columns_nodup _ t members, fun c => ?_⟩, ?_,
    fun write columns some => ?_⟩
  · rintro ⟨known, some⟩
    obtain ⟨v, run, text, entries⟩ := exec_of_assigned (l := .insertion ambient) d rfl
      (target_eq_ok_iff.2 ⟨known, rfl, some⟩) free
    refine ⟨v, run, ?_, entries⟩
    rw [text]
    simp only [Listing.text, remainder, opening, String.append_assoc]
    rfl
  · rintro ⟨known, some⟩
    obtain ⟨v, run, text, entries⟩ := exec_of_assigned (l := .update ambient) d rfl
      (target_eq_ok_iff.2 ⟨known, rfl, some⟩) free
    refine ⟨v, run, ?_, entries⟩
    rw [text]
    simp only [Listing.text, remainder, opening, String.append_assoc]
    rfl
  · cases members <;> simp [updated, columns, takes]
  · simp only [inserted, updated, columns_eq_filter, List.filter_filter]
    exact List.filter_congr fun c _ => (Bool.and_true _).symm
  · exact Command.writeLines_eq_separated write some

/-- Entries of a journal: a key that counts up by itself, a title in a column of another name, two
ambient texts, one of them empty, and a member without a column. -/
def journal : Table :=
  .ofColumns "Journal" none
    [ ColumnDraft.resolve false { member := "id", memberType := .i32, primaryKey := true },
      ColumnDraft.resolve false { member := "title", memberType := .text, name := some "Title" },
      ColumnDraft.resolve false
        { member := "written", memberType := .timestamp, ambient := some "now()" },
      ColumnDraft.resolve false { member := "mark", memberType := .text, ambient := some "" },
      ColumnDraft.resolve false { member := "draft", memberType := .bool, mapped := false } ]
    (by decide) (by decide)

/-- An insertion of chosen members, out of order and one of them twice, in ambient mode. -/
theorem assignments_aligned_journal :
    let members := some ["mark", "title", "draft", "id", "title", "written"]
    (∀ c ∈ journal.columns, c.member ∉ ({} : Writer).names) ∧
      ∃ v, Writer.exec {} ((Command.insert members true).write .sqlite journal) = (.ok (), v) ∧
        v.text = "insert into \"Journal\"\n(\n    \"Title\",\n    \"written\",\n    \"mark\"\n)" ++
          "\nvalues\n(\n    @title,\n    now(),\n    \n)" ∧
        v.entries = [("title", .null)] := by
  intro members
  have free : ∀ c ∈ journal.columns, c.member ∉ ({} : Writer).names := fun _ _ => nofun
  have known : journal.Knows members := Table.knows_some.2 (by decide)
  obtain ⟨v, run, text, entries⟩ :=
    (assignments_aligned .sqlite journal members true {} free).1 ⟨known, by decide⟩
  refine ⟨free, v, run, text.trans ?_, entries.trans ?_⟩
  · decide +kernel
  · rfl

end BoundSql.Listing
