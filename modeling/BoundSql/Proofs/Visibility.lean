import BoundSql.Proofs.Isolation

/-!
# Members without a column

A member that is not mapped takes no part in any statement. `Builder.performAll_visible` says so
with two runs: one over a table, and one over the table without its unmapped columns
(`Table.visible`), where the choices of members leave their names out as well. Step by step both
succeed or both fail, and they make the same text, bind the same parameters and record the same
steps.

A failure has one cause in both runs, and one wording but for a single case: a member that is
declared without a column is said to be unmapped in the one run and unknown in the other
(`Table.asUnknown`). So the computations of the two runs are equal up to that rewording
(`Command.write_visible`), and the rest of the argument is about running one computation twice.
-/

namespace BoundSql

/-! ## The table that statements see -/

namespace Table

/-- The table without its unmapped columns. The flags of the others stay. -/
def visible (t : Table) : Table :=
  .ofColumns t.name t.schema t.mappedColumns (t.distinct.sublist (List.filter_sublist.map _))
    fun c mem => t.key_of_auto c (List.mem_of_mem_filter mem)

/-- The member is declared and not mapped. -/
def hides (t : Table) (member : String) : Bool :=
  (t.column? member).any fun c => !c.mapped

/-- A choice of members without those that are not mapped. -/
def visibleMembers (t : Table) (members : Option (List String)) : Option (List String) :=
  members.map fun names => names.filter fun member => !t.hides member

/-- An error as it is over the visible table, where no member is unmapped: one that is about a
member says that there is no such member. -/
def asUnknown (t : Table) : StatementError → StatementError
  | .mapping member _ => t.unknownMember member
  | e => e

/-- A member that is not mapped is found no more. -/
theorem column?_visible (t : Table) (member : String) :
    t.visible.column? member = (t.column? member).filter (·.mapped) := by
  apply Option.ext
  intro c
  rw [column?_eq_some_iff, Option.filter_eq_some_iff, column?_eq_some_iff]
  show c ∈ t.columns.filter (·.mapped) ∧ _ ↔ _
  rw [List.mem_filter, and_right_comm]

/-- Whether a member is unmapped or unknown shows in the wording only. -/
theorem mappedColumn_visible (t : Table) (member : String) :
    t.visible.mappedColumn member = (t.mappedColumn member).mapError t.asUnknown := by
  unfold mappedColumn
  rw [column?_visible]
  cases t.column? member with
  | none => rfl
  | some c => cases mapped : c.mapped <;> simp [Option.filter, mapped] <;> rfl

theorem mappedColumns_visible (t : Table) : t.visible.mappedColumns = t.mappedColumns :=
  List.filter_filter.trans (by simp [mappedColumns])

/-- The first member of a choice that is not declared is the same one. -/
theorem find?_unknown_visible (t : Table) (names : List String) :
    (names.filter fun member => !t.hides member).find?
        (fun member => (t.visible.column? member).isNone) =
      names.find? fun member => (t.column? member).isNone := by
  rw [List.find?_filter]
  congr 1
  funext member
  rw [column?_visible, hides]
  cases t.column? member with
  | none => rfl
  | some c => cases mapped : c.mapped <;> simp [Option.filter, mapped]

/-- A mapped column is chosen from what is left of a choice as it was from the whole. -/
theorem contains_visible (t : Table) (names : List String) {c : Column}
    (mem : c ∈ t.mappedColumns) :
    (names.filter fun member => !t.hides member).contains c.member = names.contains c.member := by
  obtain ⟨declared, mapped⟩ := List.mem_filter.1 mem
  have shown : t.hides c.member = false := by
    rw [hides, column?_eq_some_iff.2 ⟨declared, rfl⟩, Option.any_some, mapped]
    rfl
  rw [Bool.eq_iff_iff, List.contains_iff_mem, List.contains_iff_mem, List.mem_filter, shown]
  simp

/-- A choice of members leaves the same columns. -/
theorem targetColumns_visible (t : Table) (members : Option (List String)) (statement : String) :
    t.visible.targetColumns (t.visibleMembers members) statement =
      (t.targetColumns members statement).mapError t.asUnknown := by
  unfold targetColumns visibleMembers
  rw [mappedColumns_visible]
  cases members with
  | none => cases t.mappedColumns <;> rfl
  | some names =>
    dsimp only [Option.map_some]
    rw [find?_unknown_visible]
    cases names.find? fun member => (t.column? member).isNone with
    | some unknown => rfl
    | none =>
      dsimp only
      rw [List.filter_congr fun c mem => t.contains_visible names mem]
      cases t.mappedColumns.filter fun c => names.contains c.member <;> rfl

end Table

/-! ## Errors in other words -/

namespace Writing

variable {α β : Type} (t : Table)

/-- The computation, with the errors that it has over the visible table. -/
def asUnknown (x : Writing α) : Writing α :=
  ExceptT.adapt t.asUnknown x

theorem exec_asUnknown (x : Writing α) (w : Writer) :
    w.exec (x.asUnknown t) = ((w.exec x).1.mapError t.asUnknown, (w.exec x).2) := rfl

/-- Computations that end alike from every statement are one. -/
theorem ext_exec {x y : Writing α} (h : ∀ w : Writer, w.exec x = w.exec y) : x = y :=
  funext h

/-- A computation whose failures are about no member keeps its words. -/
theorem asUnknown_eq_self {x : Writing α}
    (plain : ∀ (w : Writer) (e : StatementError), (w.exec x).1 = .error e → t.asUnknown e = e) :
    x.asUnknown t = x := by
  refine ext_exec fun w => ?_
  have same := plain w
  rw [exec_asUnknown]
  revert same
  rcases w.exec x with ⟨e | a, v⟩
  · exact fun same => by rw [Except.mapError, same e rfl]
  · exact fun _ => rfl

/-- The wording of errors can be changed part by part. -/
theorem asUnknown_bind (x : Writing α) (f : α → Writing β) :
    asUnknown t (x >>= f) = x.asUnknown t >>= fun a => (f a).asUnknown t := by
  refine ext_exec fun w => ?_
  rw [exec_asUnknown, Writer.exec_bind, Writer.exec_bind, exec_asUnknown]
  rcases w.exec x with ⟨e | a, v⟩ <;> rfl

@[simp] theorem asUnknown_ofExcept (x : Except StatementError α) :
    (ofExcept x).asUnknown t = ofExcept (x.mapError t.asUnknown) := by
  cases x <;> rfl

@[simp] theorem asUnknown_pure (a : α) : asUnknown t (pure a) = pure a := rfl

@[simp] theorem asUnknown_text (s : String) : (text s).asUnknown t = text s := rfl

@[simp] theorem asUnknown_identifier (d : Dialect) (name : String) :
    (identifier d name).asUnknown t = identifier d name := rfl

@[simp] theorem asUnknown_tableName (d : Dialect) (t' : Table) :
    (tableName d t').asUnknown t = tableName d t' := by
  rw [tableName_eq_text, asUnknown_text]

@[simp] theorem asUnknown_trim (n : Nat) : (trim n).asUnknown t = trim n := rfl

@[simp] theorem asUnknown_separator (s : String) : (separator s).asUnknown t = separator s := rfl

@[simp] theorem asUnknown_report (event : Event) : (report event).asUnknown t = report event := rfl

@[simp] theorem asUnknown_bindName (d : Dialect) (name : String) (value : Value) :
    (bind d name value).asUnknown t = bind d name value := by
  refine asUnknown_eq_self t fun w e failed => ?_
  by_cases taken : name ∈ w.names
  · rw [w.exec_bindName_of_mem d value taken] at failed
    cases failed
    rfl
  · obtain ⟨p, -, run⟩ := w.exec_bindName_of_not_mem d value taken
    rw [run] at failed
    cases failed

@[simp] theorem asUnknown_bindNext (d : Dialect) (value : Value) :
    (bindNext d value).asUnknown t = bindNext d value := by
  refine ext_exec fun w => ?_
  rw [exec_asUnknown, Writer.exec_bindNext, ← exec_asUnknown, asUnknown_bindName]

@[simp] theorem asUnknown_asking_evaluate (operand : Predicate) :
    (asking operand.evaluate).asUnknown t = asking operand.evaluate := by
  refine asUnknown_eq_self t fun w e failed => ?_
  rw [Writer.exec_asking] at failed
  obtain ⟨reason, rfl⟩ := operand.evaluate_eq_error w.calls e failed
  rfl

/-- So it can be changed item by item. -/
@[simp] theorem asUnknown_separated (between : String) (write : α → Writing Unit)
    (items : List α) :
    (separated between write items).asUnknown t =
      separated between (fun a => (write a).asUnknown t) items := by
  fun_induction separated between write items with
  | case1 => rfl
  | case2 item => rfl
  | case3 item next rest ih =>
    rw [asUnknown_bind, asUnknown_bind, asUnknown_text, ih]
    rfl

end Writing

/-! ## What is written over both tables -/

open Writing (asUnknown_bind)

variable (d : Dialect) (t : Table)

namespace Predicate

theorem writeComparison_asUnknown (c : Column) (op : Comparison) (value : Value) :
    (writeComparison d c op value).asUnknown t = writeComparison d c op value := by
  rw [writeComparison_eq, asUnknown_bind]
  split <;> simp [asUnknown_bind]

theorem writeInTest_asUnknown (c : Column) (values : List Value) :
    (writeInTest d c values).asUnknown t = writeInTest d c values := by
  simp [writeInTest, asUnknown_bind]

/-- A membership has no errors of its own, as its column is found before. -/
theorem writeMembership_asUnknown (c : Column) (values : List Value) :
    (writeMembership d c values).asUnknown t = writeMembership d c values := by
  unfold writeMembership
  split <;> simp [asUnknown_bind, writeInTest_asUnknown]

theorem writeGrouped_asUnknown (grouped : Bool) (condition : Writing Unit) :
    (writeGrouped grouped condition).asUnknown t =
      writeGrouped grouped (condition.asUnknown t) := by
  cases grouped <;> simp [writeGrouped, asUnknown_bind]

/-- A condition over the visible table is the same computation in other words. -/
theorem compile_visible (p : Predicate) :
    p.compile d t.visible = (p.compile d t).asUnknown t := by
  induction p with
  | logical op left right ihl ihr =>
    simp only [compile, ihl, ihr, asUnknown_bind, writeGrouped_asUnknown, Writing.asUnknown_text]
  | comparison op left right =>
    simp only [compile]
    split
    · simp only [asUnknown_bind, Writing.asUnknown_ofExcept, Table.mappedColumn_visible,
        Writing.asUnknown_asking_evaluate, writeComparison_asUnknown]
    · rfl
  | membership member values =>
    simp only [compile, asUnknown_bind, Writing.asUnknown_ofExcept, Table.mappedColumn_visible,
      writeMembership_asUnknown]
  | literal value =>
    cases value with
    | bool b => cases b <;> rfl
    | _ => rfl
  | column | computed | element => rfl

end Predicate

namespace Command

/-- The command with the names of unmapped members left out of its choice. -/
def visible : Command → Command
  | .select members => .select (t.visibleMembers members)
  | .insert members ambient => .insert (t.visibleMembers members) ambient
  | .update members ambient => .update (t.visibleMembers members) ambient
  | c => c

/-- An insert has the same columns. -/
theorem insertColumns_visible (members : Option (List String)) :
    insertColumns t.visible (t.visibleMembers members) =
      (insertColumns t members).mapError t.asUnknown := by
  unfold insertColumns
  rw [t.targetColumns_visible]
  cases t.targetColumns members "insert" with
  | error e => rfl
  | ok columns =>
    dsimp only [Except.mapError]
    split <;> rfl

theorem writeTrailing_asUnknown (write : Column → Writing Unit) (columns : List Column) :
    (writeTrailing write columns).asUnknown t =
      writeTrailing (fun c => (write c).asUnknown t) columns := by
  induction columns with
  | nil => rfl
  | cons c rest ih => simp only [writeTrailing, asUnknown_bind, Writing.asUnknown_text, ih]

/-- Lines have the errors of their columns. -/
theorem writeLines_asUnknown (write : Column → Writing Unit) (columns : List Column) :
    (writeLines write columns).asUnknown t =
      writeLines (fun c => (write c).asUnknown t) columns := by
  simp only [writeLines, asUnknown_bind, writeTrailing_asUnknown, Writing.asUnknown_trim]

/-- A value fails with a name that is taken only. -/
theorem writeValue_asUnknown (ambient : Bool) (c : Column) :
    (writeValue d ambient c).asUnknown t = writeValue d ambient c := by
  unfold writeValue
  split <;> simp

theorem writeKey_asUnknown (c : Column) (direction : Direction) :
    (writeKey d c direction).asUnknown t = writeKey d c direction := by
  cases direction <;> simp [writeKey, asUnknown_bind]

/-- A command over the visible table is the same computation in other words. -/
theorem write_visible (c : Command) :
    (c.visible t).write d t.visible = (c.write d t).asUnknown t := by
  have name : Writing.tableName d t.visible = Writing.tableName d t := rfl
  cases c with
  | count | delete | truncate => simp [visible, write, name, asUnknown_bind]
  | select members =>
    simp [visible, write, name, asUnknown_bind, t.targetColumns_visible, writeLines_asUnknown]
  | insert members ambient =>
    simp [visible, write, name, asUnknown_bind, insertColumns_visible, writeLines_asUnknown,
      writeValue_asUnknown]
  | update members ambient =>
    simp [visible, write, name, asUnknown_bind, t.targetColumns_visible, writeLines_asUnknown,
      writeValue_asUnknown]
  | filter predicate => simp [visible, write, asUnknown_bind, predicate.compile_visible]
  | orderBy member direction | thenBy member direction =>
    simp [visible, write, asUnknown_bind, t.mappedColumn_visible, writeKey_asUnknown]

/-- The name of a step does not mention members. -/
theorem name_visible (c : Command) : (c.visible t).name = c.name := by
  cases c <;> rfl

end Command

/-! ## Runs over both tables -/

namespace Writer

/-- The same statement, for which the same has been asked. The reports made may differ. -/
structure Matches (w v : Writer) : Prop where
  text : w.text = v.text
  parameters : w.parameters = v.parameters
  calls : w.calls = v.calls

/-- Writers with one text and the same parameters stay so under one dialect. -/
theorem Matches.parallel (d : Dialect) : Parallel Eq d d Matches where
  chunkSize := rfl
  isEmpty h := by rw [h.text]
  bound h := by rw [bound, h.parameters, bound]
  text h s := ⟨by rw [h.text], h.parameters, h.calls⟩
  identifier h name := ⟨by rw [h.text], h.parameters, h.calls⟩
  tableName h t := ⟨by rw [h.text], h.parameters, h.calls⟩
  report h event := ⟨h.text, h.parameters, h.calls⟩
  null := rfl
  list same := by
    rw [List.forall₂_eq_eq_eq] at same
    rw [same]
  bind name a b hab w v h := by
    subst hab
    rw [exec_bindName, exec_bindName, h.parameters]
    cases (v.parameters.getD Parameters.empty).add name a with
    | ok p => exact ⟨rfl, by rw [h.text], rfl, h.calls⟩
    | error e => exact ⟨rfl, h⟩

theorem Matches.asking {α : Type} (x : Asking α) :
    Writing.Alongside Matches (Writing.asking x) (Writing.asking x) := by
  intro w v h
  rw [exec_asking, exec_asking, h.calls]
  rcases v.calls.answer x with ⟨e | a, log⟩
  · exact ⟨rfl, h.text, h.parameters, rfl⟩
  · exact ⟨rfl, h.text, h.parameters, rfl⟩

/-- No computation reads the reports, so a command does the same to statements that match. -/
theorem Matches.exec_write {w v : Writer} (h : w.Matches v) (d : Dialect) (t : Table)
    (c : Command) :
    (w.exec (c.write d t)).1 = (v.exec (c.write d t)).1 ∧
      (w.exec (c.write d t)).2.Matches (v.exec (c.write d t)).2 := by
  have both : Writing.Alongside Matches (c.write d t) (c.write d t) :=
    (c.write_composed_self d t).alongside () () (Matches.parallel d) (fun _ => rfl) Matches.asking
  exact both.same h

end Writer

namespace Builder

/-- The second builder has made the statement of the first over the visible table. -/
structure Unveils (b b' : Builder) : Prop where
  dialect : b'.dialect = b.dialect
  table : b'.table = b.table.visible
  steps : b'.steps = b.steps
  writer : b.writer.Matches b'.writer

/-- Nothing of the table shows in a query. -/
theorem Unveils.query_eq {b b' : Builder} (h : b.Unveils b') : b'.query = b.query := by
  rw [query, query, h.writer.text, h.writer.parameters]

/-- One step keeps them so, and ends in both with the same success or the same failure in other
words. -/
theorem Unveils.command {b b' : Builder} (h : b.Unveils b') (c : Command) :
    (b'.command (c.visible b.table)).1 = (b.command c).1.mapError b.table.asUnknown ∧
      (b.command c).2.Unveils (b'.command (c.visible b.table)).2 := by
  obtain ⟨outcome, matched⟩ := h.writer.exec_write b.dialect b.table c
  have other : b'.writer.exec ((c.visible b.table).write b'.dialect b'.table) =
      ((b'.writer.exec (c.write b.dialect b.table)).1.mapError b.table.asUnknown,
        (b'.writer.exec (c.write b.dialect b.table)).2) := by
    rw [h.dialect, h.table, c.write_visible, Writing.exec_asUnknown]
  rw [← outcome] at other
  rcases run : b.writer.exec (c.write b.dialect b.table) with ⟨e | ⟨⟩, w⟩
  · rw [run] at matched other
    rw [command_failed run, command_failed other]
    exact ⟨rfl, h.dialect, h.table, h.steps, h.writer.text, h.writer.parameters, matched.calls⟩
  · rw [run] at matched other
    have first : b.command c = (.ok (), _) := command_ok run
    have second : b'.command (c.visible b.table) = (.ok (), _) := command_ok other
    rw [first, second]
    refine ⟨rfl, h.dialect, h.table, ?_, matched⟩
    show b'.steps ++ [(c.visible b.table).name] = b.steps ++ [c.name]
    rw [h.steps, c.name_visible]

/-- Step by step the outcomes differ in their wording at most. -/
theorem Unveils.performAll {b b' : Builder} (h : b.Unveils b') (cs : List Command) :
    List.Forall₂
      (fun r r' => r'.1 = r.1.mapError b.table.asUnknown ∧ r.2.Unveils r'.2)
      (b.performAll (cs.map .command))
      (b'.performAll (cs.map fun c => .command (c.visible b.table))) := by
  induction cs generalizing b b' with
  | nil => exact .nil
  | cons c cs ih =>
    have step := h.command c
    have later := ih step.2
    rw [b.command_table] at later
    rw [List.map_cons, List.map_cons, performAll_command, performAll_command]
    exact .cons step later

/-- Unmapped members are invisible. Of any commands, run one after the other past their failures,
each ends over the table without its unmapped columns as it does over the table, when their names
are left out of all choices: with the same success or the same failure, but that an unmapped member
is unknown there, and with the same text, the same parameters and the same names of steps behind
it. -/
theorem performAll_visible (b : Builder) (cs : List Command) :
    List.Forall₂
      (fun r r' => r'.1 = r.1.mapError b.table.asUnknown ∧ r'.2.query = r.2.query ∧
        r'.2.steps = r.2.steps)
      (b.performAll (cs.map .command))
      (Builder.performAll { b with table := b.table.visible }
        (cs.map fun c => .command (c.visible b.table))) := by
  have start : b.Unveils { b with table := b.table.visible } :=
    ⟨rfl, rfl, rfl, rfl, rfl, rfl⟩
  exact (start.performAll cs).imp fun _ _ step => ⟨step.1, step.2.query_eq, step.2.steps⟩

end Builder

end BoundSql
