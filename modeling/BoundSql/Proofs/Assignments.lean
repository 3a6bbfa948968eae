import BoundSql.Proofs.Rollback

/-!
# Members bound by name

Insertions and updates bind each of their columns under the name of its member, to the missing value
for now, unless ambient text stands for the value. `Command.boundMembers` lists these names, and
`Writing.Fills` says of a computation that it binds exactly the names of a list, if they are free.

Each command without a predicate is refused by a check, before anything is written, or binds its
members: `Command.write_assigns`. So as a step it never meets a duplicate where its members are free
(`Builder.command_assigns`).
-/

namespace BoundSql

/-- Whether a parameter stands for the column's value, and not ambient text. -/
def Column.isBound (ambient : Bool) (c : Column) : Bool :=
  !(ambient && c.ambient.isSome)

namespace Command

/-- The members that a command binds by name, in their order; none if it is refused. -/
def boundMembers (t : Table) : Command → List String
  | .insert members ambient =>
    match insertColumns t members with
    | .ok columns => (columns.filter (·.isBound ambient)).map Column.member
    | .error _ => []
  | .update members ambient =>
    match t.targetColumns members "update" with
    | .ok columns => (columns.filter (·.isBound ambient)).map Column.member
    | .error _ => []
  | _ => []

/-- Each member is bound once at most, in the order of the table. -/
theorem boundMembers_sublist (t : Table) (c : Command) :
    (c.boundMembers t).Sublist (t.columns.map Column.member) := by
  have among : ∀ {columns : List Column} (ambient : Bool), columns.Sublist t.columns →
      ((columns.filter (·.isBound ambient)).map Column.member).Sublist
        (t.columns.map Column.member) :=
    fun _ within => (List.filter_sublist.trans within).map _
  cases c with
  | insert members ambient =>
    cases found : insertColumns t members with
    | ok columns =>
      simp only [boundMembers, found]
      exact among ambient (insertColumns_sublist found)
    | error e =>
      simp only [boundMembers, found]
      exact List.nil_sublist _
  | update members ambient =>
    cases found : t.targetColumns members "update" with
    | ok columns =>
      simp only [boundMembers, found]
      exact among ambient (Table.targetColumns_sublist found)
    | error e =>
      simp only [boundMembers, found]
      exact List.nil_sublist _
  | _ => exact List.nil_sublist _

/-- No member is bound twice. -/
theorem boundMembers_nodup (t : Table) (c : Command) : (c.boundMembers t).Nodup :=
  t.distinct.sublist (c.boundMembers_sublist t)

end Command

/-! ## Filling in -/

namespace Writing

/-- The computation succeeds and binds the names, as long as they are free and distinct. -/
def Fills (names : List String) (x : Writing Unit) : Prop :=
  ∀ w : Writer, (w.names ++ names).Nodup →
    ∃ v, w.exec x = (.ok (), v) ∧ v.entries = w.entries ++ names.map (·, .null) ∧
      v.calls = w.calls

namespace Fills

variable {xs ys : List String} {x y : Writing Unit}

/-- What only changes the text fills no name. -/
theorem of_text {x : Writing Unit} (text : Writer → String)
    (run : ∀ w : Writer, w.exec x = (.ok (), { w with text := text w })) : Fills [] x :=
  fun w _ => ⟨_, run w, (List.append_nil _).symm, rfl⟩

theorem pure : Fills [] (pure ()) :=
  .of_text Writer.text fun _ => rfl

theorem text (s : String) : Fills [] (Writing.text s) :=
  .of_text (·.text ++ s) fun _ => rfl

theorem identifier (d : Dialect) (name : String) : Fills [] (Writing.identifier d name) :=
  text _

theorem tableName (d : Dialect) (t : Table) : Fills [] (Writing.tableName d t) := by
  rw [tableName_eq_text]
  exact text _

theorem separator (s : String) : Fills [] (Writing.separator s) :=
  .of_text (fun w => if w.text.isEmpty then w.text else w.text ++ s) fun w => w.exec_separator_eq s

theorem trim (n : Nat) : Fills [] (Writing.trim n) :=
  .of_text (Text.dropLastBytes n ·.text) fun _ => rfl

/-- A name is filled where it is bound. -/
theorem bindName (d : Dialect) (name : String) : Fills [name] (Writing.bind d name .null) := by
  intro w fresh
  have free : name ∉ w.names := fun taken =>
    (List.nodup_append.1 fresh).2.2 name taken name (List.mem_singleton_self name) rfl
  obtain ⟨p, entries, run⟩ := w.exec_bindName_of_not_mem d .null free
  exact ⟨_, run, entries, rfl⟩

/-- One after the other, two computations fill the names of both. -/
theorem bind (hx : Fills xs x) (hy : Fills ys y) : Fills (xs ++ ys) (x >>= fun _ => y) := by
  intro w fresh
  rw [← List.append_assoc] at fresh
  obtain ⟨v, run, entries, calls⟩ := hx w (List.nodup_append.1 fresh).1
  have names : v.names = w.names ++ xs := by
    rw [Writer.names, entries, List.map_append, List.map_map, Writer.names]
    exact congrArg _ (List.map_id xs)
  rw [← names] at fresh
  obtain ⟨u, run', entries', calls'⟩ := hy v fresh
  refine ⟨u, ?_, ?_, calls'.trans calls⟩
  · rw [Writer.exec_bind, run]
    exact run'
  · rw [entries', entries, List.map_append, List.append_assoc]

/-- Text in front fills no name more. -/
theorem before (hx : Fills [] x) (hy : Fills ys y) : Fills ys (x >>= fun _ => y) :=
  hx.bind hy

/-- Text behind fills no name more. -/
theorem behind (hx : Fills xs x) (hy : Fills [] y) : Fills xs (x >>= fun _ => y) :=
  List.append_nil xs ▸ hx.bind hy

end Fills

/-- The computation is refused by a check that stands before all writing, with no names to bind
then, or it binds the names. -/
def Assigns (names : List String) (x : Writing Unit) : Prop :=
  (∃ e : StatementError, e.isDuplicateParameter = false ∧ x = throw e ∧ names = []) ∨
    Fills names x

/-- A command that is refused binds nothing, and else does what it does. -/
theorem Assigns.checked {α : Type} {x : Except StatementError α} {f : α → Writing Unit}
    {names : List String} (plain : ∀ e, x = .error e → e.isDuplicateParameter = false)
    (refused : ∀ e, x = .error e → names = []) (hf : ∀ a, x = .ok a → Fills names (f a)) :
    Assigns names (ofExcept x >>= f) := by
  cases x with
  | ok a => exact .inr (hf a rfl)
  | error e => exact .inl ⟨e, plain e rfl, rfl, refused e rfl⟩

end Writing

namespace Command

open Writing (Fills)

/-- A value fills the name of its member, if it is bound at all. -/
theorem writeValue_fills (d : Dialect) (ambient : Bool) (c : Column) :
    Fills (if c.isBound ambient then [c.member] else []) (writeValue d ambient c) := by
  have bound := Fills.bindName d c.member
  unfold writeValue Column.isBound
  cases c.ambient with
  | none => cases ambient <;> exact bound
  | some literal =>
    cases ambient with
    | true => exact .text literal
    | false => exact bound

/-- Each line binds its own member, and the commas between the lines bind nothing. -/
theorem writeTrailing_fills {write : Column → Writing Unit} {keep : Column → Bool}
    (h : ∀ c, Fills (if keep c then [c.member] else []) (write c)) (columns : List Column) :
    Fills ((columns.filter keep).map Column.member) (writeTrailing write columns) := by
  induction columns with
  | nil => exact .pure
  | cons c rest ih =>
    have first : ((c :: rest).filter keep).map Column.member =
        (if keep c then [c.member] else []) ++ (rest.filter keep).map Column.member := by
      rw [List.filter_cons]
      split <;> rfl
    rw [first]
    exact .before (.text _) ((h c).bind (.before (.text _) ih))

/-- Lines fill the names of the columns that are bound, in their order. -/
theorem writeLines_fills {write : Column → Writing Unit} {keep : Column → Bool}
    (h : ∀ c, Fills (if keep c then [c.member] else []) (write c)) (columns : List Column) :
    Fills ((columns.filter keep).map Column.member) (writeLines write columns) :=
  .behind (writeTrailing_fills h columns) (.trim 1)

/-- Lines without values fill no name. -/
theorem writeLines_plain {write : Column → Writing Unit} (h : ∀ c, Fills [] (write c))
    (columns : List Column) : Fills [] (writeLines write columns) := by
  have none : columns.filter (fun _ => false) = [] := List.filter_eq_nil_iff.2 fun _ _ => nofun
  have plain : ∀ c : Column, Fills (if false then [c.member] else []) (write c) := h
  have fills := writeLines_fills plain columns
  rwa [none] at fills

theorem writeKey_fills (d : Dialect) (c : Column) (direction : Direction) :
    Fills [] (writeKey d c direction) := by
  refine .before (.identifier d _) ?_
  cases direction with
  | ascending => exact .pure
  | descending => exact .text _

/-- A command without a predicate is refused by a check, or it binds its members. -/
theorem write_assigns (d : Dialect) (t : Table) {c : Command} (unfiltered : ∀ p, c ≠ .filter p) :
    Writing.Assigns (c.boundMembers t) (c.write d t) := by
  cases c with
  | count =>
    refine .inr (.before (.text _) (.before (.identifier d _) ?_))
    exact .before (.text _) (.tableName d t)
  | select members =>
    refine .checked (fun _ => Table.targetColumns_not_duplicate) (fun _ _ => rfl)
      fun columns _ => ?_
    refine .before (.text _) (.before (writeLines_plain ?_ columns) ?_)
    · intro c
      exact .before (.identifier d _) (.before (.text _) (.identifier d _))
    · exact .before (.text _) (.tableName d t)
  | insert members ambient =>
    refine .checked (fun _ => insertColumns_not_duplicate) (fun e refused => ?_)
      fun columns found => ?_
    · simp only [boundMembers, refused]
    · simp only [boundMembers, found]
      refine .before (.text _) (.before (.tableName d t) (.before (.text _) ?_))
      refine .before (writeLines_plain (fun c => .identifier d _) columns) (.before (.text _) ?_)
      exact .behind (writeLines_fills (writeValue_fills d ambient) columns) (.text _)
  | update members ambient =>
    refine .checked (fun _ => Table.targetColumns_not_duplicate) (fun e refused => ?_)
      fun columns found => ?_
    · simp only [boundMembers, refused]
    · simp only [boundMembers, found]
      refine .before (.text _) (.before (.tableName d t) (.before (.text _) ?_))
      refine writeLines_fills (fun c => ?_) columns
      exact .before (.identifier d _) (.before (.text _) (writeValue_fills d ambient c))
  | delete => exact .inr (.before (.text _) (.tableName d t))
  | truncate => exact .inr (.before (.text _) (.tableName d t))
  | filter p => exact absurd rfl (unfiltered p)
  | orderBy member direction | thenBy member direction =>
    refine .checked (fun _ => Table.mappedColumn_not_duplicate) (fun _ _ => rfl) fun c _ => ?_
    exact .before (.separator _) (.before (.text _) (writeKey_fills d c direction))

end Command

namespace Builder

/-- A command without a predicate is no duplicate of anything, as a step on a statement where its
members are free. It binds them, and asks nothing. -/
theorem command_assigns {b : Builder} {c : Command} (unfiltered : ∀ p, c ≠ .filter p)
    (free : (b.writer.names ++ c.boundMembers b.table).Nodup) :
    (∀ name, (b.command c).1 ≠ .error (.duplicateParameter name)) ∧
      (b.command c).2.writer.entries =
        b.writer.entries ++ (c.boundMembers b.table).map (·, .null) ∧
      (b.command c).2.writer.calls = b.writer.calls := by
  rcases c.write_assigns b.dialect b.table unfiltered with ⟨e, plain, refused, none⟩ | fills
  · have run : b.writer.exec (c.write b.dialect b.table) = (.error e, b.writer) := by
      rw [refused, Writer.exec_throw]
    rw [command_failed run, none]
    refine ⟨fun name same => ?_, (List.append_nil _).symm, rfl⟩
    cases same
    cases plain
  · obtain ⟨v, run, entries, calls⟩ := fills b.writer free
    have ok : b.command c = (.ok (), _) := command_ok run
    rw [ok]
    exact ⟨fun name => nofun, entries, calls⟩

end Builder

end BoundSql
