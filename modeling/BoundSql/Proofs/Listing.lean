import BoundSql.Proofs.Growth

/-!
# Statements that list columns

Selections, insertions and updates write one line for each of some columns. What they have in common
is `Listing`: a check that stands before all writing and says which columns are listed
(`Listing.target`), and a text for these columns (`Listing.text`).

The columns are known without the check: `Listing.columns` filters the declared ones, and
`Listing.target_of_knows` says that the check passes them on, if there are any. So they come in the
order of declaration, whatever the order of a choice.

The lines are written with a comma behind each, the last of which is trimmed off again. So commas
stand between them (`lines`), if there is a line at all; without one the trim would eat into what
stands in front, but the check lets no such statement pass.
-/

namespace BoundSql

/-! ## Columns -/

namespace Table

/-- The table describes all members of a choice, mapped or not. -/
def Knows (t : Table) (members : Option (List String)) : Prop :=
  ∀ names ∈ members, ∀ name ∈ names, ∃ c ∈ t.columns, c.member = name

/-- The mapped columns that a choice of members takes in; all of them without a choice. -/
def chosenColumns (t : Table) (members : Option (List String)) : List Column :=
  t.columns.filter fun c => c.mapped && members.all (·.contains c.member)

variable {t : Table} {names : List String}

theorem knows_none (t : Table) : t.Knows none := nofun

theorem knows_some : t.Knows (some names) ↔ ∀ name ∈ names, ∃ c ∈ t.columns, c.member = name :=
  ⟨fun known => known names rfl, fun known _ same => Option.some.inj same ▸ known⟩

/-- A choice of members that are not all known has a first one that is not. -/
theorem exists_unknown (unknown : ¬t.Knows (some names)) :
    ∃ before name after, names = before ++ name :: after ∧ t.Knows (some before) ∧
      ∀ c ∈ t.columns, c.member ≠ name := by
  simp only [knows_some] at unknown ⊢
  induction names with
  | nil => exact absurd (List.forall_mem_nil _) unknown
  | cons name names ih =>
    by_cases known : ∃ c ∈ t.columns, c.member = name
    · have later := fun rest => unknown (List.forall_mem_cons.2 ⟨known, rest⟩)
      obtain ⟨before, first, after, rfl, front, absent⟩ := ih later
      exact ⟨name :: before, first, after, rfl, List.forall_mem_cons.2 ⟨known, front⟩, absent⟩
    · exact ⟨[], name, names, rfl, List.forall_mem_nil _, fun c mem same => known ⟨c, mem, same⟩⟩

theorem Knows.find?_eq_none (known : t.Knows (some names)) :
    (names.find? fun name => (t.column? name).isNone) = none := by
  rw [List.find?_eq_none]
  intro name mem
  obtain ⟨c, declared, named⟩ := knows_some.1 known name mem
  rw [column?_eq_some_iff.2 ⟨declared, named⟩]
  exact Bool.false_ne_true

/-- A choice of known members is refused only if it takes no column in. -/
theorem targetColumns_of_knows {members : Option (List String)} (known : t.Knows members)
    (statement : String) :
    t.targetColumns members statement =
      if t.chosenColumns members = [] then
        .error (.validation (statement ++ " on '" ++ t.name ++ "' has no columns"))
      else .ok (t.chosenColumns members) := by
  unfold targetColumns
  cases members with
  | none =>
    have all : t.mappedColumns = t.chosenColumns none := by simp [mappedColumns, chosenColumns]
    rw [all]
    cases t.chosenColumns none <;> rfl
  | some names =>
    have chosen : t.mappedColumns.filter (fun c => names.contains c.member) =
        t.chosenColumns (some names) := by
      simp [mappedColumns, chosenColumns, List.filter_filter, Bool.and_comm]
    dsimp only
    rw [known.find?_eq_none, chosen]
    cases t.chosenColumns (some names) <;> rfl

/-- The first member that the table does not describe is the one that is reported, whatever stands
behind it. -/
theorem targetColumns_of_unknown {before : List String} (known : t.Knows (some before))
    {unknown : String} (absent : ∀ c ∈ t.columns, c.member ≠ unknown) (after : List String)
    (statement : String) :
    t.targetColumns (some (before ++ unknown :: after)) statement =
      .error (t.unknownMember unknown) := by
  have first : ((before ++ unknown :: after).find? fun name => (t.column? name).isNone) =
      some unknown := by
    rw [List.find?_append, known.find?_eq_none, Option.none_or, List.find?_cons,
      column?_eq_none_iff.2 absent]
    rfl
  unfold targetColumns
  dsimp only
  rw [first]

end Table

/-! ## Texts -/

/-- Some items as lines, with commas between them. -/
def lines (items : List String) : String :=
  ",".intercalate (items.map ("\n    " ++ ·))

/-- What stands for a column's value: its ambient text in ambient mode, if it has one, and else the
placeholder of its member. -/
def Column.valueText (d : Dialect) (ambient : Bool) (c : Column) : String :=
  if ambient then c.ambient.getD (d.placeholder c.member) else d.placeholder c.member

namespace Writing

/-- The computation appends a front part of a text, and the whole of it if it succeeds. -/
def Spells (s : String) (x : Writing Unit) : Prop :=
  ∀ w : Writer, ∃ part rest, s = part ++ rest ∧ (w.exec x).2.text = w.text ++ part ∧
    ((w.exec x).1 = .ok () → rest = "")

namespace Spells

variable {s s' : String} {x y : Writing Unit}

theorem pure : Spells "" (pure ()) :=
  fun _ => ⟨"", "", rfl, String.append_empty.symm, fun _ => rfl⟩

theorem throw (s : String) (e : StatementError) : Spells s (throw e) :=
  fun _ => ⟨"", s, String.empty_append.symm, String.append_empty.symm, nofun⟩

theorem text (s : String) : Spells s (Writing.text s) :=
  fun _ => ⟨s, "", String.append_empty.symm, rfl, fun _ => rfl⟩

theorem identifier (d : Dialect) (name : String) :
    Spells (d.identifier name) (Writing.identifier d name) :=
  text _

theorem tableName (d : Dialect) (t : Table) : Spells (tableText d t) (Writing.tableName d t) := by
  rw [tableName_eq_text]
  exact text _

/-- A name that is taken ends the text in front of its placeholder. -/
theorem bindName (d : Dialect) (name : String) (value : Value) :
    Spells (d.placeholder name) (Writing.bind d name value) := by
  intro w
  by_cases taken : name ∈ w.names
  · rw [w.exec_bindName_of_mem d value taken]
    exact ⟨"", _, String.empty_append.symm, String.append_empty.symm, nofun⟩
  · obtain ⟨p, -, run⟩ := w.exec_bindName_of_not_mem d value taken
    rw [run]
    exact ⟨_, "", String.append_empty.symm, rfl, fun _ => rfl⟩

theorem bind (hx : Spells s x) (hy : Spells s' y) : Spells (s ++ s') (x >>= fun _ => y) := by
  intro w
  obtain ⟨part, rest, split, first, whole⟩ := hx w
  rw [Writer.exec_bind]
  revert first whole
  rcases w.exec x with ⟨e | ⟨⟩, v⟩
  · intro first _
    exact ⟨part, rest ++ s', by rw [split, String.append_assoc], first, nofun⟩
  · intro first whole
    obtain ⟨part', rest', split', second, whole'⟩ := hy v
    rw [whole rfl, String.append_empty] at split
    refine ⟨s ++ part', rest', by rw [split', String.append_assoc], ?_, whole'⟩
    show (v.exec y).2.text = _
    rw [second, show v.text = _ from first, split, String.append_assoc]

theorem separated {α : Type} {between : String} {write : α → Writing Unit} {spelling : α → String}
    (hwrite : ∀ a, Spells (spelling a) (write a)) (items : List α) :
    Spells (between.intercalate (items.map spelling)) (Writing.separated between write items) := by
  fun_induction Writing.separated between write items with
  | case1 => exact pure
  | case2 item => exact hwrite item
  | case3 item next rest ih =>
    rw [List.map_cons, List.map_cons, String.intercalate_cons_cons, String.append_assoc]
    exact (hwrite item).bind ((text between).bind ih)

/-- What a success has appended. -/
theorem of_ok (hx : Spells s x) {w v : Writer} (run : w.exec x = (.ok (), v)) :
    v.text = w.text ++ s := by
  obtain ⟨part, rest, split, appended, whole⟩ := hx w
  rw [run] at appended whole
  rw [split, whole rfl, String.append_empty]
  exact appended

end Spells

end Writing

namespace Command

open Writing (Spells)

theorem writeLines_spells {write : Column → Writing Unit} {item : Column → String}
    (h : ∀ c, Spells (item c) (write c)) {columns : List Column} (some : columns ≠ []) :
    Spells (lines (columns.map item)) (writeLines write columns) := by
  rw [lines, List.map_map, writeLines_eq_separated write some]
  exact .separated (fun c => (Spells.text _).bind (h c)) columns

theorem writeValue_spells (d : Dialect) (ambient : Bool) (c : Column) :
    Spells (c.valueText d ambient) (writeValue d ambient c) := by
  have bound := Spells.bindName d c.member .null
  unfold writeValue Column.valueText
  cases c.ambient with
  | none => cases ambient <;> exact bound
  | some literal =>
    cases ambient with
    | true => exact .text literal
    | false => exact bound

end Command

/-! ## Listings -/

/-- The kinds of statements that list columns. -/
inductive Listing
  | selection
  | insertion (ambient : Bool)
  | update (ambient : Bool)

namespace Listing

def command : Listing → Option (List String) → Command
  | .selection, members => .select members
  | .insertion ambient, members => .insert members ambient
  | .update ambient, members => .update members ambient

def name : Listing → String
  | .selection => "select"
  | .insertion _ => "insert"
  | .update _ => "update"

/-- Insertions leave out what counts up by itself. -/
def takes : Listing → Column → Bool
  | .insertion _, c => !c.autoIncrement
  | _, _ => true

/-- The columns to list: the declared ones that are mapped and chosen. -/
def columns (l : Listing) (t : Table) (members : Option (List String)) : List Column :=
  t.columns.filter fun c => c.mapped && members.all (·.contains c.member) && l.takes c

/-- The check before all writing. -/
def target (l : Listing) (t : Table) (members : Option (List String)) :
    Except StatementError (List Column) :=
  match l with
  | .insertion _ => Command.insertColumns t members
  | l => t.targetColumns members l.name

/-- Why a statement without columns is refused. -/
def vacancy (l : Listing) (t : Table) (members : Option (List String)) : String :=
  l.name ++ " on '" ++ t.name ++
    if t.chosenColumns members = [] then "' has no columns"
    else "' has only auto-increment columns"

/-- The words that open the statement. -/
def opening : Listing → String
  | .selection => "select"
  | .insertion _ => "insert into "
  | .update _ => "update "

/-- The statement behind its opening. -/
def remainder (d : Dialect) (t : Table) : Listing → List Column → String
  | .selection, columns =>
    lines (columns.map fun c => d.identifier c.name ++ (" as " ++ d.identifier c.member)) ++
      ("\nfrom " ++ Writing.tableText d t)
  | .insertion ambient, columns =>
    Writing.tableText d t ++ ("\n(" ++ (lines (columns.map fun c => d.identifier c.name) ++
      ("\n)\nvalues\n(" ++ (lines (columns.map (Column.valueText d ambient)) ++ "\n)"))))
  | .update ambient, columns =>
    Writing.tableText d t ++ ("\nset" ++
      lines (columns.map fun c => d.identifier c.name ++ (" = " ++ c.valueText d ambient)))

/-- The statement for some columns. -/
def text (d : Dialect) (t : Table) (l : Listing) (columns : List Column) : String :=
  l.opening ++ l.remainder d t columns

theorem columns_eq_filter (l : Listing) (t : Table) (members : Option (List String)) :
    l.columns t members = (t.chosenColumns members).filter l.takes := by
  rw [Table.chosenColumns, List.filter_filter]
  exact List.filter_congr fun c _ => Bool.and_comm ..

theorem columns_sublist (l : Listing) (t : Table) (members : Option (List String)) :
    (l.columns t members).Sublist t.columns :=
  List.filter_sublist

/-- No member is listed twice. -/
theorem columns_nodup (l : Listing) (t : Table) (members : Option (List String)) :
    ((l.columns t members).map Column.member).Nodup :=
  t.distinct.sublist ((l.columns_sublist t members).map _)

/-- A choice of known members passes the check if it leaves a column to list. -/
theorem target_of_knows (l : Listing) {t : Table} {members : Option (List String)}
    (known : t.Knows members) :
    l.target t members =
      if l.columns t members = [] then .error (.validation (l.vacancy t members))
      else .ok (l.columns t members) := by
  have chosen := fun statement => Table.targetColumns_of_knows known statement
  cases l with
  | insertion ambient =>
    have counted : (t.chosenColumns members).filter (takes (.insertion ambient)) =
        (t.chosenColumns members).filter fun c => !c.autoIncrement := rfl
    rw [columns_eq_filter, counted, vacancy, target, Command.insertColumns, chosen]
    by_cases none : t.chosenColumns members = []
    · rw [if_pos none, if_pos none, none, List.filter_nil, if_pos rfl]
      rfl
    · rw [if_neg none, if_neg none]
      dsimp only
      cases (t.chosenColumns members).filter fun c => !c.autoIncrement with
      | nil => rfl
      | cons c rest => rfl
  | selection | update =>
    have all : (t.chosenColumns members).filter (fun _ => true) = t.chosenColumns members :=
      List.filter_eq_self.2 fun _ _ => rfl
    rw [columns_eq_filter, show takes _ = fun _ => true from rfl, all, vacancy]
    refine (chosen _).trans ?_
    by_cases none : t.chosenColumns members = []
    · simp only [if_pos none]
    · simp only [if_neg none]

/-- A choice with an unknown member does not, whatever else it has. -/
theorem target_of_unknown (l : Listing) {t : Table} {before : List String}
    (known : t.Knows (some before)) {unknown : String}
    (absent : ∀ c ∈ t.columns, c.member ≠ unknown) (after : List String) :
    l.target t (some (before ++ unknown :: after)) = .error (t.unknownMember unknown) := by
  have refused := fun statement =>
    Table.targetColumns_of_unknown known absent after statement
  cases l with
  | insertion ambient => rw [target, Command.insertColumns, refused]
  | selection | update => exact refused _

/-- The check passes on the columns to list, if all members are known and there are any. -/
theorem target_eq_ok_iff {l : Listing} {t : Table} {members : Option (List String)}
    {columns : List Column} :
    l.target t members = .ok columns ↔
      t.Knows members ∧ columns = l.columns t members ∧ columns ≠ [] := by
  by_cases known : t.Knows members
  · rw [l.target_of_knows known]
    by_cases none : l.columns t members = []
    · rw [if_pos none]
      refine iff_of_false nofun ?_
      rintro ⟨-, rfl, some⟩
      exact some none
    · rw [if_neg none]
      constructor
      · rintro ⟨⟩
        exact ⟨known, rfl, none⟩
      · rintro ⟨-, rfl, -⟩
        rfl
  · refine iff_of_false (fun listed => ?_) fun all => known all.1
    cases members with
    | none => exact known t.knows_none
    | some names =>
      obtain ⟨before, unknown, after, rfl, front, absent⟩ := Table.exists_unknown known
      rw [l.target_of_unknown front absent] at listed
      cases listed

/-- Behind the check, a listing writes its opening words and then its remainder, for the columns
that the check has passed on. -/
theorem write_eq_bind (d : Dialect) (t : Table) (l : Listing) :
    ∃ rest : List Column → Writing Unit,
      (∀ members, (l.command members).write d t =
        Writing.ofExcept (l.target t members) >>= fun columns => do
          Writing.text l.opening
          rest columns) ∧
      ∀ columns, columns ≠ [] → Writing.Spells (l.remainder d t columns) (rest columns) := by
  cases l with
  | selection =>
    refine ⟨_, fun members => rfl, fun columns some => ?_⟩
    refine .bind (Command.writeLines_spells (fun c => ?_) some) ?_
    · exact .bind (.identifier d _) (.bind (.text _) (.identifier d _))
    · exact .bind (.text _) (.tableName d t)
  | insertion ambient =>
    refine ⟨_, fun members => rfl, fun columns some => ?_⟩
    refine .bind (.tableName d t) (.bind (.text _) (.bind ?_ (.bind (.text _) ?_)))
    · exact Command.writeLines_spells (fun c => .identifier d _) some
    · refine .bind (Command.writeLines_spells (fun c => ?_) some) (.text _)
      exact Command.writeValue_spells d ambient c
  | update ambient =>
    refine ⟨_, fun members => rfl, fun columns some => ?_⟩
    refine .bind (.tableName d t) (.bind (.text _) ?_)
    refine Command.writeLines_spells (fun c => ?_) some
    exact .bind (.identifier d _) (.bind (.text _) (Command.writeValue_spells d ambient c))

variable {l : Listing} {t : Table} {members : Option (List String)}

/-- Two choices that the check does not tell apart make one statement. -/
theorem write_congr (d : Dialect) {other : Option (List String)}
    (same : l.target t members = l.target t other) :
    (l.command members).write d t = (l.command other).write d t := by
  obtain ⟨rest, write, -⟩ := l.write_eq_bind d t
  rw [write, write, same]

/-- A listing that is refused by the check leaves the statement as it was. -/
theorem exec_of_refused (d : Dialect) {e : StatementError} (refused : l.target t members = .error e)
    (w : Writer) : w.exec ((l.command members).write d t) = (.error e, w) := by
  obtain ⟨rest, write, -⟩ := l.write_eq_bind d t
  rw [write, refused]
  rfl

/-- A listing that passes the check writes something: its opening words at least. -/
theorem text_ne_of_listed (d : Dialect) {columns : List Column}
    (listed : l.target t members = .ok columns) (w : Writer) :
    (w.exec ((l.command members).write d t)).2.text ≠ w.text := by
  obtain ⟨rest, write, spells⟩ := l.write_eq_bind d t
  have run : w.exec ((l.command members).write d t) =
      ({ w with text := w.text ++ l.opening } : Writer).exec (rest columns) := by
    rw [write, listed]
    rfl
  obtain ⟨part, left, -, appended, -⟩ :=
    spells columns (target_eq_ok_iff.1 listed).2.2 { w with text := w.text ++ l.opening }
  rw [run, appended, String.append_assoc]
  intro same
  have empty : l.opening = "" := (String.append_eq_empty_iff.1 (String.append_eq_left_iff.1 same)).1
  cases l <;> simp [opening] at empty

/-- A listing writes a front part of the text for its columns, nothing at all if the check refuses
it and the whole text if it succeeds. -/
theorem write_spells (d : Dialect) (t : Table) (l : Listing) (members : Option (List String)) :
    Writing.Spells (l.text d t (l.columns t members)) ((l.command members).write d t) := by
  obtain ⟨rest, write, spells⟩ := l.write_eq_bind d t
  rw [write]
  cases checked : l.target t members with
  | error e => exact .throw _ e
  | ok columns =>
    obtain ⟨-, rfl, some⟩ := target_eq_ok_iff.1 checked
    exact (Writing.Spells.text l.opening).bind (spells _ some)

end Listing

end BoundSql
