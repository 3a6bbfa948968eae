import BoundSql.Table

/-!
# A table through its columns

The view of a table is the list of its columns. Main statements: name, schema and columns determine
the table (`Table.ext_columns`), no two columns have one member (`Table.distinct`), and a member
leads to the column that is declared for it (`Table.column?_eq_some_iff`). Then what a statement can
use: the mapped column of a member, and the columns that a choice of members leaves.
-/

namespace BoundSql

namespace Table

/-! ## The index -/

/-- A member is indexed at its position, and nothing else is. -/
theorem index_exact (t : Table) :
    t.index.Exact fun i => (t.columns.map Column.member)[i]? := by
  intro member i
  dsimp only
  rw [t.index_eq, List.getElem?_map]

/-- No member is declared twice. -/
theorem distinct (t : Table) : (t.columns.map Column.member).Nodup :=
  Index.nodup_of_exact t.index_exact

/-- The index follows from the columns. -/
theorem ext_columns {t t' : Table} (name : t.name = t'.name) (schema : t.schema = t'.schema)
    (columns : t.columns = t'.columns) : t = t' := by
  obtain ⟨_, _, _, index, exact_, _⟩ := t
  obtain ⟨_, _, _, index', exact', _⟩ := t'
  subst name schema columns
  obtain rfl : index = index' := Index.eq_of_exact exact_ exact'
  rfl

/-- The table of finished columns. -/
def ofColumns (name : String) (schema : Option String) (columns : List Column)
    (distinct : (columns.map Column.member).Nodup)
    (key_of_auto : ∀ c ∈ columns, c.autoIncrement = true → c.primaryKey = true) : Table where
  name
  schema
  columns
  index := Index.addAll ∅ 0 (columns.map Column.member)
  index_eq := by
    intro member i
    have none : Index.Exact ∅ fun i => ([] : List String)[i]? := fun _ _ => by simp
    have laid := Index.exact_addAll none distinct
    rw [← List.getElem?_map]
    exact laid member i
  key_of_auto

/-! ## Looking members up -/

variable {t : Table} {member : String} {c : Column}

/-- The column of a member is the one that is declared for it, mapped or not. -/
theorem column?_eq_some_iff : t.column? member = some c ↔ c ∈ t.columns ∧ c.member = member := by
  unfold column?
  rw [Option.bind_eq_some_iff]
  constructor
  · rintro ⟨i, found, here⟩
    have named := (t.index_eq member i).1 found
    rw [here] at named
    exact ⟨List.mem_of_getElem? here, Option.some.inj named⟩
  · rintro ⟨mem, rfl⟩
    obtain ⟨i, here⟩ := List.mem_iff_getElem?.1 mem
    exact ⟨i, (t.index_eq c.member i).2 (congrArg (Option.map Column.member) here), here⟩

theorem column?_eq_none_iff : t.column? member = none ↔ ∀ c ∈ t.columns, c.member ≠ member := by
  rw [Option.eq_none_iff_forall_ne_some]
  exact ⟨fun none c mem named => none c (column?_eq_some_iff.2 ⟨mem, named⟩),
    fun absent c found => absent c (column?_eq_some_iff.1 found).1 (column?_eq_some_iff.1 found).2⟩

/-- The index leads where a search of the columns does. -/
theorem column?_eq_find? (t : Table) (member : String) :
    t.column? member = t.columns.find? fun c => c.member == member := by
  cases found : t.columns.find? fun c => c.member == member with
  | some c =>
    exact column?_eq_some_iff.2
      ⟨List.mem_of_find?_eq_some found, by simpa using List.find?_some found⟩
  | none => exact column?_eq_none_iff.2 (by simpa using found)

/-- Why a member has no column in statements. -/
inductive Unusable (t : Table) (member : String) : StatementError → Prop
  | unknown (absent : ∀ c ∈ t.columns, c.member ≠ member) :
      Unusable t member (t.unknownMember member)
  | unmapped {c : Column} (mem : c ∈ t.columns) (named : c.member = member)
      (hidden : c.mapped = false) :
      Unusable t member (.mapping member "member is not mapped to a column")

theorem mappedColumn_eq_error_iff {e : StatementError} :
    t.mappedColumn member = .error e ↔ t.Unusable member e := by
  constructor
  · intro refused
    unfold mappedColumn at refused
    split at refused
    · next c found =>
      obtain ⟨mem, named⟩ := column?_eq_some_iff.1 found
      split at refused
      · cases refused
      · next hidden =>
        cases refused
        exact .unmapped mem named (Bool.eq_false_iff.2 hidden)
    · next absent =>
      cases refused
      exact .unknown (column?_eq_none_iff.1 absent)
  · rintro (absent | ⟨mem, named, hidden⟩)
    · rw [mappedColumn, column?_eq_none_iff.2 absent]
    · rw [mappedColumn, column?_eq_some_iff.2 ⟨mem, named⟩]
      exact if_neg (Bool.eq_false_iff.1 hidden)

/-- A member can be used exactly if a mapped column is declared for it. -/
theorem mappedColumn_eq_ok_iff :
    t.mappedColumn member = .ok c ↔ c ∈ t.columns ∧ c.member = member ∧ c.mapped = true := by
  rw [← and_assoc, ← column?_eq_some_iff, mappedColumn]
  cases t.column? member with
  | none => exact iff_of_false nofun fun found => nomatch found.1
  | some c' =>
    dsimp only
    by_cases shown : c'.mapped = true
    · rw [if_pos shown]
      constructor
      · intro same
        cases same
        exact ⟨rfl, shown⟩
      · rintro ⟨same, -⟩
        cases same
        rfl
    · rw [if_neg shown]
      refine iff_of_false nofun ?_
      rintro ⟨same, shown'⟩
      cases same
      exact shown shown'

/-- There is one reason why a member has no column. -/
theorem Unusable.unique {e e' : StatementError}
    (h : t.Unusable member e) (h' : t.Unusable member e') : e = e' :=
  Except.error.inj ((mappedColumn_eq_error_iff.2 h).symm.trans (mappedColumn_eq_error_iff.2 h'))

theorem mappedColumn_not_duplicate {e : StatementError}
    (h : t.mappedColumn member = .error e) : e.isDuplicateParameter = false := by
  cases mappedColumn_eq_error_iff.1 h <;> rfl

/-! ## The columns of a statement -/

/-- The columns of a statement are columns of the table, in their order. -/
theorem targetColumns_sublist {t : Table} {members : Option (List String)} {statement : String}
    {columns : List Column} (h : t.targetColumns members statement = .ok columns) :
    columns.Sublist t.columns := by
  have mapped : t.mappedColumns.Sublist t.columns := List.filter_sublist
  unfold targetColumns at h
  cases members with
  | none =>
    dsimp only at h
    split at h
    · cases h
    · cases h
    · next chosen =>
      cases chosen
      cases h
      exact mapped
  | some names =>
    dsimp only at h
    split at h
    · cases h
    · cases h
    · next chosen =>
      cases h
      split at chosen
      · cases chosen
      · cases chosen
        exact List.filter_sublist.trans mapped

/-- A choice of members is never refused for a name that is taken. -/
theorem targetColumns_not_duplicate {t : Table} {members : Option (List String)}
    {statement : String} {e : StatementError} (h : t.targetColumns members statement = .error e) :
    e.isDuplicateParameter = false := by
  unfold targetColumns at h
  dsimp only at h
  split at h
  · next chosen =>
    cases h
    split at chosen
    · cases chosen
    · split at chosen
      · cases chosen
        rfl
      · cases chosen
  · cases h
    rfl
  · cases h

/-- A statement over no columns is refused. -/
theorem targetColumns_ne_nil {members : Option (List String)} {statement : String}
    {columns : List Column} (h : t.targetColumns members statement = .ok columns) :
    columns ≠ [] := by
  unfold targetColumns at h
  dsimp only at h
  split at h
  · cases h
  · cases h
  · next _ nonempty _ =>
    cases h
    exact nonempty

end Table

/-! ## A table to run statements over -/

namespace Account

/-- The number of an account, which the database counts up. -/
def number : Column :=
  ColumnDraft.resolve false { member := "id", memberType := .i32, primaryKey := true }

def owner : Column :=
  ColumnDraft.resolve false { member := "owner", memberType := .text, name := some "Owner" }

def level : Column :=
  ColumnDraft.resolve false { member := "level", memberType := .i32, nullable := true }

/-- The accounts that concrete runs are about. -/
def table : Table :=
  .ofColumns "Account" none [number, owner, level] (by decide) (by decide)

theorem mappedColumn_owner : table.mappedColumn "owner" = .ok owner :=
  Table.mappedColumn_eq_ok_iff.2 ⟨by decide, rfl, rfl⟩

theorem mappedColumn_level : table.mappedColumn "level" = .ok level :=
  Table.mappedColumn_eq_ok_iff.2 ⟨by decide, rfl, rfl⟩

end Account

end BoundSql
