import Mathlib.Data.List.Forall2
import BoundSql.Table.Lemmas

/-!
# Building a table

A table is built from drafts of its columns in one pass, which checks each column against those in
front of it and settles what its draft leaves open. `TableDraft.build_law` says what comes out of
it. Drafts are refused for the first column that repeats a member or counts up without being a key,
and else are settled to exactly one table: the drafts in their order with defaults filled in
(`TableDraft.Settles`), where each member leads to its column and only a sole integer key counts up
without being told to.
-/

namespace BoundSql

namespace ColumnDraft

/-! ## Faults -/

/-- No member is declared twice, and no column is told to count up without being a key. -/
structure Sound (columns : List ColumnDraft) : Prop where
  distinct : (columns.map member).Nodup
  keyed : ∀ c ∈ columns, c.autoIncrement = some true → c.primaryKey = true

/-- What is wrong with a column, given the members that are declared before it. A column that is at
fault in both ways is reported as a repetition. -/
inductive Faulty (table : String) (earlier : List String) (c : ColumnDraft) : StatementError → Prop
  | repeated (again : c.member ∈ earlier) :
      Faulty table earlier c (.mapping c.member ("declared twice on table '" ++ table ++ "'"))
  | misplaced (new : c.member ∉ earlier) (counts : c.autoIncrement = some true)
      (plain : c.primaryKey = false) :
      Faulty table earlier c (.mapping c.member "auto-increment column must be a primary key")

variable {table : String} {earlier : List String} {cs before after : List ColumnDraft}
  {c : ColumnDraft} {e : StatementError}

instance decidableSound (columns : List ColumnDraft) : Decidable (Sound columns) :=
  decidable_of_iff ((columns.map member).Nodup ∧
      ∀ c ∈ columns, c.autoIncrement = some true → c.primaryKey = true)
    ⟨fun ⟨distinct, keyed⟩ => ⟨distinct, keyed⟩, fun ⟨distinct, keyed⟩ => ⟨distinct, keyed⟩⟩

theorem sound_nil : Sound [] :=
  ⟨List.nodup_nil, List.forall_mem_nil _⟩

/-- A column is sound in front of others if it is not misplaced and its member is new to them. -/
theorem sound_cons_iff :
    Sound (c :: cs) ↔ ¬c.Misplaced ∧ c.member ∉ cs.map member ∧ Sound cs := by
  constructor
  · rintro ⟨distinct, keyed⟩
    obtain ⟨new, distinct⟩ := List.nodup_cons.1 distinct
    refine ⟨?_, new, distinct, fun c' mem => keyed c' (List.mem_cons_of_mem c mem)⟩
    rintro ⟨counts, plain⟩
    rw [keyed c List.mem_cons_self counts] at plain
    cases plain
  · rintro ⟨rule, new, distinct, keyed⟩
    refine ⟨List.nodup_cons.2 ⟨new, distinct⟩, fun c' mem counts => ?_⟩
    rcases List.mem_cons.1 mem with rfl | mem
    · exact Bool.not_eq_false _ ▸ fun plain => rule ⟨counts, plain⟩
    · exact keyed c' mem counts

/-- Sound drafts are those of a table's columns. -/
theorem Sound.exists_table (sound : Sound cs) (name : String) (schema : Option String)
    (composite : Bool) : ∃ t : Table,
      t.name = name ∧ t.schema = schema ∧ t.columns = cs.map (·.resolve composite) := by
  refine ⟨.ofColumns name schema (cs.map (·.resolve composite)) ?_ ?_, rfl, rfl, rfl⟩
  · rw [List.map_map]
    exact sound.distinct
  · intro column mem auto
    obtain ⟨c, among, rfl⟩ := List.mem_map.1 mem
    refine primaryKey_of_resolve ?_ auto
    rintro ⟨counts, plain⟩
    rw [sound.keyed c among counts] at plain
    cases plain

end ColumnDraft

namespace Table

variable {t t' : Table} {composite : Bool} {c : ColumnDraft} {cs : List ColumnDraft}
  {e : StatementError}

theorem index_eq_none_iff {member : String} :
    t.index[member]? = none ↔ member ∉ t.columns.map Column.member :=
  Index.eq_none_iff_of_exact t.index_exact

/-- What can come of adding a column: its draft is at fault, or it stands behind the others. -/
theorem add_cases (t : Table) (composite : Bool) (c : ColumnDraft) :
    (∃ e, c.Faulty t.name (t.columns.map Column.member) e ∧ t.add composite c = .error e) ∨
    c.member ∉ t.columns.map Column.member ∧ ¬c.Misplaced ∧
      ∃ u, t.add composite c = .ok u ∧ u.name = t.name ∧ u.schema = t.schema ∧
        u.columns = t.columns ++ [c.resolve composite] := by
  unfold add
  split
  · next i found =>
    have again : c.member ∈ t.columns.map Column.member := by
      rw [← Decidable.not_not (p := _ ∈ _), ← index_eq_none_iff, found]
      exact nofun
    exact .inl ⟨_, .repeated again, rfl⟩
  · next fresh =>
    have new := index_eq_none_iff.1 fresh
    split
    · next rule => exact .inl ⟨_, .misplaced new rule.1 rule.2, rfl⟩
    · next rule => exact .inr ⟨new, rule, _, rfl, rfl, rfl, rfl⟩

/-- There is one thing wrong with a draft at most. -/
theorem add_eq_error_iff :
    t.add composite c = .error e ↔ c.Faulty t.name (t.columns.map Column.member) e := by
  obtain ⟨e', faulty, refused⟩ | ⟨new, rule, u, added, -⟩ := t.add_cases composite c
  · rw [refused, Except.error.injEq]
    refine ⟨fun same => same ▸ faulty, fun faulty' => ?_⟩
    cases faulty with
    | repeated again =>
      cases faulty' with
      | repeated => rfl
      | misplaced new => exact absurd again new
    | misplaced new =>
      cases faulty' with
      | repeated again => exact absurd again new
      | misplaced => rfl
  · rw [added]
    refine iff_of_false nofun ?_
    rintro (again | ⟨-, counts, plain⟩)
    · exact new again
    · exact rule ⟨counts, plain⟩

/-- Adding columns comes to an end exactly if they are sound and their members new, and then they
stand behind the others. -/
theorem addAll_eq_ok_iff : t.addAll composite cs = .ok t' ↔
    (ColumnDraft.Sound cs ∧ ∀ c ∈ cs, c.member ∉ t.columns.map Column.member) ∧
      t'.name = t.name ∧ t'.schema = t.schema ∧
        t'.columns = t.columns ++ cs.map (·.resolve composite) := by
  induction cs generalizing t with
  | nil =>
    rw [addAll, Except.ok.injEq, List.map_nil, List.append_nil]
    constructor
    · rintro rfl
      exact ⟨⟨ColumnDraft.sound_nil, List.forall_mem_nil _⟩, rfl, rfl, rfl⟩
    · rintro ⟨-, name, schema, columns⟩
      exact (ext_columns name schema columns).symm
  | cons c rest ih =>
    rw [addAll, ColumnDraft.sound_cons_iff, List.forall_mem_cons]
    obtain ⟨e, faulty, refused⟩ | ⟨new, rule, u, added, name, schema, columns⟩ :=
      t.add_cases composite c
    · rw [refused]
      refine iff_of_false nofun ?_
      rintro ⟨⟨⟨rule, -⟩, new, -⟩, -⟩
      rcases faulty with again | ⟨-, counts, plain⟩
      · exact new again
      · exact rule ⟨counts, plain⟩
    · rw [added]
      dsimp only
      have members (m : String) : m ∉ u.columns.map Column.member ↔
          m ∉ t.columns.map Column.member ∧ m ≠ c.member := by
        rw [columns, List.map_append, List.mem_append, not_or]
        exact and_congr_right fun _ => by simp [ColumnDraft.resolve]
      rw [ih, name, schema, columns, List.append_assoc]
      refine and_congr_left fun _ => ?_
      simp only [← columns, members]
      constructor
      · rintro ⟨sound, apart⟩
        refine ⟨⟨rule, fun again => ?_, sound⟩, new, fun c' mem => (apart c' mem).1⟩
        obtain ⟨c', mem, same⟩ := List.mem_map.1 again
        exact (apart c' mem).2 same
      · rintro ⟨⟨-, again, sound⟩, -, apart⟩
        exact ⟨sound, fun c' mem => ⟨apart c' mem, fun same =>
          again (List.mem_map.2 ⟨c', mem, same⟩)⟩⟩

/-- Adding columns ends at the first that something is wrong with. -/
theorem addAll_eq_error_iff : t.addAll composite cs = .error e ↔
    ∃ before c after u, cs = before ++ c :: after ∧ t.addAll composite before = .ok u ∧
      u.add composite c = .error e := by
  induction cs generalizing t with
  | nil =>
    refine iff_of_false nofun ?_
    rintro ⟨before, c, after, -, split, -⟩
    exact List.append_ne_nil_of_right_ne_nil before (List.cons_ne_nil c after) split.symm
  | cons c rest ih =>
    rw [addAll]
    cases added : t.add composite c with
    | error e' =>
      constructor
      · rintro ⟨⟩
        exact ⟨[], c, rest, t, rfl, rfl, added⟩
      · rintro ⟨_ | ⟨first, before⟩, c', after, u, split, ran, refused⟩
        · cases split
          cases ran
          rw [added] at refused
          exact refused
        · cases split
          rw [addAll, added] at ran
          cases ran
    | ok u =>
      dsimp only
      rw [ih]
      constructor
      · rintro ⟨before, c', after, v, rfl, ran, refused⟩
        exact ⟨c :: before, c', after, v, rfl, by rw [addAll, added]; exact ran, refused⟩
      · rintro ⟨_ | ⟨first, before⟩, c', after, v, split, ran, refused⟩
        · cases split
          cases ran
          rw [added] at refused
          cases refused
        · cases split
          rw [addAll, added] at ran
          exact ⟨before, c', after, v, rfl, ran, refused⟩

end Table

namespace ColumnDraft

/-! ## Settling -/

/-- A column is what its draft says, with defaults for what the draft leaves open. Whether it counts
up is settled here only if the draft says so. -/
structure FilledIn (c : ColumnDraft) (column : Column) : Prop where
  member : column.member = c.member
  memberType : column.memberType = c.memberType
  named : ∀ name, c.name = some name → column.name = name
  unnamed : c.name = none → column.name = c.member
  placed : ∀ order, c.order = some order → column.order = order
  unplaced : c.order = none → column.order = -1
  ambient : column.ambient = c.ambient
  primaryKey : column.primaryKey = c.primaryKey
  nullable : column.nullable = c.nullable
  mapped : column.mapped = c.mapped
  told : ∀ flag, c.autoIncrement = some flag → column.autoIncrement = flag

theorem filledIn_resolve (composite : Bool) (c : ColumnDraft) :
    c.FilledIn (c.resolve composite) where
  member := rfl
  memberType := rfl
  named name given := by simp [resolve, given]
  unnamed open_ := by simp [resolve, open_]
  placed order given := by simp [resolve, given]
  unplaced open_ := by simp [resolve, open_]
  ambient := rfl
  primaryKey := rfl
  nullable := rfl
  mapped := rfl
  told flag given := by simp [resolve, given]

/-- The drafts' words and a column's flag determine the column. -/
theorem FilledIn.eq {c : ColumnDraft} {column column' : Column} (h : c.FilledIn column)
    (h' : c.FilledIn column')
    (same : column.autoIncrement = column'.autoIncrement) : column = column' := by
  have name : column.name = column'.name := by
    cases given : c.name with
    | some name => rw [h.named name given, h'.named name given]
    | none => rw [h.unnamed given, h'.unnamed given]
  have order : column.order = column'.order := by
    cases given : c.order with
    | some order => rw [h.placed order given, h'.placed order given]
    | none => rw [h.unplaced given, h'.unplaced given]
  obtain ⟨_, _, _, _, _, _, _, _, _⟩ := column
  obtain ⟨_, _, _, _, _, _, _, _, _⟩ := column'
  have := h.member.trans h'.member.symm
  have := h.memberType.trans h'.memberType.symm
  have := h.ambient.trans h'.ambient.symm
  have := h.primaryKey.trans h'.primaryKey.symm
  have := h.nullable.trans h'.nullable.symm
  have := h.mapped.trans h'.mapped.symm
  simp_all

end ColumnDraft

namespace TableDraft

/-- The draft at a position is the only primary key, among mapped and unmapped ones. -/
structure SoleKey (d : TableDraft) (i : Nat) : Prop where
  key : ∃ c, d.columns[i]? = some c ∧ c.primaryKey = true
  sole : ∀ j c, d.columns[j]? = some c → c.primaryKey = true → j = i

/-- The column at a position counts up although its draft does not say so. -/
structure Inferred (d : TableDraft) (t : Table) (i : Nat) : Prop where
  untold : ∃ c, d.columns[i]? = some c ∧ c.autoIncrement = none
  counts : ∃ column, t.columns[i]? = some column ∧ column.autoIncrement = true

/-- A table is what drafts are settled to. -/
structure Settles (d : TableDraft) (t : Table) : Prop where
  name : t.name = d.name
  schema : t.schema = d.schema
  /-- The columns are the drafts in their order, with defaults filled in. -/
  columns : List.Forall₂ ColumnDraft.FilledIn d.columns t.columns
  /-- A column that is not told counts up exactly if it is the sole key, and an integer. -/
  inferred : ∀ (i : Nat) (c : ColumnDraft), d.columns[i]? = some c → c.autoIncrement = none →
    (d.Inferred t i ↔ d.SoleKey i ∧ c.memberType.isInteger = true)
  /-- At most one column counts up without being told to. -/
  once : ∀ i j, d.Inferred t i → d.Inferred t j → i = j
  /-- Only a primary key counts up. -/
  keyed : ∀ column ∈ t.columns, column.autoIncrement = true → column.primaryKey = true
  /-- No two columns have one member. -/
  distinct : ∀ (i j : Nat) (a b : Column), t.columns[i]? = some a → t.columns[j]? = some b →
    a.member = b.member → i = j
  /-- A member leads to its column, and any other name to none. -/
  found : ∀ member column, t.column? member = some column ↔
    column ∈ t.columns ∧ column.member = member
  absent : ∀ member, t.column? member = none ↔ member ∉ d.columns.map ColumnDraft.member
  /-- In a statement a member has its column exactly if that is mapped. -/
  usable : ∀ member column,
    t.mappedColumn member = .ok column ↔ t.column? member = some column ∧ column.mapped = true

variable {d : TableDraft} {t : Table} {e : StatementError}

/-- A table that is built has the drafts' columns. -/
theorem build_eq_ok_iff : d.build = .ok t ↔ ColumnDraft.Sound d.columns ∧
    t.name = d.name ∧ t.schema = d.schema ∧ t.columns = d.columns.map (·.resolve d.composite) := by
  rw [build, Table.addAll_eq_ok_iff]
  refine and_congr (and_iff_left fun _ _ => List.not_mem_nil) ?_
  rw [Table.empty, List.nil_append]

/-- Drafts are refused for the first one that is at fault. -/
theorem build_eq_error_iff : d.build = .error e ↔ ∃ before c after,
    d.columns = before ++ c :: after ∧ ColumnDraft.Sound before ∧
      c.Faulty d.name (before.map ColumnDraft.member) e := by
  have earlier (before : List ColumnDraft) :
      (before.map (·.resolve d.composite)).map Column.member = before.map ColumnDraft.member := by
    rw [List.map_map]
    rfl
  rw [build, Table.addAll_eq_error_iff]
  simp only [Table.addAll_eq_ok_iff, Table.add_eq_error_iff, Table.empty, List.nil_append]
  constructor
  · rintro ⟨before, c, after, u, split, ⟨⟨sound, -⟩, name, -, columns⟩, faulty⟩
    rw [name, columns, earlier] at faulty
    exact ⟨before, c, after, split, sound, faulty⟩
  · rintro ⟨before, c, after, split, sound, faulty⟩
    obtain ⟨u, name, schema, columns⟩ := sound.exists_table d.name d.schema d.composite
    refine ⟨before, c, after, u, split, ⟨⟨sound, ?_⟩, name, schema, columns⟩, ?_⟩
    · exact fun _ _ => List.not_mem_nil
    · rwa [name, columns, earlier]

theorem exists_build_iff : (∃ t, d.build = .ok t) ↔ ColumnDraft.Sound d.columns := by
  constructor
  · rintro ⟨t, built⟩
    exact (build_eq_ok_iff.1 built).1
  · intro sound
    obtain ⟨t, settled⟩ := sound.exists_table d.name d.schema d.composite
    exact ⟨t, build_eq_ok_iff.2 ⟨sound, settled⟩⟩

/-! ## Sole keys -/

/-- What holds of one place of a list holds of no other exactly if it does not hold twice. -/
theorem countP_lt_two_iff {cs : List ColumnDraft} {p : ColumnDraft → Bool} {i : Nat}
    {c : ColumnDraft} (here : cs[i]? = some c) (holds : p c = true) :
    cs.countP p < 2 ↔ ∀ j c', cs[j]? = some c' → p c' = true → j = i := by
  induction cs generalizing i with
  | nil => cases here
  | cons first rest ih =>
    cases i with
    | zero =>
      obtain rfl : first = c := by simpa using here
      rw [List.countP_cons_of_pos holds, show rest.countP p + 1 < 2 ↔ rest.countP p = 0 by omega,
        List.countP_eq_zero]
      constructor
      · intro none j c' there again
        cases j with
        | zero => rfl
        | succ j => exact absurd again (none c' (List.mem_of_getElem? there))
      · intro only c' mem again
        obtain ⟨j, there⟩ := List.mem_iff_getElem?.1 mem
        exact absurd (only (j + 1) c' there again) (Nat.succ_ne_zero j)
    | succ i =>
      by_cases first_holds : p first = true
      · have later : 0 < rest.countP p :=
          List.countP_pos_iff.2 ⟨c, List.mem_of_getElem? here, holds⟩
        rw [List.countP_cons_of_pos first_holds]
        refine iff_of_false (by omega) fun only => ?_
        exact absurd (only 0 first rfl first_holds) (Nat.succ_ne_zero i).symm
      · rw [List.countP_cons_of_neg first_holds, ih here]
        constructor
        · intro only j c' there again
          cases j with
          | zero =>
            obtain rfl : first = c' := by simpa using there
            exact absurd again first_holds
          | succ j => exact congrArg _ (only j c' there again)
        · intro only j c' there again
          exact Nat.succ.inj (only (j + 1) c' there again)

theorem composite_eq_false_iff {i : Nat} {c : ColumnDraft} (here : d.columns[i]? = some c)
    (key : c.primaryKey = true) : d.composite = false ↔ d.SoleKey i := by
  rw [composite, decide_eq_false_iff_not, Nat.not_le, countP_lt_two_iff here key]
  exact ⟨fun sole => ⟨⟨c, here, key⟩, sole⟩, fun sole => sole.sole⟩

/-! ## The law -/

theorem inferred_iff {i : Nat} {c : ColumnDraft} {column : Column}
    (draft : d.columns[i]? = some c) (untold : c.autoIncrement = none)
    (settled : t.columns[i]? = some column) :
    d.Inferred t i ↔ column.autoIncrement = true := by
  constructor
  · rintro ⟨-, column', settled', counts⟩
    rw [settled] at settled'
    cases settled'
    exact counts
  · intro counts
    exact ⟨⟨c, draft, untold⟩, column, settled, counts⟩

theorem settles_of_build (built : d.build = .ok t) : d.Settles t := by
  obtain ⟨-, name, schema, columns⟩ := build_eq_ok_iff.1 built
  have members : t.columns.map Column.member = d.columns.map ColumnDraft.member := by
    rw [columns, List.map_map]
    rfl
  have inferred (i : Nat) (c : ColumnDraft) (draft : d.columns[i]? = some c)
      (untold : c.autoIncrement = none) :
      d.Inferred t i ↔ d.SoleKey i ∧ c.memberType.isInteger = true := by
    have settled : t.columns[i]? = some (c.resolve d.composite) := by
      rw [columns, List.getElem?_map, draft, Option.map_some]
    rw [inferred_iff draft untold settled, ColumnDraft.resolve, untold, Option.getD_none,
      Bool.and_eq_true, Bool.and_eq_true, Bool.not_eq_true']
    refine and_congr_left fun _ => ⟨fun ⟨key, single⟩ => ?_, fun sole => ?_⟩
    · exact (composite_eq_false_iff draft key).1 single
    · obtain ⟨c', draft', key⟩ := sole.key
      rw [draft] at draft'
      cases draft'
      exact ⟨key, (composite_eq_false_iff draft key).2 sole⟩
  constructor
  case name => exact name
  case schema => exact schema
  case columns =>
    rw [columns, List.forall₂_map_right_iff, List.forall₂_same]
    exact fun c _ => c.filledIn_resolve _
  case inferred => exact inferred
  case once =>
    intro i j first second
    obtain ⟨c, draft, untold⟩ := first.untold
    obtain ⟨c', draft', untold'⟩ := second.untold
    obtain ⟨k, key, primary⟩ := ((inferred i c draft untold).1 first).1.key
    exact ((inferred j c' draft' untold').1 second).1.sole i k key primary
  case keyed => exact t.key_of_auto
  case distinct =>
    intro i j a b first second same
    have inside : i < (t.columns.map Column.member).length := by
      rw [List.length_map]
      exact (List.getElem?_eq_some_iff.1 first).1
    apply (List.getElem?_inj inside t.distinct).1
    rw [List.getElem?_map, List.getElem?_map, first, second, Option.map_some, Option.map_some, same]
  case found => exact fun _ _ => Table.column?_eq_some_iff
  case absent =>
    intro member
    rw [Table.column?_eq_none_iff, ← members, List.mem_map]
    simp
  case usable =>
    intro member column
    rw [Table.mappedColumn_eq_ok_iff, Table.column?_eq_some_iff, and_assoc]

/-- Drafts settle to one table at most. -/
theorem Settles.eq {t' : Table} (h : d.Settles t) (h' : d.Settles t') : t = t' := by
  have columns : t.columns = t'.columns := by
    apply List.ext_getElem
    · rw [← h.columns.length_eq, h'.columns.length_eq]
    intro i inside inside'
    have drafted : i < d.columns.length := h.columns.length_eq ▸ inside
    have filled := h.columns.get drafted inside
    have filled' := h'.columns.get drafted inside'
    have draft : d.columns[i]? = some d.columns[i] := List.getElem?_eq_getElem drafted
    apply filled.eq filled'
    cases told : d.columns[i].autoIncrement with
    | some flag => exact (filled.told flag told).trans (filled'.told flag told).symm
    | none =>
      rw [Bool.eq_iff_iff]
      have counts := inferred_iff draft told (List.getElem?_eq_getElem inside)
      have counts' := inferred_iff draft told (List.getElem?_eq_getElem inside')
      exact counts.symm.trans ((h.inferred i _ draft told).trans
        ((h'.inferred i _ draft told).symm.trans counts'))
  exact Table.ext_columns (h.name.trans h'.name.symm) (h.schema.trans h'.schema.symm) columns

/-- The law of building. Drafts make a table exactly if no member is declared twice and no column is
told to count up without being a key. The table is the one that the drafts settle to. Else the error
is about the first draft that breaks a rule, given those in front of it; if it breaks both, the
repeated member is reported. -/
theorem build_law (d : TableDraft) :
    ((∃ t, d.build = .ok t) ↔ ColumnDraft.Sound d.columns) ∧
    (∀ t, d.build = .ok t ↔ ColumnDraft.Sound d.columns ∧ d.Settles t) ∧
    ∀ e, d.build = .error e ↔ ∃ before c after, d.columns = before ++ c :: after ∧
      ColumnDraft.Sound before ∧ c.Faulty d.name (before.map ColumnDraft.member) e := by
  refine ⟨exists_build_iff, fun t => ⟨fun built => ?_, fun ⟨sound, settles⟩ => ?_⟩,
    fun e => build_eq_error_iff⟩
  · exact ⟨exists_build_iff.1 ⟨t, built⟩, settles_of_build built⟩
  · obtain ⟨t', built⟩ := exists_build_iff.2 sound
    rw [built, (settles_of_build built).eq settles]

end TableDraft

end BoundSql
