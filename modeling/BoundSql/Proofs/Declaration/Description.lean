import BoundSql.Declaration
import BoundSql.Proofs.Building
import BoundSql.Proofs.Declaration.Merging

/-!
# What a declaration describes

The table of a declaration is laid down here without reading attributes or types: how a type is
classified (`Classified`), what a field says of its column (`Field.Describes`), and a declaration of
its table (`Describes`). Values are the last ones that the attributes give, defaults come from the
names, and names are always filled in.

A declaration is accepted exactly if it is a structure with named fields, without generic
parameters, whose attributes are all accepted. Then it describes one table, and building this table
is what its entity does (`entity_describe`).
-/

namespace BoundSql

namespace Declaration

/-! ## Types -/

/-- The names of the types that are told apart. -/
def memberTypes : List (String × MemberType) :=
  [ ("bool", .bool), ("i8", .i8), ("i16", .i16), ("i32", .i32), ("i64", .i64), ("isize", .i64),
    ("u8", .u8), ("u16", .u16), ("u32", .u32), ("u64", .u64), ("usize", .u64), ("f32", .f32),
    ("f64", .f64), ("Decimal", .decimal), ("String", .text), ("str", .text), ("char", .text),
    ("NaiveDate", .date), ("NaiveTime", .time), ("NaiveDateTime", .dateTime),
    ("DateTime", .timestamp), ("Uuid", .uuid), ("Value", .json), ("Json", .json) ]

/-- The member type of a type. A path is judged by its last name, whatever its arguments are; only a
vector with bytes for its sole argument is more than its name. -/
inductive Classified : FieldType → MemberType → Prop
  | reference {target : FieldType} {type : MemberType} (same : Classified target type) :
      Classified (.reference target) type
  | bytes (arguments : List (Option FieldType)) :
      Classified (.path "Vec" [some (.path "u8" arguments)]) .bytes
  | named {name : String} {type : MemberType} (listed : (name, type) ∈ memberTypes)
      (arguments : List (Option FieldType)) : Classified (.path name arguments) type
  | unlisted {name : String} {arguments : List (Option FieldType)}
      (absent : name ∉ memberTypes.map Prod.fst)
      (plain : ∀ inner, name = "Vec" → arguments ≠ [some (.path "u8" inner)]) :
      Classified (.path name arguments) .other
  | other : Classified .other .other

theorem namedMemberType_of_mem {name : String} {type : MemberType}
    (listed : (name, type) ∈ memberTypes) : FieldType.namedMemberType name = type := by
  have all : ∀ entry ∈ memberTypes, FieldType.namedMemberType entry.1 = entry.2 := by decide
  exact all _ listed

theorem namedMemberType_of_absent {name : String} (absent : name ∉ memberTypes.map Prod.fst) :
    FieldType.namedMemberType name = .other := by
  simp only [memberTypes, List.map_cons, List.map_nil, List.mem_cons, List.not_mem_nil, or_false,
    not_or] at absent
  simp only [FieldType.namedMemberType, absent, or_self, if_false]

theorem argumentOf?_eq_some_iff {wrapper : String} {t argument : FieldType} :
    t.argumentOf? wrapper = some argument ↔ t = .path wrapper [some argument] := by
  unfold FieldType.argumentOf?
  split
  · next name argument' =>
    by_cases same : name = wrapper
    · simp [same]
    · simp [same]
  · next shape =>
    refine iff_of_false nofun ?_
    rintro rfl
    exact shape _ _ rfl

theorem FieldType.name?_eq_some_iff {t : FieldType} {name : String} :
    t.name? = some name ↔ ∃ arguments, t = .path name arguments := by
  cases t <;> simp [FieldType.name?, eq_comm]

theorem classified_memberType (t : FieldType) : Classified t t.memberType := by
  fun_induction FieldType.memberType t with
  | case1 target ih => exact .reference ih
  | case2 name arguments item vector bytes =>
    obtain ⟨inner, rfl⟩ := FieldType.name?_eq_some_iff.1 bytes
    cases argumentOf?_eq_some_iff.1 vector
    exact .bytes inner
  | case3 name arguments item vector plain =>
    cases argumentOf?_eq_some_iff.1 vector
    refine .unlisted (by decide) fun inner _ same => plain ?_
    cases same
    rfl
  | case4 name arguments scalar =>
    by_cases listed : name ∈ memberTypes.map Prod.fst
    · obtain ⟨⟨_, type⟩, entry, rfl⟩ := List.mem_map.1 listed
      rw [namedMemberType_of_mem entry]
      exact .named entry arguments
    · rw [namedMemberType_of_absent listed]
      refine .unlisted listed ?_
      rintro inner rfl rfl
      cases scalar
  | case5 => exact .other

/-- Every type has one member type. -/
theorem classified_iff {t : FieldType} {type : MemberType} :
    Classified t type ↔ type = t.memberType := by
  constructor
  · intro classified
    induction classified with
    | reference _ ih => exact ih
    | bytes | other => rfl
    | @named name type listed arguments =>
      have scalar : (FieldType.path name arguments).argumentOf? "Vec" = none := by
        rw [Option.eq_none_iff_forall_ne_some]
        intro item vector
        cases argumentOf?_eq_some_iff.1 vector
        exact absurd listed (by simp [memberTypes])
      rw [FieldType.memberType, scalar]
      exact (namedMemberType_of_mem listed).symm
    | @unlisted name arguments absent plain =>
      rw [FieldType.memberType]
      split
      · next item vector =>
        cases argumentOf?_eq_some_iff.1 vector
        split
        · next bytes =>
          obtain ⟨inner, rfl⟩ := FieldType.name?_eq_some_iff.1 bytes
          exact absurd rfl (plain inner rfl)
        · rfl
      · exact (namedMemberType_of_absent absent).symm
  · rintro rfl
    exact classified_memberType t

/-- A vector behind a reference still counts as bytes. -/
example : (FieldType.reference (.path "Vec" [some (.path "u8" [])])).memberType = .bytes :=
  rfl

/-- An optional type is a path with the last name `Option` and a type for its sole argument. -/
theorem optional_cases (t : FieldType) :
    (∃ content, t = .path "Option" [some content] ∧ t.optional = (true, content)) ∨
      (∀ content, t ≠ .path "Option" [some content]) ∧ t.optional = (false, t) := by
  unfold FieldType.optional
  split
  · next content found =>
    exact .inl ⟨content, argumentOf?_eq_some_iff.1 found, rfl⟩
  · next none =>
    refine .inr ⟨fun content shape => ?_, rfl⟩
    rw [argumentOf?_eq_some_iff.2 shape] at none
    cases none

/-! ## Columns -/

/-- What a field says of its column, when `items` are those of its attributes. -/
structure Field.Describes (f : Field) (items : List FieldItem) (c : ColumnDraft) : Prop where
  member : c.member = (lastOf FieldItem.member? items).getD f.name.name
  name : c.name = some ((lastOf FieldItem.column? items).getD c.member)
  order : c.order = lastOf FieldItem.order? items
  ambient : c.ambient = lastOf FieldItem.ambient? items
  primaryKey : c.primaryKey = true ↔ .id ∈ items
  unmapped : c.mapped = false ↔ .skip ∈ items
  autoIncrement : c.autoIncrement = lastOf FieldItem.identity? items
  nullable : c.nullable = true ↔ ∃ content, f.type = .path "Option" [some content]
  /-- An optional type is looked into once. -/
  content : ∀ content, f.type = .path "Option" [some content] → Classified content c.memberType
  plain : (∀ content, f.type ≠ .path "Option" [some content]) → Classified f.type c.memberType

/-- The column that a field drafts. -/
def Field.drafted (f : Field) (a : FieldArguments) : ColumnDraft where
  member := a.member.getD f.name.name
  memberType := f.type.optional.2.memberType
  name := a.column
  order := a.order
  ambient := a.ambient
  primaryKey := a.isId
  nullable := f.type.optional.1
  mapped := !a.skip
  autoIncrement := a.identity

theorem Field.draft_eq_ok_iff {f : Field} {c : ColumnDraft} : f.draft = .ok c ↔
    ∃ items, Says FieldItem.Spelled f.attributes items ∧ c = f.drafted (.said items) := by
  unfold Field.draft
  constructor
  · intro drafted
    split at drafted
    · cases drafted
    · next a merged =>
      cases drafted
      obtain ⟨items, told, rfl⟩ := FieldArguments.meaning.mergeAttributes_eq_ok_iff.1 merged
      exact ⟨items, told, rfl⟩
  · rintro ⟨items, told, rfl⟩
    have merged : mergeAttributes FieldArguments.parse FieldArguments.merge {} f.attributes =
        .ok (.said items) :=
      FieldArguments.meaning.mergeAttributes_eq_ok_iff.2 ⟨items, told, rfl⟩
    rw [merged]
    rfl

end Declaration

/-- The same column with its name filled in. -/
def ColumnDraft.named (c : ColumnDraft) : ColumnDraft :=
  { c with name := some (c.name.getD c.member) }

namespace Declaration

theorem Field.describes_iff {f : Field} {items : List FieldItem} {c : ColumnDraft} :
    f.Describes items c ↔ c = (f.drafted (.said items)).named := by
  constructor
  · intro described
    have classified : c.memberType = f.type.optional.2.memberType := by
      obtain ⟨content, shape, optional⟩ | ⟨plain, optional⟩ := optional_cases f.type
      · rw [optional]
        exact classified_iff.1 (described.content content shape)
      · rw [optional]
        exact classified_iff.1 (described.plain plain)
    have nullable : c.nullable = f.type.optional.1 := by
      obtain ⟨content, shape, optional⟩ | ⟨plain, optional⟩ := optional_cases f.type
      · rw [optional]
        exact described.nullable.2 ⟨content, shape⟩
      · rw [optional, Bool.eq_false_iff]
        exact fun null => (described.nullable.1 null).elim plain
    have primaryKey : c.primaryKey = decide (.id ∈ items) := by
      rw [Bool.eq_iff_iff, described.primaryKey, decide_eq_true_iff]
    have mapped : c.mapped = !decide (.skip ∈ items) := by
      rw [Bool.eq_iff_iff, Bool.not_eq_true', decide_eq_false_iff_not, ← described.unmapped,
        Bool.not_eq_false]
    obtain ⟨member, name, order, ambient, -, -, autoIncrement, -, -, -⟩ := described
    cases c
    simp only [ColumnDraft.named, Field.drafted, FieldArguments.said, ColumnDraft.mk.injEq]
    dsimp only at member
    subst member
    exact ⟨rfl, classified, name, order, ambient, primaryKey, nullable, mapped, autoIncrement⟩
  · rintro rfl
    constructor
    case member | name | order | ambient | autoIncrement => rfl
    case primaryKey => exact decide_eq_true_iff
    case unmapped => simp [ColumnDraft.named, Field.drafted, FieldArguments.said]
    case nullable =>
      show f.type.optional.1 = true ↔ _
      obtain ⟨content, shape, optional⟩ | ⟨plain, optional⟩ := optional_cases f.type
      · rw [optional]
        exact iff_of_true rfl ⟨content, shape⟩
      · rw [optional]
        exact iff_of_false Bool.false_ne_true (not_exists.2 plain)
    case content =>
      intro content shape
      obtain ⟨content', shape', optional⟩ | ⟨plain, -⟩ := optional_cases f.type
      · rw [shape] at shape'
        cases shape'
        exact classified_iff.2 (by rw [ColumnDraft.named, Field.drafted, optional])
      · exact absurd shape (plain content)
    case plain =>
      intro plain
      obtain ⟨content, shape, -⟩ | ⟨-, optional⟩ := optional_cases f.type
      · exact absurd shape (plain content)
      · exact classified_iff.2 (by rw [ColumnDraft.named, Field.drafted, optional])

theorem Field.exists_describes_iff {f : Field} {c : ColumnDraft} :
    (∃ items, Says FieldItem.Spelled f.attributes items ∧ f.Describes items c) ↔
      ∃ c', f.draft = .ok c' ∧ c = c'.named := by
  constructor
  · rintro ⟨items, told, described⟩
    exact ⟨_, Field.draft_eq_ok_iff.2 ⟨items, told, rfl⟩, Field.describes_iff.1 described⟩
  · rintro ⟨c', drafted, rfl⟩
    obtain ⟨items, told, rfl⟩ := Field.draft_eq_ok_iff.1 drafted
    exact ⟨items, told, Field.describes_iff.2 rfl⟩

theorem Field.exists_draft_iff {f : Field} :
    (∃ c, f.draft = .ok c) ↔ ∀ a ∈ f.attributes, a.Accepted FieldItem.Spelled := by
  rw [← exists_says_iff]
  constructor
  · rintro ⟨c, drafted⟩
    obtain ⟨items, told, -⟩ := Field.draft_eq_ok_iff.1 drafted
    exact ⟨items, told⟩
  · rintro ⟨items, told⟩
    exact ⟨_, Field.draft_eq_ok_iff.2 ⟨items, told, rfl⟩⟩

theorem columnDrafts_cons_eq_ok_iff {f : Field} {rest : List Field} {columns : List ColumnDraft} :
    columnDrafts (f :: rest) = .ok columns ↔
      ∃ c others, f.draft = .ok c ∧ columnDrafts rest = .ok others ∧ columns = c :: others := by
  rw [columnDrafts]
  constructor
  · intro drafted
    split at drafted
    · cases drafted
    next c first =>
    split at drafted
    · cases drafted
    next others later =>
    cases drafted
    exact ⟨c, others, first, later, rfl⟩
  · rintro ⟨c, others, first, later, rfl⟩
    rw [first, later]

theorem forall₂_describes_iff {fields : List Field} {columns : List ColumnDraft} :
    List.Forall₂ (fun f c => ∃ items, Says FieldItem.Spelled f.attributes items ∧
      f.Describes items c) fields columns ↔
      ∃ columns', columnDrafts fields = .ok columns' ∧
        columns = columns'.map ColumnDraft.named := by
  induction fields generalizing columns with
  | nil =>
    rw [List.forall₂_nil_left_iff]
    constructor
    · rintro rfl
      exact ⟨[], rfl, rfl⟩
    · rintro ⟨_, ⟨⟩, rfl⟩
      rfl
  | cons f rest ih =>
    simp only [List.forall₂_cons_left_iff, ih]
    simp only [Field.exists_describes_iff, columnDrafts_cons_eq_ok_iff]
    constructor
    · rintro ⟨_, _, ⟨c, first, rfl⟩, ⟨others, later, rfl⟩, rfl⟩
      exact ⟨c :: others, ⟨c, others, first, later, rfl⟩, rfl⟩
    · rintro ⟨_, ⟨c, others, first, later, rfl⟩, rfl⟩
      exact ⟨_, _, ⟨c, first, rfl⟩, ⟨others, later, rfl⟩, rfl⟩

theorem exists_columnDrafts_iff {fields : List Field} :
    (∃ columns, columnDrafts fields = .ok columns) ↔
      ∀ f ∈ fields, ∀ a ∈ f.attributes, a.Accepted FieldItem.Spelled := by
  induction fields with
  | nil => exact iff_of_true ⟨[], rfl⟩ (List.forall_mem_nil _)
  | cons f rest ih =>
    rw [List.forall_mem_cons, ← Field.exists_draft_iff, ← ih]
    simp only [columnDrafts_cons_eq_ok_iff]
    constructor
    · rintro ⟨_, c, others, first, later, rfl⟩
      exact ⟨⟨c, first⟩, others, later⟩
    · rintro ⟨⟨c, first⟩, others, later⟩
      exact ⟨_, c, others, first, later, rfl⟩

end Declaration

/-! ## Names filled in -/

/-- The loop that builds a table does not see whether a name is filled in. -/
theorem Table.addAll_map_named (t : Table) (composite : Bool) (cs : List ColumnDraft) :
    t.addAll composite (cs.map ColumnDraft.named) = t.addAll composite cs := by
  induction cs generalizing t with
  | nil => rfl
  | cons c rest ih =>
    have same : t.add composite c.named = t.add composite c := rfl
    simp only [List.map_cons, addAll, same, ih]

namespace TableDraft

/-- The same draft with the names of its columns filled in. -/
def named (d : TableDraft) : TableDraft :=
  { d with columns := d.columns.map ColumnDraft.named }

theorem composite_named (d : TableDraft) : d.named.composite = d.composite := by
  rw [composite, composite, named, List.countP_map]
  rfl

/-- Filling in the names changes nothing: a name that is not given is the member's anyhow. -/
theorem build_named (d : TableDraft) : d.named.build = d.build := by
  rw [build, composite_named]
  exact Table.addAll_map_named _ _ _

end TableDraft

/-! ## Tables -/

namespace Declaration

/-- What a declaration says of its table. -/
structure Describes (d : Declaration) (draft : TableDraft) : Prop where
  table : ∃ items, Says TableItem.Spelled d.attributes items ∧
    draft.name = (lastOf TableItem.table? items).getD d.name.text ∧
    draft.schema = lastOf TableItem.schema? items
  columns : List.Forall₂
    (fun f c => ∃ items, Says FieldItem.Spelled f.attributes items ∧ f.Describes items c)
    d.fields draft.columns

/-- What a declaration needs to describe a table. -/
structure Accepted (d : Declaration) : Prop where
  record : d.shape = .record
  plain : d.generic = false
  attributes : ∀ a ∈ d.attributes, a.Accepted TableItem.Spelled
  fields : ∀ f ∈ d.fields, ∀ a ∈ f.attributes, a.Accepted FieldItem.Spelled

/-- The table that a declaration drafts. -/
def drafted (d : Declaration) (a : TableArguments) (columns : List ColumnDraft) : TableDraft where
  name := a.table.getD d.name.text
  schema := a.schema
  columns

theorem draft_eq_ok_iff {d : Declaration} {draft : TableDraft} : d.draft = .ok draft ↔
    d.generic = false ∧ d.shape = .record ∧ ∃ items columns,
      Says TableItem.Spelled d.attributes items ∧ columnDrafts d.fields = .ok columns ∧
        draft = d.drafted (.said items) columns := by
  unfold Declaration.draft
  constructor
  · intro drafted
    split at drafted
    · cases drafted
    next plain =>
    split at drafted
    · cases drafted
    · cases drafted
    · cases drafted
    · cases drafted
    next record =>
    split at drafted
    · cases drafted
    next a merged =>
    split at drafted
    · cases drafted
    next columns fields =>
    cases drafted
    obtain ⟨items, told, rfl⟩ := TableArguments.meaning.mergeAttributes_eq_ok_iff.1 merged
    exact ⟨Bool.eq_false_iff.2 plain, record, items, columns, told, fields, rfl⟩
  · rintro ⟨plain, record, items, columns, told, fields, rfl⟩
    have merged : mergeAttributes TableArguments.parse TableArguments.merge {} d.attributes =
        .ok (.said items) :=
      TableArguments.meaning.mergeAttributes_eq_ok_iff.2 ⟨items, told, rfl⟩
    simp only [plain, record, merged, fields]
    rfl

theorem exists_draft_iff {d : Declaration} : (∃ draft, d.draft = .ok draft) ↔ d.Accepted := by
  constructor
  · rintro ⟨draft, drafted⟩
    obtain ⟨plain, record, items, columns, told, fields, -⟩ := draft_eq_ok_iff.1 drafted
    exact ⟨record, plain, exists_says_iff.1 ⟨items, told⟩,
      exists_columnDrafts_iff.1 ⟨columns, fields⟩⟩
  · rintro ⟨record, plain, attributes, fields⟩
    obtain ⟨items, told⟩ := exists_says_iff.2 attributes
    obtain ⟨columns, fields⟩ := exists_columnDrafts_iff.2 fields
    exact ⟨_, draft_eq_ok_iff.2 ⟨plain, record, items, columns, told, fields, rfl⟩⟩

/-- A declaration describes the table that it drafts, with the names filled in, and no other. -/
theorem describes_iff {d : Declaration} {draft described : TableDraft}
    (drafted : d.draft = .ok draft) : d.Describes described ↔ described = draft.named := by
  obtain ⟨plain, record, items, columns, told, fields, rfl⟩ := draft_eq_ok_iff.1 drafted
  constructor
  · -- Attributes may be read in one way only, so other items of theirs say the same.
    rintro ⟨⟨items', told', name, schema⟩, others⟩
    obtain ⟨columns', fields', filled⟩ := forall₂_describes_iff.1 others
    have drafted' := draft_eq_ok_iff.2 ⟨plain, record, items', columns', told', fields', rfl⟩
    rw [drafted] at drafted'
    cases described
    cases name
    cases schema
    cases filled
    rw [Except.ok.inj drafted']
    rfl
  · rintro rfl
    exact ⟨⟨items, told, rfl, rfl⟩, forall₂_describes_iff.2 ⟨columns, fields, rfl⟩⟩

theorem entity_eq_ok_iff {d : Declaration} {id : TypeId} {e : Entity} :
    d.entity id = .ok e ↔ ∃ draft, d.draft = .ok draft ∧ e = .ofDraft id d.name.text draft := by
  unfold Declaration.entity
  cases d.draft with
  | error e' => simp
  | ok draft => simp [eq_comm]

/-- A declaration has an entity exactly if it is accepted. The entity answers what is built of the
one table that the declaration describes. -/
theorem entity_describe (d : Declaration) (id : TypeId) :
    ((∃ e, d.entity id = .ok e) ↔ d.Accepted) ∧
    ∀ e, d.entity id = .ok e → ∃ described, (∀ draft, d.Describes draft ↔ draft = described) ∧
      ∀ n, e.describe n = described.build := by
  constructor
  · rw [← exists_draft_iff]
    simp only [entity_eq_ok_iff]
    constructor
    · rintro ⟨_, draft, drafted, rfl⟩
      exact ⟨draft, drafted⟩
    · rintro ⟨draft, drafted⟩
      exact ⟨_, draft, drafted, rfl⟩
  · intro e made
    obtain ⟨draft, drafted, rfl⟩ := entity_eq_ok_iff.1 made
    refine ⟨draft.named, fun _ => describes_iff drafted, fun n => ?_⟩
    rw [TableDraft.build_named]
    rfl

end Declaration

end BoundSql
