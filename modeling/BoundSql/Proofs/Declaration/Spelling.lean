import BoundSql.Proofs.Declaration.Description

/-!
# Raw and plain spellings

An identifier may be written with the mark of a raw one in front, and is the same identifier
without it. `Declaration.plain` is a declaration with all its marks dropped. The marks of fields
never matter. The mark of the type's own name does not decide whether the declaration is accepted,
but it is printed: the entity is registered with it, and so is a table named that has no other name.
Nothing else differs (`Declaration.entity_plain`).
-/

namespace BoundSql.Declaration

/-- The identifier without its mark. -/
def Identifier.plain (i : Identifier) : Identifier where
  raw := false
  name := i.name

def Field.plain (f : Field) : Field :=
  { f with name := f.name.plain }

/-- The same declaration with plain names for the type and the fields. -/
def plain (d : Declaration) : Declaration :=
  { d with name := d.name.plain, fields := d.fields.map Field.plain }

variable {d : Declaration}

/-! ## Columns -/

/-- A member is named without the mark. -/
theorem Field.draft_plain (f : Field) : f.plain.draft = f.draft := rfl

theorem columnDrafts_plain (fields : List Field) :
    columnDrafts (fields.map Field.plain) = columnDrafts fields := by
  induction fields with
  | nil => rfl
  | cons f rest ih => rw [List.map_cons, columnDrafts, columnDrafts, ih, Field.draft_plain]

/-! ## Tables -/

theorem text_plain (i : Identifier) : i.plain.text = i.name :=
  String.empty_append

theorem text_of_raw {i : Identifier} (raw : i.raw = true) : i.text = "r#" ++ i.name := by
  rw [Identifier.text, raw]
  rfl

theorem text_of_not_raw {i : Identifier} (unmarked : i.raw = false) : i.text = i.name := by
  rw [Identifier.text, unmarked]
  exact String.empty_append

/-- With and without the marks a declaration has the same faults. -/
theorem draft_eq_error_iff_plain {e : DeclarationError} :
    d.draft = .error e ↔ d.plain.draft = .error e := by
  unfold Declaration.draft plain
  dsimp only
  rw [columnDrafts_plain]
  cases d.generic with
  | true => exact Iff.rfl
  | false =>
  cases d.shape with
  | enumeration | union | tuple | unit => exact Iff.rfl
  | record =>
  cases mergeAttributes TableArguments.parse TableArguments.merge {} d.attributes with
  | error => exact Iff.rfl
  | ok =>
  cases columnDrafts d.fields with
  | error => exact Iff.rfl
  | ok => exact iff_of_false nofun nofun

/-- The draft of a declaration is that of its plain spelling, apart from the table's name where
the attributes give none. -/
theorem draft_of_plain {draft : TableDraft} (drafted : d.plain.draft = .ok draft) :
    ∃ items, Says TableItem.Spelled d.attributes items ∧
      draft.name = (lastOf TableItem.table? items).getD d.name.name ∧
      d.draft = .ok { draft with name := (lastOf TableItem.table? items).getD d.name.text } := by
  obtain ⟨generic, record, items, columns, told, fields, rfl⟩ := draft_eq_ok_iff.1 drafted
  rw [plain, columnDrafts_plain] at fields
  refine ⟨items, told, ?_, draft_eq_ok_iff.2 ⟨generic, record, items, columns, told, fields, rfl⟩⟩
  rw [← text_plain]
  rfl

/-! ## Entities -/

theorem entity_eq_error_iff {id : TypeId} {e : DeclarationError} :
    d.entity id = .error e ↔ d.draft = .error e := by
  unfold Declaration.entity
  cases d.draft <;> simp

/-- How names are spelled decides nothing about whether a declaration is accepted, or why it is not.
The entity of an accepted one is that of its plain spelling, whatever fields carry a mark, unless
the name of the type itself carries one. Then the type is registered with the mark in front of its
name, and so is the table named unless the attributes name it; its schema and its columns are still
those of the plain spelling. -/
theorem entity_plain (d : Declaration) (id : TypeId) :
    (∀ e, d.entity id = .error e ↔ d.plain.entity id = .error e) ∧
      ∀ draft, d.plain.draft = .ok draft →
        d.plain.entity id = .ok (.ofDraft id d.name.name draft) ∧
        (d.name.raw = false → d.entity id = d.plain.entity id) ∧
        (d.name.raw = true → ∃ items, Says TableItem.Spelled d.attributes items ∧
          d.entity id = .ok (.ofDraft id ("r#" ++ d.name.name) { draft with
            name := (lastOf TableItem.table? items).getD ("r#" ++ d.name.name) })) := by
  refine ⟨fun e => ?_, fun draft drafted => ?_⟩
  · rw [entity_eq_error_iff, entity_eq_error_iff, draft_eq_error_iff_plain]
  have plainEntity : d.plain.entity id = .ok (.ofDraft id d.name.name draft) :=
    entity_eq_ok_iff.2 ⟨draft, drafted, by rw [plain, text_plain]⟩
  obtain ⟨items, told, name, spelled⟩ := draft_of_plain drafted
  refine ⟨plainEntity, fun unmarked => ?_, fun raw => ⟨items, told, ?_⟩⟩
  · rw [text_of_not_raw unmarked, ← name] at spelled
    rw [plainEntity]
    exact entity_eq_ok_iff.2 ⟨draft, spelled, by rw [text_of_not_raw unmarked]⟩
  · rw [text_of_raw raw] at spelled
    exact entity_eq_ok_iff.2 ⟨_, spelled, by rw [text_of_raw raw]⟩

/-- A field may be marked, but the name of the type is printed as it is written. -/
theorem entity_marked :
    let d : Declaration :=
      ⟨⟨true, "Rec"⟩, [], false, .record, [⟨⟨true, "id"⟩, .path "i32" [], []⟩]⟩
    (d.entity.map Entity.typeName = .ok "r#Rec" ∧ d.plain.entity.map Entity.typeName = .ok "Rec") ∧
      (d.draft.map TableDraft.name = .ok "r#Rec" ∧ d.plain.draft.map TableDraft.name = .ok "Rec") ∧
      d.entity ≠ d.plain.entity := by
  refine ⟨⟨rfl, rfl⟩, ⟨rfl, rfl⟩, fun same => ?_⟩
  exact absurd (congrArg (Except.map Entity.typeName) same) (by decide)

end BoundSql.Declaration
