import BoundSql.Proofs.Composition

/-!
# Statements before a dialect is chosen

A dialect decides how identifiers, tables and placeholders are spelled, and nothing else but how
many values one `in` test takes. So under all dialects with one size of a chunk a statement has one
outline: the pieces of its text, with the parameters that are bound.

`Writing.Composed.outline` says that whatever is composed of acts does the same to an outline under
each dialect of a family, and that it appends a placeholder for each parameter that it binds, in the
order in which they are bound (`Outline.Grows`). A placeholder is thereby known by its spelling: it
stands exactly where the text has the prefix of the dialect, whatever that is, in front of a name.
Text that only looks like a placeholder, such as ambient text, is not one.
-/

namespace BoundSql

/-- A part of the text of a statement. -/
inductive Piece
  | text (s : String)
  | identifier (name : String)
  | table (t : Table)
  | placeholder (name : String)

namespace Piece

/-- A part as a dialect spells it. -/
def render (d : Dialect) : Piece → String
  | .text s => s
  | .identifier name => d.identifier name
  | .table t => Writing.tableText d t
  | .placeholder name => d.placeholder name

def renderAll (d : Dialect) (pieces : List Piece) : String :=
  String.join (pieces.map (render d))

def placeholderName? : Piece → Option String
  | .placeholder name => some name
  | _ => none

/-- The names of the placeholders among some parts, from left to right. -/
def placeholders (pieces : List Piece) : List String :=
  pieces.filterMap placeholderName?

@[simp] theorem renderAll_append (d : Dialect) (ps qs : List Piece) :
    renderAll d (ps ++ qs) = renderAll d ps ++ renderAll d qs := by
  rw [renderAll, List.map_append, String.join_append, renderAll, renderAll]

@[simp] theorem renderAll_singleton (d : Dialect) (p : Piece) : renderAll d [p] = p.render d := by
  rw [renderAll, List.map_singleton, String.join_cons, String.join_nil, String.append_empty]

@[simp] theorem placeholders_append (ps qs : List Piece) :
    placeholders (ps ++ qs) = placeholders ps ++ placeholders qs :=
  List.filterMap_append

/-- Only text can be empty: all else is put between brackets or behind a prefix. -/
theorem render_eq_empty_iff (d : Dialect) (p : Piece) : p.render d = "" ↔ p = .text "" := by
  cases p with
  | text s => simp [render]
  | identifier name => simp [render, Dialect.identifier, String.push_ne_empty]
  | table t =>
    have named : ∀ before name, before ++ d.identifier name ≠ "" := by
      simp [Dialect.identifier, String.append_eq_empty_iff, String.push_ne_empty]
    refine iff_of_false ?_ nofun
    rw [render, Writing.tableText]
    cases Writing.schemaOf d t with
    | some schema => exact named _ _
    | none => exact named "" _
  | placeholder name => simp [render, Dialect.placeholder]

/-- Whether there is any text at all does not hang on the dialect. -/
theorem isEmpty_renderAll (d d' : Dialect) (ps : List Piece) :
    (renderAll d ps).isEmpty = (renderAll d' ps).isEmpty := by
  rw [Bool.eq_iff_iff, String.isEmpty_iff, String.isEmpty_iff]
  induction ps with
  | nil => rfl
  | cons p ps ih =>
    rw [← List.singleton_append, renderAll_append, renderAll_append, String.append_eq_empty_iff,
      String.append_eq_empty_iff, renderAll_singleton, renderAll_singleton, render_eq_empty_iff,
      render_eq_empty_iff, ih]

end Piece

/-- A statement before a dialect is chosen. -/
structure Outline where
  pieces : List Piece
  parameters : Option (Parameters Value)
  calls : CallLog
  events : List Event

namespace Outline

/-- The statement that the outline is under a dialect. -/
def under (o : Outline) (d : Dialect) : Writer :=
  ⟨Piece.renderAll d o.pieces, o.parameters, o.calls, o.events⟩

/-- The outline of a statement whose text is all taken as it is. -/
def ofWriter (w : Writer) : Outline :=
  ⟨[.text w.text], w.parameters, w.calls, w.events⟩

def write (o : Outline) (p : Piece) : Outline :=
  { o with pieces := o.pieces ++ [p] }

def entries (o : Outline) : List (String × Value) :=
  (o.parameters.getD Parameters.empty).toList

@[simp] theorem under_ofWriter (w : Writer) (d : Dialect) : (ofWriter w).under d = w := by
  unfold under ofWriter
  rw [Piece.renderAll_singleton]
  rfl

theorem under_write (o : Outline) (p : Piece) (d : Dialect) :
    (o.write p).under d = { o.under d with text := (o.under d).text ++ p.render d } := by
  unfold under write
  rw [Piece.renderAll_append, Piece.renderAll_singleton]

/-- The text of an outline that goes on from a statement. -/
theorem text_under {w : Writer} {o : Outline} {pieces : List Piece}
    (split : o.pieces = (ofWriter w).pieces ++ pieces) (d : Dialect) :
    (o.under d).text = w.text ++ Piece.renderAll d pieces := by
  rw [under, split, Piece.renderAll_append]
  exact congrArg (· ++ _) (Piece.renderAll_singleton d _)

/-- Pieces are appended, and for each placeholder among them an entry of its name, in one order. -/
def Grows (o o' : Outline) : Prop :=
  ∃ pieces new, o'.pieces = o.pieces ++ pieces ∧ o'.entries = o.entries ++ new ∧
    Piece.placeholders pieces = new.map Prod.fst

theorem Grows.of_eq {o o' : Outline} (pieces : o'.pieces = o.pieces)
    (parameters : o'.parameters = o.parameters) : o.Grows o' :=
  ⟨[], [], by rw [pieces, List.append_nil], by rw [entries, parameters, List.append_nil, entries],
    rfl⟩

theorem Grows.trans {o₁ o₂ o₃ : Outline} (first : o₁.Grows o₂) (second : o₂.Grows o₃) :
    o₁.Grows o₃ := by
  obtain ⟨ps, new, pieces, entries, named⟩ := first
  obtain ⟨qs, newer, pieces', entries', named'⟩ := second
  exact ⟨ps ++ qs, new ++ newer, by rw [pieces', pieces, List.append_assoc],
    by rw [entries', entries, List.append_assoc],
    by rw [Piece.placeholders_append, named, named', List.map_append]⟩

theorem Grows.write (o : Outline) {p : Piece} (plain : p.placeholderName? = none) :
    o.Grows (o.write p) :=
  ⟨[p], [], rfl, (List.append_nil _).symm, List.filterMap_cons_none plain⟩

end Outline

namespace Writing

variable {ι : Type} {α : Type}

/-- Under all dialects of a family the computations end alike, and make one outline of another. -/
def Outlines (dialect : ι → Dialect) (x : ι → Writing α) : Prop :=
  ∀ o : Outline, ∃ outcome o', o.Grows o' ∧
    ∀ i, (o.under (dialect i)).exec (x i) = (outcome, o'.under (dialect i))

namespace Outlines

variable {dialect : ι → Dialect}

/-- An act that appends one piece without a placeholder. -/
theorem write {x : ι → Writing Unit} (p : Piece) (plain : p.placeholderName? = none)
    (run : ∀ i (w : Writer),
      w.exec (x i) = (.ok (), { w with text := w.text ++ p.render (dialect i) })) :
    Outlines dialect x := by
  intro o
  refine ⟨.ok (), o.write p, .write o plain, fun i => ?_⟩
  rw [run, Outline.under_write]

theorem bindName (name : String) (value : Value) :
    Outlines dialect fun i => Writing.bind (dialect i) name value := by
  intro o
  cases added : (o.parameters.getD Parameters.empty).add name value with
  | error e =>
    refine ⟨.error e, o, .of_eq rfl rfl, fun i => ?_⟩
    rw [Writer.exec_bindName]
    simp only [Outline.under, added]
  | ok p =>
    refine ⟨.ok (), { o.write (.placeholder name) with parameters := some p }, ?_, fun i => ?_⟩
    · exact ⟨[.placeholder name], [(name, value)], rfl, (Parameters.add_eq_ok_iff.1 added).2, rfl⟩
    · rw [Writer.exec_bindName]
      simp only [Outline.under, Outline.write, added, Piece.renderAll_append,
        Piece.renderAll_singleton, Piece.render]

theorem bindNext (value : Value) :
    Outlines dialect fun i => Writing.bindNext (dialect i) value := by
  intro o
  have bound : ∀ i, (o.under (dialect i)).bound =
      (o.parameters.map Parameters.size).getD 0 := by
    intro i
    unfold Outline.under Writer.bound
    cases o.parameters <;> rfl
  simp only [Writer.exec_bindNext, bound]
  exact bindName _ value o

theorem separator (s : String) : Outlines dialect fun _ => Writing.separator s := by
  intro o
  by_cases empty : ∀ i, (o.under (dialect i)).text.isEmpty = true
  · refine ⟨.ok (), o, .of_eq rfl rfl, fun i => ?_⟩
    rw [Writer.exec_separator, if_pos (empty i)]
  · have written : ∀ i, ¬(o.under (dialect i)).text.isEmpty = true := by
      intro i some
      refine empty fun j => ?_
      rw [← some]
      exact Piece.isEmpty_renderAll (dialect j) (dialect i) o.pieces
    refine ⟨.ok (), o.write (.text s), .write o rfl, fun i => ?_⟩
    rw [Writer.exec_separator, if_neg (written i), Outline.under_write]
    rfl

end Outlines

/-- Whatever is composed of acts appends one outline under all dialects. -/
theorem Composed.outline {dialect : ι → Dialect} {N : String → Prop} {x : ι → Writing α}
    (h : Composed dialect N x) : Outlines dialect x := by
  induction h with
  | pure a => exact fun o => ⟨.ok a, o, .of_eq rfl rfl, fun i => rfl⟩
  | @throw _ e _ => exact fun o => ⟨.error e, o, .of_eq rfl rfl, fun i => rfl⟩
  | bind hx hf ihx ihf =>
    intro o
    obtain ⟨outcome, mid, first, run⟩ := ihx o
    cases outcome with
    | error e => exact ⟨.error e, mid, first, fun i => by rw [Writer.exec_bind, run]⟩
    | ok a =>
      obtain ⟨outcome', last, second, run'⟩ := ihf a mid
      refine ⟨outcome', last, first.trans second, fun i => ?_⟩
      rw [Writer.exec_bind, run]
      exact run' i
  | text s => exact .write (.text s) rfl fun _ _ => rfl
  | identifier name => exact .write (.identifier name) rfl fun _ _ => rfl
  | tableName t => exact .write (.table t) rfl fun i w => w.exec_tableName (dialect i) t
  | separator s => exact .separator s
  | report event =>
    exact fun o => ⟨.ok (), { o with events := o.events ++ [event] }, .of_eq rfl rfl, fun i => rfl⟩
  | @asking _ y _ =>
    exact fun o => ⟨(o.calls.answer y).1, { o with calls := (o.calls.answer y).2 }, .of_eq rfl rfl,
      fun i => rfl⟩
  | bindName allowed value => exact .bindName _ value
  | bindNext value => exact .bindNext value

end Writing

end BoundSql
