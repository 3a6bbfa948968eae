import BoundSql.Proofs.Composition

/-!
# Statements only grow

Every built-in step appends: what is written stays in front of what comes after it, and so does what
is bound. That holds of a step that fails half way as much as of one that succeeds, because a
failing computation keeps what it wrote.

A relation that the single acts keep (`Writer.Progress`) is kept by whatever is composed of them,
and so by every predicate and command: `Predicate.compile_ensures` and `Command.write_ensures`. The
two relations used are `Writer.BindsOn`, which speaks of the parameters alone, and `Writer.Extends`,
which adds the text. The parameters are told apart from a missing collection: nothing new bound
leaves the collection itself as it was.

A statement is undone by cutting text and parameters back to two remembered lengths. The lengths are
enough for the parameters of whatever only binds on (`Writer.rollback?_parameters`), and for the
text exactly when the old text still stands in front (`Writer.rollback?_text_eq_iff`). So what
extends a statement is always undone (`Writer.Extends.rollback?`).
-/

namespace BoundSql

/-- A relation between a statement and what it becomes that every act of appending keeps. -/
class Writer.Progress (G : Writer → Writer → Prop) : Prop where
  refl : ∀ w, G w w
  trans : ∀ {u v w}, G u v → G v w → G u w
  text : ∀ w s, G w { w with text := w.text ++ s }
  bind : ∀ w d name value, G w (w.exec (Writing.bind d name value)).2
  ask : ∀ w calls, G w { w with calls }
  report : ∀ w events, G w { w with events }

namespace Writing

variable {α β : Type} {G : Writer → Writer → Prop}

/-- However it ends, the computation leaves a statement that stands in the relation to the one it
started from. -/
def Ensures (G : Writer → Writer → Prop) (x : Writing α) : Prop :=
  ∀ w, G w (w.exec x).2

namespace Ensures

/-- What is ensured of a computation holds of the one run at hand. -/
theorem of_exec {x : Writing α} {w v : Writer} {outcome : Except StatementError α}
    (h : Ensures G x) (run : w.exec x = (outcome, v)) : G w v := by
  have ensured := h w
  rwa [run] at ensured

variable [Writer.Progress G]

theorem pure (a : α) : Ensures G (pure a : Writing α) :=
  fun w => Writer.Progress.refl w

theorem throw (e : StatementError) : Ensures G (throw e : Writing α) :=
  fun w => Writer.Progress.refl w

theorem bind {x : Writing α} {f : α → Writing β} (hx : Ensures G x) (hf : ∀ a, Ensures G (f a)) :
    Ensures G (x >>= f) := by
  intro w
  have first := hx w
  rw [Writer.exec_bind]
  revert first
  rcases w.exec x with ⟨_ | a, v⟩
  · exact id
  · exact fun first => Writer.Progress.trans first (hf a v)

theorem text (s : String) : Ensures G (Writing.text s) :=
  fun w => Writer.Progress.text w s

theorem identifier (d : Dialect) (name : String) : Ensures G (Writing.identifier d name) :=
  text _

theorem separator (s : String) : Ensures G (Writing.separator s) := by
  intro w
  rw [Writer.exec_separator]
  dsimp only
  split
  · exact Writer.Progress.refl w
  · exact Writer.Progress.text w s

theorem report (event : Event) : Ensures G (Writing.report event) :=
  fun w => Writer.Progress.report w _

theorem asking (x : Asking α) : Ensures G (Writing.asking x) :=
  fun w => Writer.Progress.ask w _

theorem bindName (d : Dialect) (name : String) (value : Value) :
    Ensures G (Writing.bind d name value) :=
  fun w => Writer.Progress.bind w d name value

theorem bindNext (d : Dialect) (value : Value) : Ensures G (Writing.bindNext d value) := by
  intro w
  rw [Writer.exec_bindNext]
  exact Writer.Progress.bind w d _ value

theorem tableName (d : Dialect) (t : Table) : Ensures G (Writing.tableName d t) := by
  rw [tableName_eq_text]
  exact text _

/-- Items ensure what each of them does, with a text between them. -/
theorem separated {between : String} {write : α → Writing Unit} (hwrite : ∀ a, Ensures G (write a))
    (items : List α) : Ensures G (Writing.separated between write items) := by
  fun_induction Writing.separated between write items with
  | case1 => exact pure _
  | case2 item => exact hwrite item
  | case3 item next rest ih => exact bind (hwrite item) fun _ => bind (text _) fun _ => ih

end Ensures

/-- Whatever is composed of acts keeps every relation of progress. -/
theorem Composed.ensures [Writer.Progress G] {ι : Type} {dialect : ι → Dialect}
    {N : String → Prop} {x : ι → Writing α} (h : Composed dialect N x) (i : ι) :
    Ensures G (x i) := by
  induction h with
  | pure a => exact .pure a
  | throw plain => exact .throw _
  | bind hx hf ihx ihf => exact .bind ihx ihf
  | text s => exact .text s
  | identifier name => exact .identifier _ name
  | tableName t => exact .tableName _ t
  | separator s => exact .separator s
  | report event => exact .report event
  | asking plain => exact .asking _
  | bindName allowed value => exact .bindName _ _ value
  | bindNext value => exact .bindNext _ value

end Writing

section

open Writing

variable {G : Writer → Writer → Prop} [Writer.Progress G] (d : Dialect) (t : Table)

namespace Predicate

theorem writeInTest_ensures (c : Column) (values : List Value) :
    Ensures G (writeInTest d c values) :=
  .bind (.identifier d _) fun _ => .bind (.text _) fun _ => .bindNext d _

theorem writeGrouped_ensures (grouped : Bool) {condition : Writing Unit}
    (h : Ensures G condition) : Ensures G (writeGrouped grouped condition) := by
  cases grouped with
  | true => exact .bind (.text _) fun _ => .bind h fun _ => .text _
  | false => exact h

/-- Writing a condition keeps every relation of progress, also when it fails half way. -/
theorem compile_ensures (p : Predicate) : Ensures G (p.compile d t) :=
  (p.compile_composed_self d t).ensures ()

end Predicate

/-- So does every command, whether it succeeds or not. -/
theorem Command.write_ensures (c : Command) : Ensures G (c.write d t) :=
  (c.write_composed_self d t).ensures ()

end

/-! ## The two relations -/

namespace Writer

/-- What `w` binds is bound in `v`, in front of what is new; without anything new the collection is
the same, a missing one included. -/
def BindsOn (w v : Writer) : Prop :=
  ∃ new, v.entries = w.entries ++ new ∧ (new = [] → v.parameters = w.parameters)

/-- Nothing that is bound goes away. -/
theorem BindsOn.bound_le {w v : Writer} (h : w.BindsOn v) : w.bound ≤ v.bound := by
  obtain ⟨new, entries, -⟩ := h
  rw [w.bound_eq_length, v.bound_eq_length, entries, List.length_append]
  omega

/-- Without a new entry the collection is the same. -/
theorem BindsOn.parameters_eq {w v : Writer} (h : w.BindsOn v) (same : v.entries = w.entries) :
    v.parameters = w.parameters := by
  obtain ⟨new, entries, unchanged⟩ := h
  exact unchanged (List.self_eq_append_right.1 (same.symm.trans entries))

/-- The text and the parameters of `w` stand in front of those of `v`. -/
structure Extends (w v : Writer) : Prop where
  text : ∃ s, v.text = w.text ++ s
  bindsOn : w.BindsOn v

theorem BindsOn.of_eq {w v : Writer} (h : v.parameters = w.parameters) : w.BindsOn v :=
  ⟨[], by rw [entries, h, List.append_nil, entries], fun _ => h⟩

/-- A value is bound behind the others, or not at all. -/
theorem BindsOn.bind (w : Writer) (d : Dialect) (name : String) (value : Value) :
    w.BindsOn (w.exec (Writing.bind d name value)).2 := by
  rw [exec_bindName]
  cases h : (w.parameters.getD Parameters.empty).add name value with
  | ok p =>
    refine ⟨[(name, value)], ?_, fun none => nomatch none⟩
    exact (Parameters.add_eq_ok_iff.1 h).2
  | error e => exact .of_eq rfl

theorem BindsOn.trans {u v w : Writer} (first : u.BindsOn v) (second : v.BindsOn w) :
    u.BindsOn w := by
  obtain ⟨new, entries, same⟩ := first
  obtain ⟨newer, entries', same'⟩ := second
  refine ⟨new ++ newer, by rw [entries', entries, List.append_assoc], fun none => ?_⟩
  obtain ⟨rfl, rfl⟩ := List.append_eq_nil_iff.1 none
  rw [same' rfl, same rfl]

instance : Progress BindsOn where
  refl _ := .of_eq rfl
  trans := .trans
  text _ _ := .of_eq rfl
  bind := .bind
  ask _ _ := .of_eq rfl
  report _ _ := .of_eq rfl

theorem Extends.of_eq {w v : Writer} (text : v.text = w.text)
    (parameters : v.parameters = w.parameters) : w.Extends v :=
  ⟨⟨"", by rw [text, String.append_empty]⟩, .of_eq parameters⟩

/-- A placeholder is written behind the text. -/
theorem Extends.bind (w : Writer) (d : Dialect) (name : String) (value : Value) :
    w.Extends (w.exec (Writing.bind d name value)).2 := by
  refine ⟨?_, .bind w d name value⟩
  rw [exec_bindName]
  cases (w.parameters.getD Parameters.empty).add name value with
  | ok p => exact ⟨d.placeholder name, rfl⟩
  | error e => exact ⟨"", String.append_empty.symm⟩

theorem Extends.trans {u v w : Writer} (first : u.Extends v) (second : v.Extends w) :
    u.Extends w := by
  obtain ⟨s, hs⟩ := first.text
  obtain ⟨s', hs'⟩ := second.text
  exact ⟨⟨s ++ s', by rw [hs', hs, String.append_assoc]⟩, first.bindsOn.trans second.bindsOn⟩

instance : Progress Extends where
  refl _ := .of_eq rfl rfl
  trans := .trans
  text _ s := ⟨⟨s, rfl⟩, .of_eq rfl⟩
  bind := .bind
  ask _ _ := .of_eq rfl rfl
  report _ _ := .of_eq rfl rfl

/-! ## Undoing -/

variable {w v u : Writer}

/-- There is no way back where the text has been replaced so that the old length splits a
character. -/
theorem rollback?_eq_none_iff :
    v.rollback? w.mark = none ↔ Text.Inside v.text w.text.utf8ByteSize := by
  rw [← Text.truncate?_eq_none_iff, rollback?, mark]
  cases Text.truncate? w.text.utf8ByteSize v.text <;> simp

/-- The way back cuts the text to the old length. -/
theorem truncate?_of_rollback? (back : v.rollback? w.mark = some u) :
    Text.truncate? w.text.utf8ByteSize v.text = some u.text := by
  unfold rollback? at back
  split at back
  · cases back
  · next kept cut =>
    cases back
    exact cut

/-- The text is back exactly when it still stood in front of what was left. -/
theorem rollback?_text_eq_iff (back : v.rollback? w.mark = some u) :
    u.text = w.text ↔ ∃ s, v.text = w.text ++ s := by
  rw [← Text.truncate?_eq_some_iff, truncate?_of_rollback? back, Option.some.injEq]

/-- Parameters that were only bound on to are back after a rollback, a missing collection
included. -/
theorem rollback?_parameters (h : w.BindsOn v) (back : v.rollback? w.mark = some u) :
    u.parameters = w.parameters := by
  unfold rollback? at back
  split at back
  · cases back
  · cases back
    obtain ⟨new, hentries, hsame⟩ := h
    cases hw : w.parameters with
    | none => simp only [mark, hw, Option.map_none]
    | some p =>
      have view : w.entries = p.toList := by rw [entries, hw, Option.getD_some]
      simp only [mark, hw, Option.map_some]
      cases hv : v.parameters with
      | some q =>
        rw [entries, hv, Option.getD_some, view] at hentries
        rw [Option.map_some, Parameters.truncate_eq_of_append hentries]
      | none =>
        -- a collection does not go away: without one, nothing new can have been bound
        rw [entries, hv, view] at hentries
        obtain ⟨_, rfl⟩ := List.append_eq_nil_iff.1 hentries.symm
        rw [hsame rfl, hw] at hv
        cases hv

/-- What extends a statement is rolled back to it, but for what was asked and reported. -/
theorem Extends.rollback? (h : w.Extends v) :
    v.rollback? w.mark = some { w with calls := v.calls, events := v.events } := by
  have cut : Text.truncate? w.mark.length v.text = some w.text :=
    Text.truncate?_eq_some_iff.2 h.text
  cases back : v.rollback? w.mark with
  | none =>
    rw [Writer.rollback?, cut] at back
    cases back
  | some u =>
    have text : u.text = w.text := (rollback?_text_eq_iff back).2 h.text
    have parameters : u.parameters = w.parameters := rollback?_parameters h.bindsOn back
    rw [← text, ← parameters]
    rw [Writer.rollback?, cut] at back
    cases back
    rfl

end Writer

end BoundSql
