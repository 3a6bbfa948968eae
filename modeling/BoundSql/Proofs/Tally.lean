import BoundSql.Proofs.RawStep

/-!
# Counting what is bound

A statement has no collection of parameters until a value is bound, and a step that fails takes back
what it has bound. `Builder.parameters_tally` says what a collection therefore tells at any point of
a run without an installed collection: it is there exactly if some step that succeeded has bound a
value, and its size is the number of these values. A run may also end in a panic, when a step by
hand cannot be undone; then there is no point behind this step, and nothing to tell of it.

Values are counted by the acts that bind them, without a look at the collection. `Writing.Binds` is
the count of one computation, with a rule for each act; `Builder.Tally` sums it up over the steps of
a run that succeeded. A step written by hand may bind a value, fail to bind another and go on, so
the count of a step is not known from its outcome.
-/

namespace BoundSql

namespace Writing

/-- Run from a statement, the computation binds so many values. An act of binding that succeeds
counts once. One that fails does not count, and neither does any other act; what has been bound
before a failure counts, whether the failure is passed over or not. -/
inductive Binds : Writer → {α : Type} → Writing α → Nat → Prop
  | pure {w : Writer} {α : Type} (a : α) : Binds w (pure a) 0
  | throw {w : Writer} {α : Type} (e : StatementError) : Binds w (throw e : Writing α) 0
  | text {w : Writer} (s : String) : Binds w (text s) 0
  | trim {w : Writer} (n : Nat) : Binds w (trim n) 0
  | separator {w : Writer} (s : String) : Binds w (separator s) 0
  | report {w : Writer} (event : Event) : Binds w (report event) 0
  | asking {w : Writer} {α : Type} (x : Asking α) : Binds w (asking x) 0
  | bound {w : Writer} {d : Dialect} {name : String} {value : Value}
      (ok : (w.exec (bind d name value)).1 = .ok ()) : Binds w (bind d name value) 1
  | refused {w : Writer} {d : Dialect} {name : String} {value : Value}
      (failed : (w.exec (bind d name value)).1 ≠ .ok ()) : Binds w (bind d name value) 0
  | next {w : Writer} {d : Dialect} {value : Value} {n : Nat}
      (binds : Binds w (bind d (positional (w.bound + 1)) value) n) :
      Binds w (bindNext d value) n
  | sequence {w v : Writer} {α β : Type} {x : Writing α} {f : α → Writing β} {a : α} {n m : Nat}
      (run : w.exec x = (.ok a, v)) (first : Binds w x n) (later : Binds v (f a) m) :
      Binds w (x >>= f) (n + m)
  | stopped {w v : Writer} {α β : Type} {x : Writing α} {f : α → Writing β} {e : StatementError}
      {n : Nat} (run : w.exec x = (.error e, v)) (first : Binds w x n) : Binds w (x >>= f) n
  | passedOver {w : Writer} {x : Writing Unit} {n : Nat} (binds : Binds w x n) :
      Binds w (tryCatch x fun _ => Pure.pure ()) n

namespace Binds

variable {w : Writer} {α β : Type}

/-- The collection has grown by the values that were bound. -/
theorem bound_eq {x : Writing α} {n : Nat} (h : Binds w x n) :
    (w.exec x).2.bound = w.bound + n := by
  induction h with
  | pure | throw | text | trim | report | asking => rfl
  | separator s => rw [Writer.exec_separator_eq]; rfl
  | @bound w d name value ok =>
    by_cases taken : name ∈ w.names
    · rw [w.exec_bindName_of_mem d value taken] at ok
      cases ok
    · obtain ⟨p, entries, run⟩ := w.exec_bindName_of_not_mem d value taken
      rw [run, Writer.bound_eq_length, Writer.entries_some, entries, List.length_append,
        ← Writer.bound_eq_length]
      rfl
  | @refused w d name value failed =>
    by_cases taken : name ∈ w.names
    · rw [w.exec_bindName_of_mem d value taken]
      rfl
    · obtain ⟨p, -, run⟩ := w.exec_bindName_of_not_mem d value taken
      rw [run] at failed
      exact absurd rfl failed
  | next binds ih => rw [Writer.exec_bindNext, ih]
  | sequence run first later ih ih' =>
    rw [run] at ih
    rw [Writer.exec_bind, run]
    dsimp only at ih ⊢
    rw [ih', ih, Nat.add_assoc]
  | stopped run first ih =>
    rw [run] at ih
    rw [Writer.exec_bind, run]
    exact ih
  | @passedOver w x n binds ih =>
    rw [Writer.exec_tryCatch]
    revert ih
    rcases w.exec x with ⟨_ | _, v⟩ <;> exact id

/-- A sequence has a count if its parts have one. -/
theorem exists_sequence {x : Writing α} {f : α → Writing β} (first : ∃ n, Binds w x n)
    (later : ∀ a v, ∃ n, Binds v (f a) n) : ∃ n, Binds w (x >>= f) n := by
  obtain ⟨n, first⟩ := first
  rcases run : w.exec x with ⟨e | a, v⟩
  · exact ⟨n, .stopped run first⟩
  · obtain ⟨m, later⟩ := later a v
    exact ⟨n + m, .sequence run first later⟩

theorem exists_bind (w : Writer) (d : Dialect) (name : String) (value : Value) :
    ∃ n, Binds w (Writing.bind d name value) n := by
  by_cases ok : (w.exec (Writing.bind d name value)).1 = .ok ()
  · exact ⟨1, .bound ok⟩
  · exact ⟨0, .refused ok⟩

theorem tableName (w : Writer) (d : Dialect) (t : Table) : Binds w (Writing.tableName d t) 0 := by
  rw [tableName_eq_text]
  exact .text _

end Binds

/-- Whatever is composed of acts has a count. -/
theorem Composed.exists_binds {ι α : Type} {dialect : ι → Dialect} {N : String → Prop}
    {x : ι → Writing α} (h : Composed dialect N x) (i : ι) (w : Writer) :
    ∃ n, Binds w (x i) n := by
  induction h generalizing w with
  | pure a => exact ⟨0, .pure a⟩
  | throw plain => exact ⟨0, .throw _⟩
  | bind hx hf ihx ihf => exact Binds.exists_sequence (ihx w) fun a v => ihf a v
  | text s => exact ⟨0, .text s⟩
  | identifier name => exact ⟨0, .text _⟩
  | tableName t => exact ⟨0, .tableName w _ t⟩
  | separator s => exact ⟨0, .separator s⟩
  | report event => exact ⟨0, .report event⟩
  | asking plain => exact ⟨0, .asking _⟩
  | bindName allowed value => exact Binds.exists_bind w _ _ value
  | bindNext value =>
    obtain ⟨n, binds⟩ := Binds.exists_bind w (dialect i) (positional (w.bound + 1)) value
    exact ⟨n, .next binds⟩

end Writing

/-! ## Steps -/

namespace Act

variable (d : Dialect) (t : Table)

theorem exists_binds (act : Act) (w : Writer) : ∃ n, Writing.Binds w (act.write d t) n := by
  have strict : ∃ n, Writing.Binds w (act.operation.write d t) n := by
    cases act.operation with
    | text s | identifier name => exact ⟨0, .text _⟩
    | newline | listLimit => exact ⟨0, .text _⟩
    | trim n => exact ⟨0, .trim n⟩
    | tableName => exact ⟨0, .tableName w d t⟩
    | bind name value => exact Writing.Binds.exists_bind w d name value
    | bindNext value =>
      obtain ⟨n, binds⟩ := Writing.Binds.exists_bind w d (Writing.positional (w.bound + 1)) value
      exact ⟨n, .next binds⟩
    | compile predicate => exact (predicate.compile_composed_self d t).exists_binds () w
    | fail error => exact ⟨0, .throw error⟩
  obtain ⟨n, binds⟩ := strict
  unfold write
  split
  · exact ⟨n, .passedOver binds⟩
  · exact ⟨n, binds⟩

theorem writeAll_exists_binds (acts : List Act) (w : Writer) :
    ∃ n, Writing.Binds w (writeAll d t acts) n := by
  induction acts generalizing w with
  | nil => exact ⟨0, .pure ()⟩
  | cons act rest ih => exact Writing.Binds.exists_sequence (act.exists_binds d t w) fun _ v => ih v

end Act

/-! ## Runs -/

namespace Builder

/-- A step of a run without an installed collection: a command, or acts written by hand. -/
inductive Turn
  | command (c : Command)
  | raw (acts : List Act)

namespace Turn

def name : Turn → String
  | .command c => c.name
  | .raw _ => "raw"

def write (d : Dialect) (t : Table) : Turn → Writing Unit
  | .command c => c.write d t
  | .raw acts => Act.writeAll d t acts

theorem exists_binds (d : Dialect) (t : Table) (turn : Turn) (w : Writer) :
    ∃ n, Writing.Binds w (turn.write d t) n := by
  cases turn with
  | command c => exact (c.write_composed_self d t).exists_binds () w
  | raw acts => exact Act.writeAll_exists_binds d t acts w

theorem write_bindsOn (d : Dialect) (t : Table) (turn : Turn) :
    Writing.Ensures Writer.BindsOn (turn.write d t) := by
  cases turn with
  | command c => exact c.write_ensures d t
  | raw acts => exact Act.writeAll_bindsOn d t acts

end Turn

/-- Take one step, if it comes to an end. -/
def take? (b : Builder) (turn : Turn) : Option (Except StatementError Unit × Builder) :=
  match turn with
  | .command c => some (b.command c)
  | .raw acts => b.raw? (Act.writeAll b.dialect b.table acts)

/-- Take steps in order, going on after a failure. A panic ends the run, and there is no builder at
its end. -/
def takeAll? (b : Builder) : List Turn → Option Builder
  | [] => some b
  | turn :: rest =>
    match b.take? turn with
    | some result => result.2.takeAll? rest
    | none => none

theorem take?_eq_step? (b : Builder) (turn : Turn) :
    b.take? turn = b.step? turn.name (turn.write b.dialect b.table) := by
  cases turn with
  | command c => exact (b.step?_command c).symm
  | raw acts => rfl

/-- In a run that comes to its end, the steps that succeed bind so many values. -/
inductive Tally : Builder → List Turn → Nat → Prop
  | nil {b : Builder} : Tally b [] 0
  | succeeded {b b' : Builder} {turn : Turn} {rest : List Turn} {n m : Nat}
      (run : b.take? turn = some (.ok (), b'))
      (binds : Writing.Binds b.writer (turn.write b.dialect b.table) n)
      (later : Tally b' rest m) : Tally b (turn :: rest) (n + m)
  | failed {b b' : Builder} {turn : Turn} {e : StatementError} {rest : List Turn} {m : Nat}
      (run : b.take? turn = some (.error e, b')) (later : Tally b' rest m) :
      Tally b (turn :: rest) m

variable {b b' : Builder} {turn : Turn} {turns : List Turn}

theorem writer_of_take?_ok (run : b.take? turn = some (.ok (), b')) :
    b'.writer = (b.writer.exec (turn.write b.dialect b.table)).2 := by
  rw [take?_eq_step?] at run
  obtain ⟨w, written, rfl⟩ := eq_of_step?_ok run
  rw [written]

/-- A step that fails leaves the collection as it was. -/
theorem parameters_of_take?_error {e : StatementError}
    (run : b.take? turn = some (.error e, b')) :
    b'.writer.parameters = b.writer.parameters := by
  rw [take?_eq_step?] at run
  obtain ⟨w, undone, written, back, rfl⟩ := eq_of_step?_error run
  have bound := (turn.write_bindsOn b.dialect b.table).of_exec written
  have parameters := Writer.rollback?_parameters bound back
  exact parameters

theorem takeAll?_cons {result : Except StatementError Unit × Builder}
    (run : b.take? turn = some result) (rest : List Turn) :
    b.takeAll? (turn :: rest) = result.2.takeAll? rest := by
  rw [takeAll?, run]

/-- A run that does not come to its end comes to a step that panics. -/
theorem takeAll?_eq_none_iff : b.takeAll? turns = none ↔
    ∃ before turn after reached, turns = before ++ turn :: after ∧
      b.takeAll? before = some reached ∧ reached.take? turn = none := by
  induction turns generalizing b with
  | nil =>
    refine iff_of_false nofun ?_
    rintro ⟨before, turn, after, -, split, -⟩
    exact List.append_ne_nil_of_right_ne_nil before (List.cons_ne_nil turn after) split.symm
  | cons first rest ih =>
    cases run : b.take? first with
    | none =>
      refine iff_of_true ?_ ⟨[], first, rest, b, rfl, rfl, run⟩
      rw [takeAll?, run]
    | some result =>
      rw [takeAll?_cons run, ih]
      constructor
      · rintro ⟨before, turn, after, reached, rfl, ran, panics⟩
        exact ⟨first :: before, turn, after, reached, rfl, (takeAll?_cons run before).trans ran,
          panics⟩
      · rintro ⟨_ | ⟨_, before⟩, turn, after, reached, split, ran, panics⟩
        · cases split
          cases ran
          rw [run] at panics
          cases panics
        · cases split
          rw [takeAll?_cons run] at ran
          exact ⟨before, turn, after, reached, rfl, ran, panics⟩

/-- It is a step by hand whose acts fail, and the old length splits a character of what they
left. -/
theorem take?_eq_none_iff : b.take? turn = none ↔
    ∃ acts e left, turn = .raw acts ∧
      b.writer.exec (Act.writeAll b.dialect b.table acts) = (.error e, left) ∧
      Text.Inside left.text b.writer.text.utf8ByteSize := by
  cases turn with
  | command c =>
    refine iff_of_false nofun ?_
    rintro ⟨_, _, _, ⟨⟩, -⟩
  | raw acts =>
    refine step?_eq_none_iff.trans ⟨?_, ?_⟩
    · rintro ⟨e, left, failed, inside⟩
      exact ⟨acts, e, left, rfl, failed, inside⟩
    · rintro ⟨_, e, left, ⟨⟩, failed, inside⟩
      exact ⟨e, left, failed, inside⟩

theorem exists_tally {final : Builder} (run : b.takeAll? turns = some final) :
    ∃ n, b.Tally turns n := by
  induction turns generalizing b with
  | nil => exact ⟨0, .nil⟩
  | cons turn rest ih =>
    cases first : b.take? turn with
    | none =>
      rw [takeAll?, first] at run
      cases run
    | some result =>
      rw [takeAll?_cons first] at run
      obtain ⟨m, later⟩ := ih run
      obtain ⟨e | ⟨⟩, b'⟩ := result
      · exact ⟨m, .failed first later⟩
      · obtain ⟨n, binds⟩ := turn.exists_binds b.dialect b.table b.writer
        exact ⟨n + m, .succeeded first binds later⟩

/-- A run binds on to the collection, by the values of the steps that succeeded. -/
theorem Tally.counts {n : Nat} (h : b.Tally turns n) {final : Builder}
    (run : b.takeAll? turns = some final) :
    b.writer.BindsOn final.writer ∧ final.writer.bound = b.writer.bound + n := by
  induction h with
  | nil =>
    cases run
    exact ⟨.of_eq rfl, rfl⟩
  | @succeeded b b' turn rest n m first binds later ih =>
    rw [takeAll?_cons first] at run
    obtain ⟨grown, size⟩ := ih run
    have step : b.writer.BindsOn b'.writer := by
      rw [writer_of_take?_ok first]
      exact turn.write_bindsOn b.dialect b.table b.writer
    have count : b'.writer.bound = b.writer.bound + n := by
      rw [writer_of_take?_ok first]
      exact binds.bound_eq
    refine ⟨step.trans grown, size.trans ?_⟩
    rw [count, Nat.add_assoc]
  | @failed b b' turn e rest m first later ih =>
    rw [takeAll?_cons first] at run
    obtain ⟨grown, size⟩ := ih run
    have same := parameters_of_take?_error first
    refine ⟨(Writer.BindsOn.of_eq same).trans grown, size.trans ?_⟩
    unfold Writer.bound
    rw [same]

/-- No other number counts a run that comes to its end. -/
theorem Tally.unique {n m : Nat} (h : b.Tally turns n) (h' : b.Tally turns m) {final : Builder}
    (run : b.takeAll? turns = some final) : m = n :=
  Nat.add_left_cancel ((h'.counts run).2.symm.trans (h.counts run).2)

section Fresh

variable {n : Nat} {final : Builder} (fresh : b.writer.parameters = none) (h : b.Tally turns n)
  (run : b.takeAll? turns = some final)

include fresh h run

/-- From no collection on, everything in the collection is counted. -/
theorem Tally.bound_eq : final.writer.bound = n := by
  have none : b.writer.bound = 0 := by rw [Writer.bound, fresh]
  rw [(h.counts run).2, none, Nat.zero_add]

theorem Tally.parameters_eq_none_iff : final.writer.parameters = none ↔ n = 0 := by
  have count := h.bound_eq fresh run
  constructor
  · intro none
    rw [← count, Writer.bound, none]
  · rintro rfl
    have start : b.writer.entries = [] := by
      rw [Writer.entries, fresh]
      rfl
    have unbound : final.writer.entries = [] := by
      apply List.eq_nil_of_length_eq_zero
      rw [← Writer.bound_eq_length, count]
    exact ((h.counts run).1.parameters_eq (unbound.trans start.symm)).trans fresh

/-- A collection came into being with a value. -/
theorem Tally.size_eq {p : Parameters Value} (some : final.writer.parameters = some p) :
    p.isEmpty = false ∧ p.size = n := by
  have counted : p.size = n := by
    rw [← h.bound_eq fresh run, Writer.bound, some]
  refine ⟨Bool.eq_false_iff.2 fun empty => ?_, counted⟩
  have nothing : n = 0 := counted.symm.trans (Array.isEmpty_iff_size_eq_zero.1 empty)
  rw [(h.parameters_eq_none_iff fresh run).2 nothing] at some
  cases some

end Fresh

/-- A collection tells what has been bound. In any run of commands and steps by hand, which may fail
or pass over failures, the steps that succeed bind some number of values, and one number only. At
the end of the run, which may be any point of a longer one, there is no collection exactly if that
number is nothing. Else it is the size of the collection, which is never an empty one. So a query
has no parameters exactly if no value was bound.

A run does not come to its end exactly if it comes to a step by hand whose acts fail and cannot be
undone, because the old length splits a character of the text that they left. -/
theorem parameters_tally (d : Dialect) (t : Table) (turns : List Turn) :
    let start : Builder := { dialect := d, table := t }
    (∀ final, start.takeAll? turns = some final →
      ∃ n, (∀ m, start.Tally turns m ↔ m = n) ∧
        (final.writer.parameters = none ↔ n = 0) ∧
        (∀ p, final.writer.parameters = some p → p.isEmpty = false ∧ p.size = n) ∧
        (final.query.parameters = none ↔ n = 0)) ∧
    (start.takeAll? turns = none ↔
      ∃ before acts after reached e left, turns = before ++ .raw acts :: after ∧
        start.takeAll? before = some reached ∧
        reached.writer.exec (Act.writeAll reached.dialect reached.table acts) =
          (.error e, left) ∧
        Text.Inside left.text reached.writer.text.utf8ByteSize) := by
  intro start
  refine ⟨fun final run => ?_, ?_⟩
  · obtain ⟨n, tally⟩ := exists_tally run
    have absent := tally.parameters_eq_none_iff rfl run
    refine ⟨n, fun m => ⟨fun other => ?_, fun same => ?_⟩, absent, fun p some => ?_, absent⟩
    · exact tally.unique other run
    · rwa [same]
    · exact tally.size_eq rfl run some
  · rw [takeAll?_eq_none_iff]
    simp only [take?_eq_none_iff]
    constructor
    · rintro ⟨before, _, after, reached, split, ran, acts, e, left, rfl, failed, inside⟩
      exact ⟨before, acts, after, reached, e, left, split, ran, failed, inside⟩
    · rintro ⟨before, acts, after, reached, e, left, split, ran, failed, inside⟩
      exact ⟨before, _, after, reached, split, ran, acts, e, left, rfl, failed, inside⟩

end Builder

end BoundSql
