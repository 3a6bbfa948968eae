import BoundSql.Proofs.Operand
import BoundSql.Table.Lemmas

/-!
# What conditions and commands are composed of

Conditions and commands are sequences of a few single acts: text, an identifier, the name of a
table, a bound value, a question to a producer, a report. `Writing.Composed` says so of a
computation under every dialect of a family at once: it is one composition, and only its acts look
at the dialect. So what each act keeps, every condition and every command keeps, by an induction
over the composition that need not know them.

The two theorems are `Predicate.compile_composed`, for dialects with one size of a chunk, and
`Command.write_composed`. A condition binds under positional names only, and a command also under
the names of the table's members; the parameter `N` of the judgement holds the names that may be
bound by name.
-/

namespace BoundSql

namespace Writing

variable {ι : Type} {α β : Type}

/-- The computations are one composition of acts, which look at the dialects of a family. Only a
name that is bound may be a duplicate. -/
inductive Composed (dialect : ι → Dialect) (N : String → Prop) : {α : Type} → (ι → Writing α) → Prop
  | pure {α : Type} (a : α) : Composed dialect N fun _ => pure a
  | throw {α : Type} {e : StatementError} (plain : e.isDuplicateParameter = false) :
      Composed dialect N fun _ => (throw e : Writing α)
  | bind {α β : Type} {x : ι → Writing α} {f : α → ι → Writing β} (hx : Composed dialect N x)
      (hf : ∀ a, Composed dialect N (f a)) : Composed dialect N fun i => x i >>= fun a => f a i
  | text (s : String) : Composed dialect N fun _ => text s
  | identifier (name : String) : Composed dialect N fun i => identifier (dialect i) name
  | tableName (t : Table) : Composed dialect N fun i => tableName (dialect i) t
  | separator (s : String) : Composed dialect N fun _ => separator s
  | report (event : Event) : Composed dialect N fun _ => report event
  | asking {α : Type} {x : Asking α}
      (plain : ∀ (log : CallLog) (e : StatementError),
        (log.answer x).1 = .error e → e.isDuplicateParameter = false) :
      Composed dialect N fun _ => asking x
  | bindName {name : String} (allowed : N name) (value : Value) :
      Composed dialect N fun i => bind (dialect i) name value
  | bindNext (value : Value) : Composed dialect N fun i => bindNext (dialect i) value

namespace Composed

variable {dialect : ι → Dialect} {N : String → Prop}

/-- What follows a check is composed of acts as far as the check passes. -/
theorem checked {x : Except StatementError α} {f : α → ι → Writing β}
    (plain : ∀ e, x = .error e → e.isDuplicateParameter = false)
    (hf : ∀ a, x = .ok a → Composed dialect N (f a)) :
    Composed dialect N fun i => Writing.ofExcept x >>= fun a => f a i := by
  cases x with
  | ok a => exact hf a rfl
  | error e => exact .throw (plain e rfl)

/-- Composed items with a text between them. -/
theorem separated {between : String} {write : ι → α → Writing Unit} {items : List α}
    (hwrite : ∀ a ∈ items, Composed dialect N fun i => write i a) :
    Composed dialect N fun i => Writing.separated between (write i) items := by
  match items with
  | [] => exact .pure ()
  | [item] => exact hwrite item (List.mem_singleton_self item)
  | item :: next :: rest =>
    refine .bind (hwrite item List.mem_cons_self) fun _ => .bind (.text between) fun _ => ?_
    exact separated fun a ha => hwrite a (List.mem_cons_of_mem item ha)

end Composed

end Writing

open Writing (Composed)

/-! ## Conditions -/

namespace Predicate

variable {ι : Type} {dialect : ι → Dialect} {N : String → Prop}

/-- An operand without a value is a failed evaluation, and no other fault. -/
theorem evaluate_eq_error (p : Predicate) (log : CallLog) (e : StatementError)
    (h : (log.answer p.evaluate).1 = .error e) : ∃ reason, e = .evaluation reason := by
  induction p generalizing e with
  | computed producer =>
    rw [evaluate, CallLog.answer_ask] at h
    cases answer : producer.outcome log with
    | ok value =>
      rw [answer] at h
      cases h
    | error reason =>
      rw [answer] at h
      cases h
      exact ⟨reason, rfl⟩
  | element source index ih =>
    rw [evaluate, CallLog.answer_bind] at h
    rcases hsource : log.answer source.evaluate with ⟨e' | value, after⟩
    · rw [hsource] at h
      cases h
      exact ih e (congrArg Prod.fst hsource)
    · rw [hsource] at h
      dsimp only at h
      cases item : value.element index with
      | ok found =>
        rw [item] at h
        cases h
      | error e' =>
        rw [item] at h
        cases h
        obtain ⟨reason, -, rfl⟩ := Value.element_eq_error_iff.1 item
        exact ⟨reason, rfl⟩
  | literal => cases h
  | column | comparison | logical | membership =>
    cases h
    exact ⟨_, rfl⟩

/-- Evaluating an operand binds nothing, so it meets no name that is taken. -/
theorem evaluate_not_duplicate (p : Predicate) (log : CallLog) (e : StatementError)
    (h : (log.answer p.evaluate).1 = .error e) : e.isDuplicateParameter = false := by
  obtain ⟨reason, rfl⟩ := p.evaluate_eq_error log e h
  rfl

theorem writeComparison_composed (c : Column) (op : Comparison) (value : Value) :
    Composed dialect N fun i => writeComparison (dialect i) c op value := by
  simp only [writeComparison_eq]
  refine .bind (.identifier _) fun _ => ?_
  split
  · exact .text _
  · exact .bind (.text _) fun _ => .bindNext value

theorem writeInTest_composed (c : Column) (values : List Value) :
    Composed dialect N fun i => writeInTest (dialect i) c values :=
  .bind (.identifier _) fun _ => .bind (.text _) fun _ => .bindNext _

/-- A membership has the same parts under dialects that split alike. -/
theorem writeMembership_composed {size : Nat} (pos : 0 < size)
    (sized : ∀ i, (dialect i).chunkSize = size) (c : Column) (values : List Value) :
    Composed dialect N fun i => writeMembership (dialect i) c values := by
  have parts : ∀ i, chunks (dialect i).chunkSize (dialect i).chunkSize_pos values =
      chunks size pos values := by
    intro i
    have same := sized i
    subst same
    rfl
  simp only [writeMembership_eq, parts]
  match chunks size pos values with
  | [] => exact .text _
  | [whole] => exact writeInTest_composed c whole
  | part :: next :: rest =>
    refine .bind (.report _) fun _ => ?_
    refine .bind (.text _) fun _ => ?_
    refine .bind (.separated fun values _ => writeInTest_composed c values) fun _ => ?_
    exact .text _

theorem writeGrouped_composed (grouped : Bool) {condition : ι → Writing Unit}
    (h : Composed dialect N condition) :
    Composed dialect N fun i => writeGrouped grouped (condition i) := by
  cases grouped with
  | true => exact .bind (.text _) fun _ => .bind h fun _ => .text _
  | false => exact h

/-- Conditions are composed of acts, and bind under positional names alone. -/
theorem compile_composed {size : Nat} (pos : 0 < size) (sized : ∀ i, (dialect i).chunkSize = size)
    (t : Table) (p : Predicate) : Composed dialect N fun i => p.compile (dialect i) t := by
  induction p with
  | logical op left right ihl ihr =>
    simp only [compile]
    refine .bind (writeGrouped_composed _ ihl) fun _ => ?_
    refine .bind (.text _) fun _ => ?_
    exact writeGrouped_composed _ ihr
  | comparison op left right ihl ihr =>
    simp only [compile]
    split
    · next side member operand _ =>
      refine .checked (fun _ => Table.mappedColumn_not_duplicate) fun c _ => ?_
      refine .bind (.asking operand.evaluate_not_duplicate) fun value => ?_
      exact writeComparison_composed c _ value
    · exact .throw rfl
  | membership member values =>
    simp only [compile]
    refine .checked (fun _ => Table.mappedColumn_not_duplicate) fun c _ => ?_
    exact writeMembership_composed pos sized c values
  | literal value =>
    cases value with
    | bool b => cases b <;> exact .text _
    | _ => exact .throw rfl
  | column | computed | element => exact .throw rfl

/-- So is a condition under one dialect. -/
theorem compile_composed_self (d : Dialect) (t : Table) (p : Predicate) :
    Composed (fun _ : Unit => d) (fun _ => False) fun _ => p.compile d t :=
  p.compile_composed d.chunkSize_pos (fun _ => rfl) t

end Predicate

/-! ## Commands -/

namespace Command

variable {ι : Type} {dialect : ι → Dialect} {N : String → Prop}

/-- Composed lines, of which there is one at least. -/
theorem writeLines_composed {write : ι → Column → Writing Unit} {columns : List Column}
    (some : columns ≠ []) (h : ∀ c ∈ columns, Composed dialect N fun i => write i c) :
    Composed dialect N fun i => writeLines (write i) columns := by
  simp only [writeLines_eq_separated _ some]
  exact .separated fun c hc => .bind (.text _) fun _ => h c hc

/-- A value is bound under the name of its member, or is the ambient text. -/
theorem writeValue_composed (ambient : Bool) {c : Column} (allowed : N c.member) :
    Composed dialect N fun i => writeValue (dialect i) ambient c := by
  unfold writeValue
  split
  · exact .text _
  · exact .bindName allowed _

theorem writeKey_composed (c : Column) (direction : Direction) :
    Composed dialect N fun i => writeKey (dialect i) c direction := by
  refine .bind (.identifier _) fun _ => ?_
  cases direction with
  | ascending => exact .pure ()
  | descending => exact .text _

/-- The columns of an insert are columns of the table, in its order. -/
theorem insertColumns_sublist {t : Table} {members : Option (List String)} {columns : List Column}
    (h : insertColumns t members = .ok columns) : columns.Sublist t.columns := by
  unfold insertColumns at h
  split at h
  · cases h
  · next targets found =>
    have within := Table.targetColumns_sublist found
    split at h
    · cases h
    · cases h
      exact List.filter_sublist.trans within

/-- An insert without a column is refused. -/
theorem insertColumns_ne_nil {t : Table} {members : Option (List String)} {columns : List Column}
    (h : insertColumns t members = .ok columns) : columns ≠ [] := by
  unfold insertColumns at h
  split at h
  · cases h
  · split at h
    · cases h
    · next nonempty =>
      cases h
      exact nonempty

/-- It is not refused for a name that is taken. -/
theorem insertColumns_not_duplicate {t : Table} {members : Option (List String)}
    {e : StatementError} (h : insertColumns t members = .error e) :
    e.isDuplicateParameter = false := by
  unfold insertColumns at h
  split at h
  · next refused =>
    cases h
    exact Table.targetColumns_not_duplicate refused
  · split at h
    · cases h
      rfl
    · cases h

/-- Commands are composed of acts, and bind by name the members of the table alone. -/
theorem write_composed {size : Nat} (pos : 0 < size) (sized : ∀ i, (dialect i).chunkSize = size)
    {t : Table} (allowed : ∀ c ∈ t.columns, N c.member) (c : Command) :
    Composed dialect N fun i => c.write (dialect i) t := by
  cases c with
  | count =>
    refine .bind (.text _) fun _ => ?_
    refine .bind (.identifier _) fun _ => ?_
    exact .bind (.text _) fun _ => .tableName t
  | select members =>
    refine .checked (fun _ => Table.targetColumns_not_duplicate) fun columns found => ?_
    have some := Table.targetColumns_ne_nil found
    refine .bind (.text _) fun _ => ?_
    refine .bind (writeLines_composed some fun c _ => ?_) fun _ => ?_
    · refine .bind (.identifier _) fun _ => ?_
      exact .bind (.text _) fun _ => .identifier _
    · exact .bind (.text _) fun _ => .tableName t
  | insert members ambient =>
    refine .checked (fun _ => insertColumns_not_duplicate) fun columns found => ?_
    have known := (insertColumns_sublist found).subset
    have some := insertColumns_ne_nil found
    refine .bind (.text _) fun _ => ?_
    refine .bind (.tableName t) fun _ => ?_
    refine .bind (.text _) fun _ => ?_
    refine .bind (writeLines_composed some fun c _ => .identifier _) fun _ => ?_
    refine .bind (.text _) fun _ => ?_
    refine .bind (writeLines_composed some fun c hc => ?_) fun _ => .text _
    exact writeValue_composed ambient (allowed c (known hc))
  | update members ambient =>
    refine .checked (fun _ => Table.targetColumns_not_duplicate) fun columns found => ?_
    have known := (Table.targetColumns_sublist found).subset
    refine .bind (.text _) fun _ => ?_
    refine .bind (.tableName t) fun _ => ?_
    refine .bind (.text _) fun _ => ?_
    refine writeLines_composed (Table.targetColumns_ne_nil found) fun c hc => ?_
    refine .bind (.identifier _) fun _ => ?_
    exact .bind (.text _) fun _ => writeValue_composed ambient (allowed c (known hc))
  | delete => exact .bind (.text _) fun _ => .tableName t
  | truncate => exact .bind (.text _) fun _ => .tableName t
  | filter predicate =>
    refine .bind (.separator _) fun _ => ?_
    exact .bind (.text _) fun _ => predicate.compile_composed pos sized t
  | orderBy member direction =>
    refine .checked (fun _ => Table.mappedColumn_not_duplicate) fun c _ => ?_
    refine .bind (.separator _) fun _ => ?_
    exact .bind (.text _) fun _ => writeKey_composed c direction
  | thenBy member direction =>
    refine .checked (fun _ => Table.mappedColumn_not_duplicate) fun c _ => ?_
    refine .bind (.separator _) fun _ => ?_
    exact .bind (.text _) fun _ => writeKey_composed c direction

/-- So is a command under one dialect, whatever it may bind. -/
theorem write_composed_self (d : Dialect) (t : Table) (c : Command) :
    Composed (fun _ : Unit => d) (fun _ => True) fun _ => c.write d t :=
  c.write_composed d.chunkSize_pos (fun _ => rfl) fun _ _ => trivial

end Command

end BoundSql
