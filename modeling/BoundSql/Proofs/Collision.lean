import BoundSql.Proofs.Assignments
import BoundSql.Proofs.Isolation
import BoundSql.Proofs.Numbering

/-!
# Names that collide

Members are bound under their own names and conditions under positional ones, and both share one
collection. So a member may be called as a positional name is, and then the condition behind an
insertion or an update can fail with a duplicate, without any parameters from outside.
`Session.duplicates_iff` says exactly when: for the sessions of one command, at most one condition
and any orderings, some step meets a duplicate if and only if the condition comes to a positional
name that is a member bound by the command in front. `Session.substitution_collides` is one.

A condition is compared with the same condition on a statement without parameters
(`Writer.Behind`). What it does there it does behind any parameters, with its names counted on from
them, up to the first name that is taken (`Writing.Composed.behind`).
-/

namespace BoundSql

open Writing (Composed numbered positional)

theorem ok_ne_duplicate {α : Type} (a : α) (name : String) :
    (Except.ok a : Except StatementError α) ≠ .error (.duplicateParameter name) := nofun

namespace Writer

variable {base : List (String × Value)} {u w : Writer}

/-- `w` has bound behind some entries what `u` has bound on its own, all under positional names, and
both have asked the same. -/
structure Behind (base : List (String × Value)) (u w : Writer) : Prop where
  values : ∃ values,
    u.entries = numbered 0 values ∧ w.entries = base ++ numbered base.length values
  calls : w.calls = u.calls

/-- How a run behind some entries ends, when the same run on its own starts with `n` values and ends
as given: alike, if no name on the way is taken, and with a duplicate at the first that is. -/
inductive Ends (base : List (String × Value)) (n : Nat) {α : Type} :
    Except StatementError α × Writer → Except StatementError α × Writer → Prop
  | alike {outcome : Except StatementError α} {u w : Writer} (behind : u.Behind base w)
      (plain : ∀ name, outcome ≠ .error (.duplicateParameter name))
      (free : ∀ j, n ≤ j → j < u.bound → ¬Taken base j) : Ends base n (outcome, u) (outcome, w)
  | stopped {outcome : Except StatementError α} {u w : Writer} (j : Nat) (start : n ≤ j)
      (inside : j < u.bound) (taken : Taken base j) (free : ∀ i, n ≤ i → i < j → ¬Taken base i) :
      Ends base n (outcome, u) (.error (.duplicateParameter (positional (base.length + j + 1))), w)

/-- An act that binds nothing ends alike. -/
theorem Ends.still {α : Type} {outcome : Except StatementError α} {u' w' : Writer}
    (behind : u'.Behind base w') (bound : u'.bound = u.bound)
    (plain : ∀ name, outcome ≠ .error (.duplicateParameter name)) :
    Ends base u.bound (outcome, u') (outcome, w') :=
  .alike behind plain fun j start inside => absurd inside (by omega)

/-- What ends in some way from a later start on ends so from an earlier one, if no name in between
is taken. -/
theorem Ends.extend {α : Type} {n m : Nat} {r r' : Except StatementError α × Writer}
    (later : Ends base m r r') (le : n ≤ m) (free : ∀ j, n ≤ j → j < m → ¬Taken base j) :
    Ends base n r r' := by
  have both : ∀ j, n ≤ j → (m ≤ j → ¬Taken base j) → ¬Taken base j := fun j begun rest =>
    (Nat.lt_or_ge j m).elim (free j begun) rest
  cases later with
  | alike behind plain free' =>
    exact .alike behind plain fun j begun inside => both j begun fun after => free' j after inside
  | stopped j start inside taken free' =>
    exact .stopped j (le.trans start) inside taken fun k begun early =>
      both k begun fun after => free' k after early

/-- A sequence ends as its first part does if that is stopped, and else as the second part. -/
theorem Ends.bind {α β : Type} {x : Writing α} {f : α → Writing β}
    (first : Ends base u.bound (u.exec x) (w.exec x)) (grown : u.bound ≤ (u.exec x).2.bound)
    (second : ∀ (a : α) {u w : Writer}, u.Behind base w →
      Ends base u.bound (u.exec (f a)) (w.exec (f a)))
    (grows : ∀ (a : α) (u : Writer), u.bound ≤ (u.exec (f a)).2.bound) :
    Ends base u.bound (u.exec (x >>= f)) (w.exec (x >>= f)) := by
  rw [exec_bind, exec_bind]
  revert first grown
  generalize u.exec x = r
  generalize w.exec x = r'
  intro first grown
  cases first with
  | @alike outcome mid mid' behind plain free =>
    cases outcome with
    | error e => exact .alike behind (fun name same => plain name (by cases same; rfl)) free
    | ok a => exact (second a behind).extend grown free
  | @stopped outcome mid mid' j start inside taken free =>
    cases outcome with
    | error e => exact .stopped j start inside taken free
    -- what the first part binds on its own stays bound there
    | ok a => exact .stopped j start (Nat.lt_of_lt_of_le inside (grows a mid)) taken free

/-- The next name is free on its own. Behind the entries it is free unless it is one of theirs. -/
theorem Behind.bindNext (behind : u.Behind base w) (d : Dialect) (value : Value) :
    Ends base u.bound (u.exec (Writing.bindNext d value)) (w.exec (Writing.bindNext d value)) := by
  obtain ⟨⟨values, alone, after⟩, calls⟩ := behind
  have count : u.bound = 0 + values.length := by
    rw [u.bound_eq_length, alone, Writing.length_numbered, Nat.zero_add]
  have count' : w.bound = base.length + values.length := by
    rw [w.bound_eq_length, after, List.length_append, Writing.length_numbered]
  have fresh : positional (u.bound + 1) ∉ u.names := by
    have own : u.entries = [] ++ numbered 0 values := alone
    rw [count]
    exact fun there => List.not_mem_nil ((positional_mem_names_iff own 0).1 there)
  obtain ⟨p, entries, run⟩ := u.exec_bindName_of_not_mem d value fresh
  have size : ∀ text calls events, bound ⟨text, some p, calls, events⟩ = u.bound + 1 := by
    intro text calls events
    rw [bound_eq_length, entries_some, entries, List.length_append, ← u.bound_eq_length]
    rfl
  have place : positional (w.bound + 1) ∈ w.names ↔ Taken base u.bound := by
    rw [count', Taken, count, Nat.zero_add]
    exact positional_mem_names_iff after 0
  rw [exec_bindNext, exec_bindNext, run]
  by_cases taken : Taken base u.bound
  · rw [exec_bindName_of_mem w d value (place.2 taken), count', ← Nat.zero_add values.length,
      ← count]
    refine .stopped u.bound (Nat.le_refl _) ?_ taken fun i start inside => absurd inside (by omega)
    rw [size]
    omega
  · obtain ⟨q, entries', run'⟩ := w.exec_bindName_of_not_mem d value fun there =>
      taken (place.1 there)
    rw [run']
    refine .alike ⟨⟨values ++ [value], ?_, ?_⟩, calls⟩ (ok_ne_duplicate _) fun j start inside => ?_
    · rw [entries_some, entries, alone, count, Writing.numbered_append]
      rfl
    · rw [entries_some, entries', after, count', Writing.numbered_append, List.append_assoc]
      rfl
    · rw [size] at inside
      rwa [show j = u.bound by omega]

end Writer

/-- A composition that binds positional names alone ends behind some entries as it does on its own,
up to the first name that is taken. -/
theorem Writing.Composed.behind {ι α : Type} {dialect : ι → Dialect} {x : ι → Writing α}
    (h : Composed dialect (fun _ => False) x) (i : ι) {base : List (String × Value)}
    {u w : Writer} (behind : u.Behind base w) :
    Writer.Ends base u.bound (u.exec (x i)) (w.exec (x i)) := by
  induction h generalizing u w with
  | pure a => exact .still behind rfl (ok_ne_duplicate _)
  | @throw _ e plain =>
    refine .still behind rfl fun name same => ?_
    cases same
    cases plain
  | bind hx hf ihx ihf =>
    have grows : ∀ {γ : Type} {y : ι → Writing γ}, Composed dialect (fun _ => False) y →
        ∀ u : Writer, u.bound ≤ (u.exec (y i)).2.bound :=
      fun hy u => (hy.ensures (G := Writer.BindsOn) i u).bound_le
    exact .bind (ihx behind) (grows hx u) (fun a _ _ => ihf a) fun a => grows (hf a)
  | text s => exact .still ⟨behind.values, behind.calls⟩ rfl (ok_ne_duplicate _)
  | identifier name => exact .still ⟨behind.values, behind.calls⟩ rfl (ok_ne_duplicate _)
  | tableName t =>
    rw [Writer.exec_tableName, Writer.exec_tableName]
    exact .still ⟨behind.values, behind.calls⟩ rfl (ok_ne_duplicate _)
  | separator s =>
    rw [Writer.exec_separator_eq, Writer.exec_separator_eq]
    exact .still ⟨behind.values, behind.calls⟩ rfl (ok_ne_duplicate _)
  | report event => exact .still ⟨behind.values, behind.calls⟩ rfl (ok_ne_duplicate _)
  | @asking _ y plain =>
    rw [Writer.exec_asking, Writer.exec_asking, behind.calls]
    refine .still ⟨behind.values, rfl⟩ rfl fun name same => ?_
    cases plain _ _ same
  | bindName allowed value => exact allowed.elim
  | bindNext value => exact behind.bindNext _ value

/-- A condition meets a duplicate at the first positional name, of those it comes to on its own,
that is taken by the parameters in front. -/
theorem Predicate.compile_duplicate_iff (d : Dialect) (t : Table) (p : Predicate) (w : Writer)
    (name : String) :
    (w.exec (p.compile d t)).1 = .error (.duplicateParameter name) ↔
      ∃ j < (Writer.exec { calls := w.calls } (p.compile d t)).2.bound,
        Writer.Taken w.entries j ∧ (∀ i < j, ¬Writer.Taken w.entries i) ∧
          name = positional (w.entries.length + j + 1) := by
  have start : Writer.Behind w.entries { calls := w.calls } w :=
    ⟨⟨[], rfl, (List.append_nil _).symm⟩, rfl⟩
  have ends := (p.compile_composed_self d t).behind () start
  revert ends
  generalize Writer.exec { calls := w.calls } (p.compile d t) = r
  generalize w.exec (p.compile d t) = r'
  intro ends
  cases ends with
  | alike behind plain free =>
    refine iff_of_false (plain name) ?_
    rintro ⟨j, inside, taken, -⟩
    exact free j (Nat.zero_le j) inside taken
  | stopped j _ inside taken free =>
    constructor
    · intro same
      cases same
      exact ⟨j, inside, taken, fun i => free i (Nat.zero_le i), rfl⟩
    · rintro ⟨k, -, taken', free', rfl⟩
      -- both are the first that is taken
      rcases Nat.lt_trichotomy j k with earlier | rfl | later
      · exact absurd taken (free' j earlier)
      · rfl
      · exact absurd taken' (free k (Nat.zero_le k) later)

namespace Builder

/-- A step that filters meets a duplicate as its condition does. -/
theorem filter_duplicate_iff (b : Builder) (p : Predicate) (name : String) :
    (b.command (.filter p)).1 = .error (.duplicateParameter name) ↔
      ∃ j < (Writer.exec { calls := b.writer.calls } (p.compile b.dialect b.table)).2.bound,
        Writer.Taken b.writer.entries j ∧ (∀ i < j, ¬Writer.Taken b.writer.entries i) ∧
          name = positional (b.writer.entries.length + j + 1) := by
  have outcome : (b.command (.filter p)).1 =
      (b.writer.exec ((Command.filter p).write b.dialect b.table)).1 := by
    rcases run : b.writer.exec ((Command.filter p).write b.dialect b.table) with ⟨e | ⟨⟩, w⟩
    · rw [command_failed run]
    · rw [command_ok run]
  rw [outcome, Command.write, Writer.exec_bind, Writer.exec_separator_eq]
  exact p.compile_duplicate_iff b.dialect b.table _ name

end Builder

/-! ## Sessions -/

namespace Command

/-- The commands that a session may begin with. -/
def opens : Command → Bool
  | .count | .select _ | .insert .. | .update .. | .delete | .truncate => true
  | .filter _ | .orderBy .. | .thenBy .. => false

/-- The commands that order rows. -/
def orders : Command → Bool
  | .orderBy .. | .thenBy .. => true
  | _ => false

theorem ne_filter_of_opens {c : Command} (h : c.opens = true) (p : Predicate) : c ≠ .filter p := by
  rintro rfl
  cases h

theorem ne_filter_of_orders {c : Command} (h : c.orders = true) (p : Predicate) :
    c ≠ .filter p := by
  rintro rfl
  cases h

theorem boundMembers_of_orders {c : Command} (h : c.orders = true) (t : Table) :
    c.boundMembers t = [] := by
  cases c with
  | orderBy | thenBy => rfl
  | _ => cases h

end Command

/-- A session in the documented form: one command, at most one condition, and any orderings. -/
structure Session where
  opening : Command
  opens : opening.opens = true
  filter : Option Predicate
  ordering : List Command
  orders : ∀ c ∈ ordering, c.orders = true

/-- The commands of a session, one step each. -/
def Session.commands (s : Session) : List Command :=
  s.opening :: ((s.filter.map .filter).toList ++ s.ordering)

/-- Orderings never meet a duplicate. -/
theorem Builder.performAll_orderings (b : Builder) {cs : List Command}
    (orders : ∀ c ∈ cs, c.orders = true) {name : String} :
    ¬∃ r ∈ b.performAll (cs.map .command), r.1 = .error (.duplicateParameter name) := by
  induction cs generalizing b with
  | nil =>
    rintro ⟨r, mem, -⟩
    cases mem
  | cons c cs ih =>
    have here := orders c List.mem_cons_self
    have free : (b.writer.names ++ c.boundMembers b.table).Nodup := by
      rw [Command.boundMembers_of_orders here, List.append_nil]
      exact b.writer.names_nodup
    rw [List.map_cons, performAll_command]
    rintro ⟨r, mem, duplicate⟩
    rcases List.mem_cons.1 mem with rfl | later
    · exact (command_assigns (Command.ne_filter_of_orders here) free).1 name duplicate
    · exact ih _ (fun c hc => orders c (List.mem_cons_of_mem _ hc)) ⟨r, later, duplicate⟩

/-- A session on a builder without parameters from outside meets a duplicate exactly when its
condition comes to a positional name, counted on from the members that its first command binds, that
is one of them. The duplicate is the first such name. How many names a condition comes to is what it
binds on its own, be it written in full or up to a failure. -/
theorem Session.duplicates_iff (d : Dialect) (t : Table) (trace : Option Trace) (s : Session)
    (name : String) :
    (∃ r ∈ Builder.performAll { dialect := d, table := t, trace } (s.commands.map .command),
        r.1 = .error (.duplicateParameter name)) ↔
      ∃ p j, s.filter = some p ∧ j < (Writer.exec {} (p.compile d t)).2.bound ∧
        name = positional ((s.opening.boundMembers t).length + j + 1) ∧
        name ∈ s.opening.boundMembers t ∧
        ∀ i < j, positional ((s.opening.boundMembers t).length + i + 1) ∉
          s.opening.boundMembers t := by
  have taken_iff : ∀ j, Writer.Taken ((s.opening.boundMembers t).map (·, .null)) j ↔
      positional ((s.opening.boundMembers t).length + j + 1) ∈ s.opening.boundMembers t := by
    intro j
    rw [Writer.Taken, List.length_map, List.map_map]
    exact iff_of_eq (congrArg _ (List.map_id _))
  let b : Builder := { dialect := d, table := t, trace }
  have unfiltered := Command.ne_filter_of_opens s.opens
  obtain ⟨plain, entries, calls⟩ := b.command_assigns unfiltered (s.opening.boundMembers_nodup t)
  rw [commands, List.map_cons, Builder.performAll_command, List.exists_mem_cons_iff]
  cases filtering : s.filter with
  | none =>
    refine iff_of_false ?_ ?_
    · rintro (duplicate | later)
      · exact plain name duplicate
      · exact Builder.performAll_orderings _ s.orders later
    · rintro ⟨p, j, absent, -⟩
      cases absent
  | some p =>
    let b' := (b.command s.opening).2
    show _ ∨ (∃ r ∈ b'.performAll (.command (.filter p) :: s.ordering.map .command), _) ↔ _
    have before : b'.writer.entries = (s.opening.boundMembers t).map (·, .null) := entries
    have asked : b'.writer.calls = [] := calls
    rw [Builder.performAll_command, List.exists_mem_cons_iff, b'.filter_duplicate_iff,
      b.command_dialect, b.command_table, before, asked, List.length_map]
    simp only [taken_iff]
    constructor
    · rintro (duplicate | ⟨j, inside, taken, free, rfl⟩ | later)
      · exact absurd duplicate (plain name)
      · exact ⟨p, j, rfl, inside, rfl, taken, free⟩
      · exact absurd later (Builder.performAll_orderings _ s.orders)
    · rintro ⟨p', j, same, inside, rfl, taken, free⟩
      cases same
      exact .inr (.inl ⟨j, inside, taken, free, rfl⟩)

/-- Matches between two players, first and second. -/
def fixture : Table :=
  .ofColumns "Fixture" none
    [ ColumnDraft.resolve false { member := "p1", memberType := .i32 },
      ColumnDraft.resolve false { member := "p2", memberType := .i32 } ]
    (by decide) (by decide)

theorem mappedColumn_first : fixture.mappedColumn "p1" =
    .ok (ColumnDraft.resolve false { member := "p1", memberType := .i32 }) :=
  Table.mappedColumn_eq_ok_iff.2 ⟨by decide, rfl, rfl⟩

theorem boundMembers_second :
    (Command.update (some ["p2"]) false).boundMembers fixture = ["p2"] := by
  rw [Command.boundMembers, Table.targetColumns]
  simp only [Table.column?_eq_find?]
  rfl

namespace Session

/-- Another second player for the matches of a first one. -/
def substitution (player : Value) : Session where
  opening := .update (some ["p2"]) false
  opens := rfl
  filter := some (.comparison .eq (.column "p1") (.literal player))
  ordering := []
  orders := nofun

/-- The update binds the second player as `p2`, and the condition then takes the second positional
name for the first player. -/
theorem substitution_collides :
    ∃ r ∈ Builder.performAll { dialect := .sqlite, table := fixture }
        ((substitution (.int 5)).commands.map .command),
      r.1 = .error (.duplicateParameter "p2") := by
  let b : Builder := { dialect := .sqlite, table := fixture }
  let update : Command := .update (some ["p2"]) false
  let condition : Predicate := .comparison .eq (.column "p1") (.literal (.int 5))
  obtain ⟨-, entries, calls⟩ := b.command_assigns (c := update)
    (Command.ne_filter_of_opens rfl) (update.boundMembers_nodup fixture)
  let b' := (b.command update).2
  have before : b'.writer.entries = [("p2", .null)] := by
    show (b.command update).2.writer.entries = _
    rw [entries, show update.boundMembers b.table = ["p2"] from boundMembers_second]
    rfl
  have second : "p2" = positional 2 := by decide
  -- on its own, the condition binds one name
  let start : Writer := { text := "\"p1\" = " }
  obtain ⟨p, one, bound⟩ := start.exec_bindName_of_not_mem .sqlite (.int 5)
    (show positional 1 ∉ start.names from List.not_mem_nil)
  have alone : Writer.exec {} (condition.compile .sqlite fixture) =
      start.exec (Writing.bind .sqlite (positional 1) (.int 5)) := by
    simp only [condition, Predicate.compile, Predicate.columnSide?, mappedColumn_first]
    rfl
  refine ⟨b'.command (.filter condition), List.mem_cons_of_mem _ (List.mem_singleton_self _), ?_⟩
  rw [b'.filter_duplicate_iff, b.command_dialect, b.command_table, before,
    show b'.writer.calls = [] from calls]
  refine ⟨0, ?_, ?_, fun i early => absurd early (Nat.not_lt_zero i), second⟩
  · show 0 < (Writer.exec {} (condition.compile .sqlite fixture)).2.bound
    rw [alone, bound, Writer.bound_eq_length, Writer.entries_some, one]
    exact Nat.zero_lt_one
  · exact List.mem_singleton.2 second.symm

end Session

end BoundSql
