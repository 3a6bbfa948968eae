import BoundSql.Proofs.Rollback

/-!
# Ordering by a list of keys

To order by a list of keys takes a step for each of them, and each step is undone on its own. So the
keys stay in the statement that stand in front of the first one without a column.
`Builder.order_keys` is the law: when a list is taken as a whole, with which error it is refused
otherwise, and what the statement has gained by then, which is one block with the keys that could be
resolved (`Builder.resolveKeys`, `Builder.orderText`).

An ordering that is refused is therefore undone only if its very first key is at fault.
-/

namespace BoundSql.Builder

/-! ## Keys -/

/-- The columns of keys up to the first whose member has none, and how that ends. -/
def resolveKeys (t : Table) :
    List (String × Direction) → List (Column × Direction) × Except StatementError Unit
  | [] => ([], .ok ())
  | (member, direction) :: rest =>
    match t.mappedColumn member with
    | .ok c => ((c, direction) :: (resolveKeys t rest).1, (resolveKeys t rest).2)
    | .error e => ([], .error e)

/-- A key as it stands in an ordering. -/
def keyText (d : Dialect) (key : Column × Direction) : String :=
  d.identifier key.1.name ++
    match key.2 with
    | .ascending => ""
    | .descending => " desc"

/-- The block of an ordering behind some text: a line for each key, and nothing without keys. -/
def orderText (d : Dialect) (front : String) : List (Column × Direction) → String
  | [] => ""
  | key :: rest =>
    (if front.isEmpty then "" else "\n") ++ "order by\n    " ++
      ",\n    ".intercalate ((key :: rest).map (keyText d))

/-- The names of the steps of an ordering by some keys. -/
def orderNames : Nat → List String
  | 0 => []
  | n + 1 => "order by" :: List.replicate n "then by"

/-- The lines of further keys. -/
def continuation (d : Dialect) (keys : List (Column × Direction)) : String :=
  String.join (keys.map fun key => ",\n    " ++ keyText d key)

theorem orderText_cons (d : Dialect) (front : String) (key : Column × Direction)
    (rest : List (Column × Direction)) :
    orderText d front (key :: rest) = orderText d front [key] ++ continuation d rest := by
  have lines : ",\n    ".intercalate ((key :: rest).map (keyText d)) =
      keyText d key ++ continuation d rest := by
    induction rest generalizing key with
    | nil => exact String.append_empty.symm
    | cons next rest ih =>
      rw [List.map_cons, List.map_cons, String.intercalate_cons_cons, ← List.map_cons, ih next,
        continuation, continuation, List.map_cons, String.join_cons]
      simp only [String.append_assoc]
  rw [orderText, orderText, lines, List.map_singleton, String.intercalate_singleton]
  simp only [String.append_assoc]

theorem orderText_ne_empty (d : Dialect) (front : String) (key : Column × Direction)
    (rest : List (Column × Direction)) : orderText d front (key :: rest) ≠ "" := by
  intro none
  have opening := (String.append_eq_empty_iff.1 (String.append_eq_empty_iff.1 none).1).2
  exact absurd opening (by simp)

section

variable {t : Table} {member : String} {direction : Direction} {rest : List (String × Direction)}

theorem resolveKeys_mapped {c : Column} (mapped : t.mappedColumn member = .ok c) :
    resolveKeys t ((member, direction) :: rest) =
      ((c, direction) :: (resolveKeys t rest).1, (resolveKeys t rest).2) := by
  rw [resolveKeys, mapped]

theorem resolveKeys_refused {e : StatementError} (refused : t.mappedColumn member = .error e) :
    resolveKeys t ((member, direction) :: rest) = ([], .error e) := by
  rw [resolveKeys, refused]

/-- Keys in front that all have a column come to nothing but their columns. -/
theorem resolveKeys_append {front : List (String × Direction)}
    (mapped : ∀ key ∈ front, ∃ c, t.mappedColumn key.1 = .ok c) (keys : List (String × Direction)) :
    resolveKeys t (front ++ keys) =
      ((resolveKeys t front).1 ++ (resolveKeys t keys).1, (resolveKeys t keys).2) := by
  induction front with
  | nil => rfl
  | cons key front ih =>
    obtain ⟨c, first⟩ := mapped key List.mem_cons_self
    rw [List.cons_append, resolveKeys_mapped first, resolveKeys_mapped first,
      ih fun key mem => mapped key (List.mem_cons_of_mem _ mem)]
    rfl

end

theorem resolveKeys_eq_ok_iff {t : Table} {keys : List (String × Direction)} :
    (resolveKeys t keys).2 = .ok () ↔ ∀ key ∈ keys, ∃ c, t.mappedColumn key.1 = .ok c := by
  induction keys with
  | nil => exact iff_of_true rfl (List.forall_mem_nil _)
  | cons key rest ih =>
    obtain ⟨member, direction⟩ := key
    rw [List.forall_mem_cons, resolveKeys]
    cases t.mappedColumn member with
    | ok c =>
      dsimp only
      rw [ih]
      exact (and_iff_right ⟨c, rfl⟩).symm
    | error e =>
      refine iff_of_false nofun fun all => ?_
      obtain ⟨c, mapped⟩ := all.1
      cases mapped

theorem resolveKeys_eq_error_iff {t : Table} {keys : List (String × Direction)}
    {e : StatementError} :
    (resolveKeys t keys).2 = .error e ↔
      ∃ before key after, keys = before ++ key :: after ∧
        (∀ k ∈ before, ∃ c, t.mappedColumn k.1 = .ok c) ∧ t.Unusable key.1 e := by
  constructor
  · induction keys with
    | nil => exact nofun
    | cons key rest ih =>
      obtain ⟨member, direction⟩ := key
      cases found : t.mappedColumn member with
      | ok c =>
        rw [resolveKeys_mapped found]
        intro failed
        obtain ⟨before, key, after, rfl, mapped, unusable⟩ := ih failed
        exact ⟨(member, direction) :: before, key, after, rfl,
          List.forall_mem_cons.2 ⟨⟨c, found⟩, mapped⟩, unusable⟩
      | error e' =>
        rw [resolveKeys_refused found]
        intro failed
        cases failed
        exact ⟨[], _, rest, rfl, List.forall_mem_nil _, Table.mappedColumn_eq_error_iff.1 found⟩
  · rintro ⟨before, key, after, rfl, mapped, unusable⟩
    rw [resolveKeys_append mapped,
      resolveKeys_refused (Table.mappedColumn_eq_error_iff.2 unusable)]

/-- Keys that all have a column come to the columns of their members, in their order. -/
theorem resolveKeys_members {t : Table} {keys : List (String × Direction)}
    (mapped : ∀ key ∈ keys, ∃ c, t.mappedColumn key.1 = .ok c) :
    (resolveKeys t keys).1.map (fun key => (key.1.member, key.2)) = keys := by
  induction keys with
  | nil => rfl
  | cons key rest ih =>
    obtain ⟨c, first⟩ := mapped key List.mem_cons_self
    rw [resolveKeys_mapped first, List.map_cons,
      ih fun key mem => mapped key (List.mem_cons_of_mem _ mem),
      (Table.mappedColumn_eq_ok_iff.1 first).2.1]

/-! ## Steps -/

theorem exec_writeKey (w : Writer) (d : Dialect) (c : Column) (direction : Direction) :
    w.exec (Command.writeKey d c direction) =
      (.ok (), { w with text := w.text ++ keyText d (c, direction) }) := by
  unfold Command.writeKey keyText
  rw [Writer.exec_identifier_bind, ← String.append_assoc]
  cases direction with
  | ascending => rw [Writer.exec_pure, String.append_empty]
  | descending => rfl

section

variable {b : Builder} {member : String} {direction : Direction}

/-- A key whose member has a column is written behind what opens it. -/
theorem command_key {cmd : Command} {between opening : String} {c : Column}
    (write : cmd.write b.dialect b.table = (do
      let column ← Writing.ofExcept (b.table.mappedColumn member)
      Writing.separator between
      Writing.text opening
      Command.writeKey b.dialect column direction))
    (mapped : b.table.mappedColumn member = .ok c) :
    b.command cmd = (.ok (), { b with
      writer :=
        { b.writer with
          text := b.writer.text ++
            ((if b.writer.text.isEmpty then "" else between) ++ opening ++
              keyText b.dialect (c, direction)) }
      steps := b.steps ++ [cmd.name] }) := by
  refine command_ok ?_
  rw [write, Writer.exec_bind, mapped, Writer.exec_ofExcept]
  dsimp only
  rw [Writer.exec_bind, Writer.exec_separator_eq]
  dsimp only
  rw [Writer.exec_text_bind, exec_writeKey]
  cases b.writer.text.isEmpty <;> simp [String.append_assoc]

/-- The first key opens the block. -/
theorem command_orderBy {c : Column} (mapped : b.table.mappedColumn member = .ok c) :
    b.command (.orderBy member direction) = (.ok (), { b with
      writer :=
        { b.writer with
          text := b.writer.text ++ orderText b.dialect b.writer.text [(c, direction)] }
      steps := b.steps ++ ["order by"] }) := by
  rw [command_key rfl mapped, orderText, List.map_singleton, String.intercalate_singleton]
  rfl

/-- Further keys continue it. -/
theorem command_thenBy {c : Column} (mapped : b.table.mappedColumn member = .ok c)
    (front : b.writer.text.isEmpty = false) :
    b.command (.thenBy member direction) = (.ok (), { b with
      writer :=
        { b.writer with text := b.writer.text ++ (",\n    " ++ keyText b.dialect (c, direction)) }
      steps := b.steps ++ ["then by"] }) := by
  rw [command_key rfl mapped, front]
  rfl

/-- A key whose member has no column is reported and leaves the statement as it was. -/
theorem command_refused {cmd : Command} {f : Column → Writing Unit} {e : StatementError}
    (write : cmd.write b.dialect b.table =
      Writing.ofExcept (b.table.mappedColumn member) >>= f)
    (refused : b.table.mappedColumn member = .error e) :
    b.command cmd = (.error e, { b with
      writer :=
        { b.writer with events := b.writer.events ++ [.stepFailed cmd.name e] } }) := by
  refine command_failed ?_
  rw [write, refused]
  rfl

end

/-! ## The list -/

/-- Further keys are taken up to the first without a column. -/
theorem commands_thenBy (b : Builder) (front : b.writer.text.isEmpty = false)
    (keys : List (String × Direction)) :
    ∃ events, b.commands (keys.map fun key => .thenBy key.1 key.2) =
      ((resolveKeys b.table keys).2, { b with
        writer :=
          { b.writer with
            text := b.writer.text ++ continuation b.dialect (resolveKeys b.table keys).1
            events := b.writer.events ++ events }
        steps := b.steps ++ List.replicate (resolveKeys b.table keys).1.length "then by" }) := by
  induction keys generalizing b with
  | nil =>
    refine ⟨[], ?_⟩
    simp [commands, resolveKeys, continuation]
  | cons key rest ih =>
    obtain ⟨member, direction⟩ := key
    rw [List.map_cons, commands]
    cases found : b.table.mappedColumn member with
    | ok c =>
      rw [command_thenBy found front, resolveKeys_mapped found]
      have front' : (b.writer.text ++ (",\n    " ++ keyText b.dialect (c, direction))).isEmpty =
          false := by
        rw [String.isEmpty_eq_false_iff] at front ⊢
        exact fun none => front (String.append_eq_empty_iff.1 none).1
      obtain ⟨events, run⟩ := ih { b with
        writer :=
          { b.writer with text := b.writer.text ++ (",\n    " ++ keyText b.dialect (c, direction)) }
        steps := b.steps ++ ["then by"] } front'
      refine ⟨events, run.trans ?_⟩
      simp only [continuation, List.map_cons, String.join_cons, List.length_cons,
        List.replicate_succ, String.append_assoc, List.append_assoc, List.singleton_append]
    | error e =>
      rw [command_refused rfl found, resolveKeys_refused found]
      refine ⟨[.stepFailed "then by" e], ?_⟩
      simp [continuation]
      rfl

/-- What an ordering comes to: its keys are resolved, and a block is written for those that are. -/
theorem order_eq (b : Builder) (keys : List (String × Direction)) :
    ∃ events, b.order keys =
      ((resolveKeys b.table keys).2, { b with
        writer :=
          { b.writer with
            text :=
              b.writer.text ++ orderText b.dialect b.writer.text (resolveKeys b.table keys).1
            events := b.writer.events ++ events }
        steps := b.steps ++ orderNames (resolveKeys b.table keys).1.length }) := by
  cases keys with
  | nil =>
    refine ⟨[], ?_⟩
    simp [order, orderCommands, commands, resolveKeys, orderText, orderNames]
  | cons key rest =>
    obtain ⟨member, direction⟩ := key
    rw [order, orderCommands, commands]
    cases found : b.table.mappedColumn member with
    | ok c =>
      rw [command_orderBy found, resolveKeys_mapped found]
      have front : (b.writer.text ++ orderText b.dialect b.writer.text [(c, direction)]).isEmpty =
          false := by
        rw [String.isEmpty_eq_false_iff]
        intro none
        exact orderText_ne_empty _ _ _ _ (String.append_eq_empty_iff.1 none).2
      obtain ⟨events, run⟩ := commands_thenBy { b with
        writer :=
          { b.writer with
            text := b.writer.text ++ orderText b.dialect b.writer.text [(c, direction)] }
        steps := b.steps ++ ["order by"] } front rest
      refine ⟨events, run.trans ?_⟩
      rw [orderText_cons b.dialect b.writer.text _ (resolveKeys b.table rest).1]
      simp only [orderNames, List.length_cons, String.append_assoc, List.append_assoc,
        List.singleton_append]
    | error e =>
      rw [command_refused rfl found, resolveKeys_refused found]
      refine ⟨[.stepFailed "order by" e], ?_⟩
      simp [orderText, orderNames]
      rfl

/-- The law of orderings. A list of keys is taken as a whole if each member has a column, and else
refused for the first that has none. What is written is one block with the keys in front of that
one, all of them if there is none; nothing is bound.

So a refused list leaves the statement that its keys in front make alone, with their steps. That is
the statement from before only if there are no such keys. -/
theorem order_keys (b : Builder) (keys : List (String × Direction)) :
    ((b.order keys).1 = .ok () ↔ ∀ key ∈ keys, ∃ c, b.table.mappedColumn key.1 = .ok c) ∧
    (∀ e, (b.order keys).1 = .error e ↔
      ∃ before key after, keys = before ++ key :: after ∧
        (∀ k ∈ before, ∃ c, b.table.mappedColumn k.1 = .ok c) ∧ b.table.Unusable key.1 e) ∧
    (b.order keys).2.writer.text =
      b.writer.text ++ orderText b.dialect b.writer.text (resolveKeys b.table keys).1 ∧
    (b.order keys).2.writer.parameters = b.writer.parameters ∧
    (b.order keys).2.steps = b.steps ++ orderNames (resolveKeys b.table keys).1.length ∧
    ((b.order keys).1 = .ok () →
      (resolveKeys b.table keys).1.map (fun key => (key.1.member, key.2)) = keys) ∧
    ∀ before key after e, keys = before ++ key :: after →
      (∀ k ∈ before, ∃ c, b.table.mappedColumn k.1 = .ok c) → b.table.Unusable key.1 e →
      (b.order keys).2.query = (b.order before).2.query ∧
      (b.order keys).2.steps = (b.order before).2.steps ∧
      ((b.order keys).2.query = b.query ↔ before = []) := by
  obtain ⟨events, run⟩ := b.order_eq keys
  rw [run]
  refine ⟨resolveKeys_eq_ok_iff, fun e => resolveKeys_eq_error_iff, rfl, rfl, rfl,
    fun all => resolveKeys_members (resolveKeys_eq_ok_iff.1 all), ?_⟩
  intro before key after e split mapped unusable
  obtain ⟨events', run'⟩ := b.order_eq before
  have stopped : (resolveKeys b.table keys).1 = (resolveKeys b.table before).1 := by
    rw [split, resolveKeys_append mapped,
      resolveKeys_refused (Table.mappedColumn_eq_error_iff.2 unusable)]
    exact List.append_nil _
  rw [run', stopped]
  refine ⟨rfl, rfl, fun same => ?_, fun none => ?_⟩
  · cases before with
    | nil => rfl
    | cons key rest =>
      obtain ⟨c, first⟩ := mapped key List.mem_cons_self
      rw [resolveKeys_mapped first] at same
      have grown := String.append_eq_left_iff.1 (congrArg Query.text same)
      exact absurd grown (orderText_ne_empty _ _ _ _)
  · subst none
    exact congrArg (Query.mk · _) String.append_empty

/-- An ordering by an unknown member keeps the key in front of it. -/
theorem order_not_undone :
    let b : Builder := { dialect := .sqlite, table := Account.table }
    let keys : List (String × Direction) := [("owner", .ascending), ("colour", .descending)]
    (b.order keys).1 = .error (b.table.unknownMember "colour") ∧
      b.writer.text = "" ∧ b.steps = [] ∧
      (b.order keys).2.writer.text = "order by\n    \"Owner\"" ∧
      (b.order keys).2.steps = ["order by"] := by
  intro b keys
  have colour : b.table.mappedColumn "colour" = .error (b.table.unknownMember "colour") :=
    Table.mappedColumn_eq_error_iff.2 (.unknown (by decide))
  have resolved : resolveKeys b.table keys =
      ([(Account.owner, .ascending)], .error (b.table.unknownMember "colour")) := by
    rw [resolveKeys_mapped Account.mappedColumn_owner, resolveKeys_refused colour]
  obtain ⟨events, run⟩ := b.order_eq keys
  rw [run, resolved]
  have written : b.writer.text ++ orderText b.dialect b.writer.text [(Account.owner, .ascending)] =
      "order by\n    \"Owner\"" := by decide +kernel
  exact ⟨rfl, rfl, rfl, written, rfl⟩

end BoundSql.Builder
