import Std.Data.String.ToNat
import BoundSql.Proofs.Chunks
import BoundSql.Proofs.Noninterference
import BoundSql.Proofs.Outline

/-!
# Positional names

A condition binds its values under `p1`, `p2` and so on, counted on from the parameters that are
there. `Predicate.compile_positional` is the law of these names: which values a condition binds, in
which order, how many they are, and that the placeholders stand in the text in the same order.

The values are read off the tree (`Predicate.boundValues`): each compared operand, unless the
comparison is a null test, and each chunk of a membership test. The induction over the tree carries
`Writer.Numbers`, which says what has been bound between two states of a statement, and which two
parts of a condition compose.
-/

namespace BoundSql

/-! ## Numbers -/

namespace Writing

/-- Values under consecutive positional names, the first in the place behind `n`. -/
def numbered (n : Nat) (values : List Value) : List (String × Value) :=
  values.mapIdx fun j value => (positional (n + j + 1), value)

@[simp] theorem numbered_nil (n : Nat) : numbered n [] = [] := rfl

@[simp] theorem length_numbered (n : Nat) (values : List Value) :
    (numbered n values).length = values.length :=
  List.length_mapIdx

theorem numbered_append (n : Nat) (xs ys : List Value) :
    numbered n (xs ++ ys) = numbered n xs ++ numbered (n + xs.length) ys := by
  unfold numbered
  rw [List.mapIdx_append]
  simp only [Nat.add_assoc, Nat.add_comm xs.length]

theorem positional_injective {m n : Nat} (h : positional m = positional n) : m = n :=
  Nat.repr_injective ((String.append_right_inj _).1 h)

/-- The names of numbered values are the positional names of their places. -/
theorem mem_names_numbered {n : Nat} {values : List Value} {name : String} :
    name ∈ (numbered n values).map Prod.fst ↔
      ∃ j < values.length, name = positional (n + j + 1) := by
  unfold numbered
  rw [List.mem_map]
  constructor
  · rintro ⟨entry, mem, rfl⟩
    obtain ⟨j, inside, rfl⟩ := List.mem_mapIdx.1 mem
    exact ⟨j, inside, rfl⟩
  · rintro ⟨j, inside, rfl⟩
    exact ⟨_, List.mem_mapIdx.2 ⟨j, inside, rfl⟩, rfl⟩

end Writing

open Writing (numbered positional)

namespace Writer

/-- The names behind numbered values are none of theirs, so they are taken only in front of them. -/
theorem positional_mem_names_iff {w : Writer} {base : List (String × Value)} {n : Nat}
    {values : List Value} (h : w.entries = base ++ numbered n values) (j : Nat) :
    positional (n + values.length + j + 1) ∈ w.names ↔
      positional (n + values.length + j + 1) ∈ base.map Prod.fst := by
  rw [names, h, List.map_append, List.mem_append, Writing.mem_names_numbered]
  refine or_iff_left ?_
  rintro ⟨i, inside, same⟩
  have place := Writing.positional_injective same
  omega

/-- The name of place `j` behind some entries is one of theirs. -/
def Taken (base : List (String × Value)) (j : Nat) : Prop :=
  positional (base.length + j + 1) ∈ base.map Prod.fst

instance (base : List (String × Value)) (j : Nat) : Decidable (Taken base j) :=
  inferInstanceAs (Decidable (_ ∈ _))

/-- From `w` to `w'`, values have been bound under the next positional names, one by one. -/
def Numbers (w w' : Writer) (values : List Value) : Prop :=
  w'.entries = w.entries ++ numbered w.bound values

namespace Numbers

variable {u v w w' : Writer} {xs ys : List Value}

theorem of_eq (same : w'.entries = w.entries) : w.Numbers w' [] := by
  unfold Numbers
  rw [same, Writing.numbered_nil, List.append_nil]

theorem bound_eq (h : u.Numbers v xs) : v.bound = u.bound + xs.length := by
  rw [v.bound_eq_length, h, List.length_append, ← u.bound_eq_length, Writing.length_numbered]

theorem trans (first : u.Numbers v xs) (second : v.Numbers w ys) : u.Numbers w (xs ++ ys) := by
  unfold Numbers at *
  rw [second, first, bound_eq first, Writing.numbered_append, List.append_assoc]

/-- A place behind what has been bound is taken as it was before, counted from further in front. -/
theorem taken_iff (h : u.Numbers v xs) (j : Nat) :
    Taken v.entries j ↔ Taken u.entries (xs.length + j) := by
  have place := positional_mem_names_iff h j
  unfold Taken
  rw [← v.bound_eq_length, ← u.bound_eq_length, bound_eq h, ← Nat.add_assoc]
  exact place

end Numbers

/-- How it ends to bind values one by one under the next positional names: all of them are bound, or
those in front of the first name that is taken. -/
inductive Enumerated (w : Writer) (values : List Value) : Except StatementError Unit × Writer → Prop
  | bound {v : Writer} (numbers : w.Numbers v values) (calls : v.calls = w.calls)
      (free : ∀ j < values.length, ¬Taken w.entries j) : Enumerated w values (.ok (), v)
  | taken {v : Writer} {j : Nat} (inside : j < values.length) (taken : Taken w.entries j)
      (free : ∀ i < j, ¬Taken w.entries i) (numbers : w.Numbers v (values.take j))
      (calls : v.calls = w.calls) :
      Enumerated w values (.error (.duplicateParameter (positional (w.bound + j + 1))), v)

/-- To bind values asks no producer. -/
theorem Enumerated.calls_eq {w : Writer} {values : List Value}
    {r : Except StatementError Unit × Writer} (h : w.Enumerated values r) :
    r.2.calls = w.calls := by
  cases h with
  | bound numbers calls free => exact calls
  | taken inside taken free numbers calls => exact calls

end Writer

namespace Writing

/-- The computation binds values one by one under the next positional names, and does nothing else
that can fail. -/
def Enumerates (values : List Value) (x : Writing Unit) : Prop :=
  ∀ w : Writer, w.Enumerated values (w.exec x)

namespace Enumerates

variable {xs ys : List Value} {x y : Writing Unit}

theorem still (run : ∀ w : Writer, ∃ v, w.exec x = (.ok (), v) ∧ v.parameters = w.parameters ∧
    v.calls = w.calls) : Enumerates [] x := by
  intro w
  obtain ⟨v, ended, parameters, calls⟩ := run w
  rw [ended]
  exact .bound (.of_eq (by rw [Writer.entries, parameters, Writer.entries])) calls nofun

theorem text (s : String) : Enumerates [] (Writing.text s) :=
  .still fun _ => ⟨_, rfl, rfl, rfl⟩

theorem identifier (d : Dialect) (name : String) : Enumerates [] (Writing.identifier d name) :=
  text _

theorem report (event : Event) : Enumerates [] (Writing.report event) :=
  .still fun _ => ⟨_, rfl, rfl, rfl⟩

theorem bindNext (d : Dialect) (value : Value) : Enumerates [value] (Writing.bindNext d value) := by
  intro w
  rw [Writer.exec_bindNext]
  have next : Writer.Taken w.entries 0 ↔ positional (w.bound + 1) ∈ w.names := by
    rw [Writer.Taken, ← w.bound_eq_length]
    rfl
  by_cases taken : positional (w.bound + 1) ∈ w.names
  · rw [w.exec_bindName_of_mem d value taken]
    exact .taken (j := 0) Nat.zero_lt_one (next.2 taken) nofun (.of_eq rfl) rfl
  · obtain ⟨p, entries, run⟩ := w.exec_bindName_of_not_mem d value taken
    rw [run]
    refine .bound entries rfl fun j only => ?_
    rw [Nat.lt_one_iff.1 only, next]
    exact taken

/-- One part after the other: the second counts on from what the first has bound. -/
theorem bind (hx : Enumerates xs x) (hy : Enumerates ys y) :
    Enumerates (xs ++ ys) (x >>= fun _ => y) := by
  intro w
  have first := hx w
  rw [Writer.exec_bind]
  revert first
  generalize w.exec x = r
  intro first
  cases first with
  | @bound u numbers calls free =>
    have second := hy u
    dsimp only
    revert second
    generalize u.exec y = r'
    intro second
    have behind : ∀ {k}, (∀ i < k, ¬Writer.Taken u.entries i) →
        ∀ j < xs.length + k, ¬Writer.Taken w.entries j := by
      intro k later j inside
      rcases Nat.lt_or_ge j xs.length with early | late
      · exact free j early
      · obtain ⟨i, rfl⟩ := Nat.exists_eq_add_of_le late
        rw [← numbers.taken_iff]
        exact later i (by omega)
    cases second with
    | bound numbers' calls' free' =>
      refine .bound (numbers.trans numbers') (calls'.trans calls) ?_
      rw [List.length_append]
      exact behind free'
    | @taken v j inside taken free' numbers' calls' =>
      rw [numbers.bound_eq, Nat.add_assoc w.bound]
      refine .taken ?_ ((numbers.taken_iff j).1 taken) (behind free') ?_ (calls'.trans calls)
      · rw [List.length_append]
        omega
      · rw [List.take_length_add_append]
        exact numbers.trans numbers'
  | @taken v j inside taken free numbers calls =>
    refine .taken ?_ taken free ?_ calls
    · rw [List.length_append]
      omega
    · rwa [List.take_append_of_le_length (Nat.le_of_lt inside)]

theorem before (hx : Enumerates [] x) (hy : Enumerates ys y) : Enumerates ys (x >>= fun _ => y) :=
  hx.bind hy

theorem behind (hx : Enumerates xs x) (hy : Enumerates [] y) : Enumerates xs (x >>= fun _ => y) :=
  List.append_nil xs ▸ hx.bind hy

theorem separated {α : Type} {between : String} {write : α → Writing Unit} {value : α → Value}
    (hwrite : ∀ a, Enumerates [value a] (write a)) (items : List α) :
    Enumerates (items.map value) (Writing.separated between write items) := by
  fun_induction Writing.separated between write items with
  | case1 => exact .still fun w => ⟨w, rfl, rfl, rfl⟩
  | case2 item => exact hwrite item
  | case3 item next rest ih => exact (hwrite item).bind (.before (text _) ih)

/-- A success has bound all values. -/
theorem of_exec (h : Enumerates xs x) {w v : Writer} (run : w.exec x = (.ok (), v)) :
    w.Numbers v xs ∧ v.calls = w.calls := by
  have ended := h w
  rw [run] at ended
  cases ended with
  | bound numbers calls free => exact ⟨numbers, calls⟩

/-- Where the names are free, all values are bound. -/
theorem of_free (h : Enumerates xs x) {w : Writer}
    (free : ∀ j < xs.length, ¬Writer.Taken w.entries j) :
    ∃ v, w.exec x = (.ok (), v) ∧ w.Numbers v xs := by
  have ended := h w
  revert ended
  generalize w.exec x = r
  intro ended
  cases ended with
  | bound numbers calls free => exact ⟨_, rfl, numbers⟩
  | taken inside taken => exact absurd taken (free _ inside)

end Enumerates

end Writing

open Writing (Enumerates)

/-! ## Conditions -/

namespace Predicate

/-- The values that a condition binds, from left to right: the operands that are compared, but for
those of null tests, and the membership tests' lists in chunks. -/
def boundValues (size : Nat) : Predicate → Asking (List Value)
  | .logical _ left right => do
    let first ← left.boundValues size
    let rest ← right.boundValues size
    pure (first ++ rest)
  | .comparison op left right =>
    match columnSide? op left right with
    | some (side, _, operand) => do
      let value ← operand.evaluate
      pure (if side.testsNull value then [] else [value])
    | none => pure []
  | .membership _ values =>
    pure ((List.range (values.length ⌈/⌉ size)).map fun j =>
      .list ((values.drop (j * size)).take size))
  | _ => pure []

/-- A comparison with a column binds the value of its operand, if it is not tested to be missing. -/
theorem answer_boundValues_compared {op side : Comparison} {member : String}
    {left right operand : Predicate} (h : columnSide? op left right = some (side, member, operand))
    (size : Nat) (log : CallLog) :
    log.answer ((comparison op left right).boundValues size) =
      match log.answer operand.evaluate with
      | (.ok value, after) => (.ok (if side.testsNull value then [] else [value]), after)
      | (.error e, after) => (.error e, after) := by
  rw [boundValues, h]
  dsimp only
  rw [CallLog.answer_bind]
  rcases log.answer operand.evaluate with ⟨_ | _, _⟩ <;> rfl

/-- How many chunks the membership tests of a condition take together. -/
def chunkTotal (size : Nat) : Predicate → Nat
  | .logical _ left right => left.chunkTotal size + right.chunkTotal size
  | .membership _ values => values.length ⌈/⌉ size
  | _ => 0

/-- A condition binds one value for each comparison that is no null test, and one for each chunk
that the lists of its membership tests take. -/
theorem length_boundValues {size : Nat} {p : Predicate} {log after : CallLog} {values : List Value}
    (h : log.answer (p.boundValues size) = (.ok values, after)) :
    ∃ operands, log.answer p.operandValues = (.ok operands, after) ∧
      values.length =
        operands.countP (fun operand => !operand.1.testsNull operand.2) + p.chunkTotal size := by
  induction p generalizing log after values with
  | logical op left right ihl ihr =>
    rw [boundValues] at h
    obtain ⟨first, between, hfirst, h⟩ := log.answer_bind_eq_ok h
    obtain ⟨rest, _, hrest, hpure⟩ := between.answer_bind_eq_ok h
    cases hpure
    obtain ⟨operands, asked, counted⟩ := ihl hfirst
    obtain ⟨operands', asked', counted'⟩ := ihr hrest
    refine ⟨operands ++ operands', ?_, ?_⟩
    · rw [operandValues, CallLog.answer_bind, asked]
      dsimp only
      rw [CallLog.answer_bind, asked']
      rfl
    · rw [List.length_append, counted, counted', List.countP_append, chunkTotal]
      omega
  | comparison op left right ihl ihr =>
    rw [boundValues] at h
    rw [operandValues, show (comparison op left right).chunkTotal size = 0 from rfl]
    cases hside : columnSide? op left right with
    | none =>
      rw [hside] at h
      cases h
      exact ⟨[], rfl, rfl⟩
    | some found =>
      obtain ⟨side, member, operand⟩ := found
      rw [hside] at h
      obtain ⟨value, _, hvalue, hpure⟩ := log.answer_bind_eq_ok h
      cases hpure
      refine ⟨[(side, value)], ?_, ?_⟩
      · dsimp only
        rw [CallLog.answer_bind, hvalue]
        rfl
      · cases tests : side.testsNull value <;> simp [tests]
  | membership member list =>
    cases h
    refine ⟨[], rfl, ?_⟩
    rw [List.length_map, List.length_range, chunkTotal, List.countP_nil, Nat.zero_add]
  | literal | column | computed | element =>
    cases h
    exact ⟨[], rfl, rfl⟩

section

variable (d : Dialect) (c : Column)

theorem writeComparison_enumerates (op : Comparison) (value : Value) :
    Enumerates (if op.testsNull value then [] else [value]) (writeComparison d c op value) := by
  rw [writeComparison_eq]
  refine .before (.identifier d _) ?_
  split
  · exact .text _
  · exact .before (.text _) (.bindNext d value)

theorem writeInTest_enumerates (values : List Value) :
    Enumerates [.list values] (writeInTest d c values) :=
  .before (.identifier d _) (.before (.text _) (.bindNext d _))

theorem writeMembership_enumerates (values : List Value) :
    Enumerates ((chunks d.chunkSize d.chunkSize_pos values).map .list)
      (writeMembership d c values) := by
  rw [writeMembership_eq]
  split
  · next none =>
    rw [none]
    exact .text _
  · next part one =>
    rw [one]
    exact writeInTest_enumerates d c part
  · refine .before (.report _) (.before (.text _) (.behind ?_ (.text _)))
    exact .separated (writeInTest_enumerates d c) _

end

/-- From `w` to `w'`, the values of a condition have been computed and bound. -/
def Binds (d : Dialect) (p : Predicate) (w w' : Writer) : Prop :=
  ∃ values, w.calls.answer (p.boundValues d.chunkSize) = (.ok values, w'.calls) ∧
    w.Numbers w' values

theorem writeGrouped_binds {d : Dialect} {t : Table} {p : Predicate} {grouped : Bool}
    {w w' : Writer} (ih : ∀ {w w'}, w.exec (p.compile d t) = (.ok (), w') → p.Binds d w w')
    (h : w.exec (writeGrouped grouped (p.compile d t)) = (.ok (), w')) : p.Binds d w w' := by
  cases grouped with
  | true =>
    rw [writeGrouped, if_pos rfl, Writer.exec_text_bind] at h
    obtain ⟨_, u, hbody, h⟩ := Writer.exec_bind_eq_ok _ h
    cases h
    obtain ⟨values, computed, bound⟩ := ih hbody
    exact ⟨values, computed, bound⟩
  | false => exact ih h

theorem compile_binds {d : Dialect} {t : Table} {p : Predicate} {w w' : Writer}
    (h : w.exec (p.compile d t) = (.ok (), w')) : p.Binds d w w' := by
  induction p generalizing w w' with
  | logical op left right ihl ihr =>
    rw [compile] at h
    obtain ⟨_, u, hleft, hright⟩ := w.exec_bind_eq_ok h
    rw [Writer.exec_text_bind] at hright
    obtain ⟨first, computed, bound⟩ := writeGrouped_binds ihl hleft
    obtain ⟨rest, computed', bound'⟩ := writeGrouped_binds ihr hright
    refine ⟨first ++ rest, ?_, bound.trans bound'⟩
    rw [boundValues, CallLog.answer_bind, computed]
    dsimp only
    rw [CallLog.answer_bind, computed']
    rfl
  | comparison op left right ihl ihr =>
    rw [compile] at h
    split at h
    · next side member operand hside =>
      obtain ⟨c, found, h⟩ := w.exec_ofExcept_bind_eq_ok h
      obtain ⟨value, u, hvalue, h⟩ := w.exec_bind_eq_ok h
      rw [Writer.exec_asking, Prod.mk.injEq] at hvalue
      obtain ⟨evaluated, rfl⟩ := hvalue
      obtain ⟨bound, calls⟩ := (writeComparison_enumerates d c side value).of_exec h
      refine ⟨_, ?_, bound⟩
      rw [answer_boundValues_compared hside,
        Prod.ext (y := (.ok value, w'.calls)) evaluated calls.symm]
    · cases h
  | membership member values =>
    rw [compile] at h
    obtain ⟨c, found, h⟩ := w.exec_ofExcept_bind_eq_ok h
    obtain ⟨bound, calls⟩ := (writeMembership_enumerates d c values).of_exec h
    rw [chunks_eq, List.map_map] at bound
    exact ⟨_, Prod.ext rfl calls.symm, bound⟩
  | literal value =>
    cases value with
    | bool b =>
      cases b <;> cases h <;> exact ⟨[], rfl, .of_eq rfl⟩
    | _ => cases h
  | column | computed | element => cases h

/-- The law of positional names. A condition that is written with success binds its values, in their
order in the tree, under the positional names that come next behind the parameters that are there.
They are one for each comparison that is no null test and one for each chunk of a membership test.
Their placeholders are those of the appended text, from left to right: the text is one sequence of
pieces under all dialects with one size of a chunk. -/
theorem compile_positional (d : Dialect) (t : Table) (p : Predicate) (w w' : Writer)
    (h : w.exec (p.compile d t) = (.ok (), w')) :
    ∃ (values : List Value) (operands : List (Comparison × Value)) (pieces : List Piece),
      w.calls.answer (p.boundValues d.chunkSize) = (.ok values, w'.calls) ∧
      w'.entries = w.entries ++ numbered w.bound values ∧
      w.calls.answer p.operandValues = (.ok operands, w'.calls) ∧
      values.length = operands.countP (fun operand => !operand.1.testsNull operand.2) +
        p.chunkTotal d.chunkSize ∧
      Piece.placeholders pieces = (numbered w.bound values).map Prod.fst ∧
      ∀ d' : Dialect, d'.chunkSize = d.chunkSize →
        (w.exec (p.compile d' t)).2.text = w.text ++ Piece.renderAll d' pieces := by
  obtain ⟨values, computed, bound⟩ := compile_binds h
  obtain ⟨operands, asked, counted⟩ := length_boundValues computed
  let dialect : { d' : Dialect // d'.chunkSize = d.chunkSize } → Dialect := Subtype.val
  have composed : Writing.Composed dialect (fun _ => False) fun i => p.compile (dialect i) t :=
    p.compile_composed d.chunkSize_pos Subtype.property t
  obtain ⟨outcome, o, ⟨pieces, new, written, entries, named⟩, run⟩ :=
    composed.outline (.ofWriter w)
  simp only [Outline.under_ofWriter] at run
  have here : (.ok (), w') = (outcome, o.under d) := h.symm.trans (run ⟨d, rfl⟩)
  cases here
  have same : new = numbered w.bound values :=
    List.append_cancel_left (entries.symm.trans bound)
  refine ⟨values, operands, pieces, computed, bound, asked, counted, same ▸ named,
    fun d' sized => ?_⟩
  rw [show w.exec (p.compile d' t) = _ from run ⟨d', sized⟩]
  show Piece.renderAll d' o.pieces = _
  rw [written, Piece.renderAll_append]
  exact congrArg (· ++ _) (Piece.renderAll_singleton d' _)

/-- Accounts without an owner, at some levels. -/
def adriftAmong (levels : List Value) : Predicate :=
  .logical .and (.comparison .eq (.column "owner") (.literal .null)) (.membership "level" levels)

/-- The null test takes no name, and the levels take the next one behind a parameter that is
there. -/
theorem compile_positional_adriftAmong :
    let seeded : Parameters Value :=
      Parameters.empty.push "tenant" (.int 7) (Parameters.index_eq_none_iff.2 nofun)
    let levels : List Value := [.int 1, .int 2]
    ∃ w', Writer.exec { parameters := some seeded }
        ((adriftAmong levels).compile .sqlite Account.table) = (.ok (), w') ∧
      w'.entries = [("tenant", .int 7), ("p2", .list levels)] ∧
      w'.text = "\"Owner\" is null and \"level\" in @p2" := by
  intro seeded levels
  let before : Writer :=
    { text := "\"Owner\" is null and \"level\" in ", parameters := some seeded }
  obtain ⟨p, -, bound⟩ := before.exec_bindName_of_not_mem .sqlite (.list levels)
    (show Writing.positional 2 ∉ before.names by decide)
  have one : levels.length ⌈/⌉ Dialect.sqlite.chunkSize = 1 := by decide
  -- all acts but the last are computed, and the last binds the levels
  have run : Writer.exec { parameters := some seeded }
      ((adriftAmong levels).compile .sqlite Account.table) =
        before.exec (Writing.bind .sqlite (Writing.positional 2) (.list levels)) := by
    have one' : chunkCount Dialect.sqlite.chunkSize levels.length = 1 := by decide
    simp only [adriftAmong, compile, columnSide?, writeMembership, one',
      Account.mappedColumn_owner, Account.mappedColumn_level]
    rfl
  rw [bound] at run
  obtain ⟨values, _, _, computed, entries, -⟩ :=
    compile_positional .sqlite Account.table _ _ _ run
  have only : values = [.list levels] := by
    simp only [adriftAmong, boundValues, one] at computed
    cases computed
    rfl
  refine ⟨_, run, ?_, by rfl⟩
  rw [entries, only, show "p2" = Writing.positional 2 by decide]
  rfl

end Predicate

end BoundSql
