import BoundSql.Proofs.Numbering

/-!
# Membership tests of any length

A membership test binds its list in chunks, each as one parameter, and writes one `in` test for each
of them. `Predicate.compile_membership` is the law of that: what is written for how many values
(`Predicate.membershipText`), and that the chunks are the list, cut into runs that one test may
take.

That a test succeeds at all only asks that the names are free. There is no length that a limit has
to divide, and a limit of nothing counts as one.
-/

namespace BoundSql.Predicate

open Writing (numbered positional)

/-- The test whether a column is among the values of the parameter in place `n`. -/
def inTest (d : Dialect) (c : Column) (n : Nat) : String :=
  d.identifier c.name ++ " in " ++ d.placeholder (positional n)

/-- The text of a membership test of `count` values behind `n` parameters: a contradiction without
values, one test if it may take them all, and else several tests in one pair of parentheses. -/
def membershipText (d : Dialect) (c : Column) (n count : Nat) : String :=
  if count = 0 then "1 = 0"
  else if count ≤ d.chunkSize then inTest d c (n + 1)
  else
    "(" ++
      " or ".intercalate ((List.range' (n + 1) (count ⌈/⌉ d.chunkSize)).map (inTest d c)) ++ ")"

section

variable {d : Dialect} {c : Column} {w w' : Writer}

theorem writeInTest_text {values : List Value}
    (h : w.exec (writeInTest d c values) = (.ok (), w')) :
    w'.text = w.text ++ inTest d c (w.bound + 1) := by
  rw [writeInTest, Writer.exec_identifier_bind, Writer.exec_text_bind] at h
  obtain ⟨text, -, -⟩ := Writer.exec_bindNext_eq_ok h
  rw [text, inTest]
  simp only [String.append_assoc]
  rfl

/-- Tests in a row stand in the places that come next. -/
theorem separated_text {parts : List (List Value)}
    (h : w.exec (Writing.separated Connective.or.sql (writeInTest d c) parts) = (.ok (), w')) :
    w'.text = w.text ++
      " or ".intercalate ((List.range' (w.bound + 1) parts.length).map (inTest d c)) := by
  fun_induction Writing.separated Connective.or.sql (writeInTest d c) parts generalizing w with
  | case1 =>
    cases h
    exact String.append_empty.symm
  | case2 part => exact writeInTest_text h
  | case3 part next rest ih =>
    obtain ⟨_, v, first, later⟩ := w.exec_bind_eq_ok h
    rw [Writer.exec_text_bind] at later
    have counted : v.bound = w.bound + 1 :=
      ((writeInTest_enumerates d c part).of_exec first).1.bound_eq
    have tests : (List.range' (w.bound + 1) (part :: next :: rest).length).map (inTest d c) =
        inTest d c (w.bound + 1) ::
          (List.range' (v.bound + 1) (next :: rest).length).map (inTest d c) := by
      rw [List.length_cons, List.range'_succ, List.map_cons, counted]
    have some : (List.range' (v.bound + 1) (next :: rest).length).map (inTest d c) ≠ [] := by
      simp
    rw [ih later, writeInTest_text first, tests, String.intercalate_cons_of_ne_nil some]
    simp only [String.append_assoc]
    rfl

theorem writeMembership_text {values : List Value}
    (h : w.exec (writeMembership d c values) = (.ok (), w')) :
    w'.text = w.text ++ membershipText d c w.bound values.length := by
  have count := length_chunks d.chunkSize d.chunkSize_pos values
  have within : ∀ k, values.length ⌈/⌉ d.chunkSize ≤ k ↔ values.length ≤ d.chunkSize * k :=
    fun _ => ceilDiv_le_iff_le_mul d.chunkSize_pos
  have none := within 0
  have one := within 1
  rw [Nat.mul_zero] at none
  rw [Nat.mul_one] at one
  unfold membershipText
  unfold writeMembership at h
  rw [chunkCount_eq_ceilDiv _ d.chunkSize_pos] at h
  split at h
  · cases h
    rw [if_pos (by omega)]
  · rw [if_neg (by omega), if_pos (by omega)]
    exact writeInTest_text h
  · next not_empty not_single =>
    have not_empty : values.length ⌈/⌉ d.chunkSize ≠ 0 := not_empty
    have not_single : values.length ⌈/⌉ d.chunkSize ≠ 1 := not_single
    rw [Writer.exec_report_bind, Writer.exec_text_bind] at h
    obtain ⟨_, u, tests, h⟩ := Writer.exec_bind_eq_ok _ h
    cases h
    rw [if_neg (by omega), if_neg (by omega), ← count]
    show u.text ++ ")" = _
    rw [separated_text tests]
    simp only [String.append_assoc]
    rfl

end

/-- Membership tests take lists of any length. If the names that it needs are free, the test of a
mapped member is written. It binds the list in parts, under the positional names that come next: as
many parts as it takes to hold all values, none of them empty or longer than one `in` test may take,
all but the last full, and together the list. Without values nothing is bound, and a missing
collection stays missing. -/
theorem compile_membership (d : Dialect) (t : Table) {member : String} {c : Column}
    (mapped : t.mappedColumn member = .ok c) (values : List Value) (w : Writer)
    (free : ∀ j < values.length ⌈/⌉ d.chunkSize, positional (w.bound + j + 1) ∉ w.names) :
    ∃ (parts : List (List Value)) (w' : Writer),
      w.exec ((membership member values).compile d t) = (.ok (), w') ∧
      w'.text = w.text ++ membershipText d c w.bound values.length ∧
      w'.entries = w.entries ++ numbered w.bound (parts.map .list) ∧
      (values = [] → w'.parameters = w.parameters) ∧
      parts.length = values.length ⌈/⌉ d.chunkSize ∧
      parts.flatten = values ∧
      (∀ part ∈ parts, 0 < part.length ∧ part.length ≤ d.chunkSize) ∧
      ∀ part ∈ parts.dropLast, part.length = d.chunkSize := by
  let parts := chunks d.chunkSize d.chunkSize_pos values
  have compiled : w.exec ((membership member values).compile d t) =
      w.exec (writeMembership d c values) := by
    rw [compile, mapped]
    rfl
  have count : parts.length = values.length ⌈/⌉ d.chunkSize :=
    length_chunks d.chunkSize d.chunkSize_pos values
  have untaken : ∀ j < (parts.map Value.list).length, ¬Writer.Taken w.entries j := by
    intro j inside
    rw [List.length_map, count] at inside
    rw [Writer.Taken, ← w.bound_eq_length]
    exact free j inside
  obtain ⟨w', run, numbers⟩ := (writeMembership_enumerates d c values).of_free untaken
  refine ⟨parts, w', compiled.trans run, writeMembership_text run, numbers, fun none => ?_, count,
    flatten_chunks .., fun _ mem => length_of_mem_chunks _ _ _ mem,
    fun _ mem => length_of_mem_dropLast_chunks _ _ _ mem⟩
  have grown : w.BindsOn w' := (compile_ensures d t _).of_exec (compiled.trans run)
  apply grown.parameters_eq
  have nothing : parts.map Value.list = [] := by
    subst none
    apply List.eq_nil_of_length_eq_zero
    rw [List.length_map, count]
    exact zero_ceilDiv _
  rw [show w.Numbers w' [] from nothing ▸ numbers]
  exact List.append_nil _

/-- A dialect whose `in` tests take two values each. -/
def pairwise : Dialect :=
  { Dialect.sqlite with listLimit := 2 }

/-- Five levels take three tests. -/
theorem compile_membership_pairwise :
    let levels : List Value := [.int 1, .int 2, .int 3, .int 4, .int 5]
    ∃ (parts : List (List Value)) (w' : Writer),
      Writer.exec {} ((membership "level" levels).compile pairwise Account.table) = (.ok (), w') ∧
      w'.text = "(\"level\" in @p1 or \"level\" in @p2 or \"level\" in @p3)" ∧
      parts.length = 3 ∧ parts.flatten = levels := by
  intro levels
  obtain ⟨parts, w', run, text, -, -, count, whole, -⟩ :=
    compile_membership pairwise Account.table Account.mappedColumn_level levels {} fun _ _ => nofun
  refine ⟨parts, w', run, text.trans ?_, count.trans (by decide), whole⟩
  decide +kernel

end BoundSql.Predicate
