import BoundSql.Proofs.Listing

/-!
# Choices of members

A statement that lists columns may be given a choice of members. `Listing.choice_as_set` says that
only the set of mapped members in it counts: their order, repetitions and unmapped members do not
show, and the columns come in the order of declaration. A member that the table does not describe is
reported first, before it is asked whether any column is left to list; and a statement that starts
to be written has passed both checks.
-/

namespace BoundSql

/-- Choices that take in the same mapped members choose the same columns. -/
theorem Table.chosenColumns_congr {t : Table} {members other : Option (List String)}
    (same : ∀ c ∈ t.columns, c.mapped = true →
      members.all (·.contains c.member) = other.all (·.contains c.member)) :
    t.chosenColumns members = t.chosenColumns other := by
  refine List.filter_congr fun c declared => ?_
  cases mapped : c.mapped with
  | true => rw [same c declared mapped]
  | false => rfl

namespace Listing

variable {t : Table} {members other : Option (List String)}

/-- They make one statement if all of their members are known. -/
theorem write_of_same_members (d : Dialect) (l : Listing) (known : t.Knows members)
    (known' : t.Knows other)
    (same : ∀ c ∈ t.columns, c.mapped = true →
      members.all (·.contains c.member) = other.all (·.contains c.member)) :
    (l.command members).write d t = (l.command other).write d t := by
  apply write_congr
  rw [l.target_of_knows known, l.target_of_knows known', columns_eq_filter, columns_eq_filter,
    vacancy, vacancy, Table.chosenColumns_congr same]

/-- A listing fails before it writes anything exactly if the check refuses it. -/
theorem exec_eq_self_iff (d : Dialect) (l : Listing) {w : Writer} {e : StatementError} :
    w.exec ((l.command members).write d t) = (.error e, w) ↔ l.target t members = .error e := by
  refine ⟨fun run => ?_, fun refused => l.exec_of_refused d refused w⟩
  cases checked : l.target t members with
  | ok columns =>
    have written := text_ne_of_listed d checked w
    rw [run] at written
    exact absurd rfl written
  | error e' =>
    rw [exec_of_refused d checked w] at run
    cases run
    rfl

/-- A choice of members acts as a set. Two choices of known members with the same mapped ones make
one statement, and a choice of all mapped ones makes the one without a choice, from whatever
statement they are written on. A choice with an unknown member is refused for the first one,
whatever the rest, with nothing written or bound. A choice of known members fails before anything is
written exactly if no column is left to list. Whatever is written is the statement for the chosen
columns in the order of declaration, each once, or a front part of it if a name is taken. -/
theorem choice_as_set (d : Dialect) (t : Table) (l : Listing) :
    (∀ xs ys, t.Knows (some xs) → t.Knows (some ys) →
      (∀ c ∈ t.columns, c.mapped = true → (c.member ∈ xs ↔ c.member ∈ ys)) →
      ∀ w : Writer, w.exec ((l.command (some xs)).write d t) =
        w.exec ((l.command (some ys)).write d t)) ∧
    (∀ xs, t.Knows (some xs) → (∀ c ∈ t.columns, c.mapped = true → c.member ∈ xs) →
      ∀ w : Writer, w.exec ((l.command (some xs)).write d t) =
        w.exec ((l.command none).write d t)) ∧
    (∀ before unknown after, t.Knows (some before) → (∀ c ∈ t.columns, c.member ≠ unknown) →
      ∀ w : Writer, w.exec ((l.command (some (before ++ unknown :: after))).write d t) =
        (.error (t.unknownMember unknown), w)) ∧
    (∀ members, t.Knows members →
      ∀ (w : Writer) (e : StatementError),
        w.exec ((l.command members).write d t) = (.error e, w) ↔
          l.columns t members = [] ∧ e = .validation (l.vacancy t members)) ∧
    ∀ members,
      Writing.Spells (l.text d t (l.columns t members)) ((l.command members).write d t) ∧
        (l.columns t members).Sublist t.columns ∧
        ((l.columns t members).map Column.member).Nodup := by
  refine ⟨fun xs ys known known' same w => ?_, fun xs known all w => ?_,
    fun before unknown after known absent w => ?_, fun members known w e => ?_,
    fun members => ⟨l.write_spells d t members, l.columns_sublist t members,
      l.columns_nodup t members⟩⟩
  · rw [l.write_of_same_members d known known' fun c declared mapped => ?_]
    rw [Option.all_some, Option.all_some, Bool.eq_iff_iff, List.contains_iff_mem,
      List.contains_iff_mem]
    exact same c declared mapped
  · rw [l.write_of_same_members d known t.knows_none fun c declared mapped => ?_]
    rw [Option.all_some, Option.all_none, List.contains_iff_mem]
    exact all c declared mapped
  · exact exec_of_refused d (l.target_of_unknown known absent after) w
  · rw [exec_eq_self_iff, l.target_of_knows known]
    by_cases none : l.columns t members = []
    · rw [if_pos none, Except.error.injEq, eq_comm]
      exact (and_iff_right none).symm
    · rw [if_neg none]
      exact iff_of_false nofun fun refused => none refused.1

end Listing

end BoundSql
