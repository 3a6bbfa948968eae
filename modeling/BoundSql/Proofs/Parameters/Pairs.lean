import BoundSql.Parameters.Edit
import Mathlib.Data.List.Nodup

/-!
# Named values as a plain list

The second reading of a collection of parameters: a list of pairs, with no index, on which each
operation is said in one line over the whole list. A new name goes to the end, another value for a
name stays where the name stands, a removal closes the gap. A list that is appended is taken up to
its first repeated name; a list that a collection is made of gives each name its first position and
its last value.
-/

namespace BoundSql

universe u

/-- Named values in order. -/
abbrev Pairs (α : Type u) := List (String × α)

namespace Pairs

variable {α : Type u}

/-- The names, in order. -/
def names (l : Pairs α) : List String :=
  l.map Prod.fst

/-- The last value that a list gives a name. -/
def last? (l : Pairs α) (name : String) : Option α :=
  l.reverse.lookup name

/-- The pairs in front of the first one whose name is taken, or repeats a name before it. -/
def fresh (taken : List String) : Pairs α → Pairs α
  | [] => []
  | (name, value) :: rest =>
    if name ∈ taken then [] else (name, value) :: fresh (taken ++ [name]) rest

/-! ## The operations -/

/-- Another value wherever a name stands. -/
def replace (l : Pairs α) (name : String) (value : α) : Pairs α :=
  l.map fun entry => if entry.1 = name then (name, value) else entry

/-- Bind a name that is not bound. -/
def add (l : Pairs α) (name : String) (value : α) : Except StatementError (Pairs α) :=
  if name ∈ names l then .error (.duplicateParameter name) else .ok (l ++ [(name, value)])

/-- Bind a name, in place of what it is bound to. -/
def set (l : Pairs α) (name : String) (value : α) : Pairs α :=
  if name ∈ names l then replace l name value else l ++ [(name, value)]

/-- Add pairs up to the first whose name is bound. -/
def append (l pairs : Pairs α) : Except StatementError Unit × Pairs α :=
  let kept := fresh (names l) pairs
  let outcome :=
    match pairs[kept.length]? with
    | some (name, _) => .error (.duplicateParameter name)
    | none => .ok ()
  (outcome, l ++ kept)

/-- Give bound names the last of the values that are carried for them. -/
def overwrite (l pairs : Pairs α) : Pairs α :=
  l.map fun entry => (entry.1, (last? pairs entry.1).getD entry.2)

/-- Drop a name, and answer its value. -/
def remove (l : Pairs α) (name : String) : Option α × Pairs α :=
  (l.lookup name, l.filter fun entry => entry.1 != name)

/-- Pairs with each name once: where it stands first, with the value that stands last. -/
def ofList (pairs : Pairs α) : Pairs α :=
  (names pairs).eraseDups.filterMap fun name => (last? pairs name).map (Prod.mk name)

/-- What a change answers, and the list after it. -/
def edit (l : Pairs α) : Edit α → Except StatementError (Option α) × Pairs α
  | .add name value =>
    match add l name value with
    | .ok l' => (.ok none, l')
    | .error e => (.error e, l)
  | .set name value => (.ok none, set l name value)
  | .append pairs =>
    let (outcome, l') := append l pairs
    (outcome.map fun _ => none, l')
  | .overwrite pairs => (.ok none, overwrite l pairs)
  | .remove name =>
    let (value, l') := remove l name
    (.ok value, l')
  | .clear => (.ok none, [])
  | .truncate n => (.ok none, l.take n)

/-- What the changes of a history answer, and the list at its end. -/
def editAll (l : Pairs α) : List (Edit α) → List (Except StatementError (Option α)) × Pairs α
  | [] => ([], l)
  | change :: rest =>
    let (answer, l') := edit l change
    let (answers, last) := editAll l' rest
    (answer :: answers, last)

/-! ## The names of a list -/

@[simp] theorem names_nil : names ([] : Pairs α) = [] := rfl

@[simp] theorem names_cons (entry : String × α) (l : Pairs α) :
    names (entry :: l) = entry.1 :: names l := rfl

@[simp] theorem names_append (l l' : Pairs α) : names (l ++ l') = names l ++ names l' :=
  List.map_append

/-- A name that is not bound is not replaced. -/
theorem replace_of_not_mem {l : Pairs α} {name : String} (absent : name ∉ names l) (value : α) :
    replace l name value = l := by
  unfold replace
  refine (List.map_congr_left fun entry hentry => if_neg ?_).trans (List.map_id l)
  rintro rfl
  exact absent (List.mem_map_of_mem hentry)

/-- A name that is not bound is not removed. -/
theorem filter_of_not_mem {l : Pairs α} {name : String} (absent : name ∉ names l) :
    (l.filter fun entry => entry.1 != name) = l := by
  rw [List.filter_eq_self]
  intro entry hentry
  rw [bne_iff_ne]
  rintro rfl
  exact absent (List.mem_map_of_mem hentry)

/-- A name leads somewhere exactly if it is bound. -/
theorem isSome_lookup {l : Pairs α} {name : String} :
    (l.lookup name).isSome = true ↔ name ∈ names l := by
  rw [List.lookup_isSome_iff, names, List.mem_map]
  constructor
  · rintro ⟨entry, hentry, same⟩
    exact ⟨entry, hentry, (eq_of_beq same).symm⟩
  · rintro ⟨entry, hentry, rfl⟩
    exact ⟨entry, hentry, beq_self_eq_true _⟩

/-! ## Lists without repeated names -/

/-- Where a name stands once, changing its value is changing one place. -/
theorem modify_eq_replace {l : Pairs α} (distinct : (names l).Nodup) {i : Nat} {name : String}
    (stands : (names l)[i]? = some name) (value : α) :
    (l.modify i fun entry => (entry.1, value)) = replace l name value := by
  induction l generalizing i with
  | nil => cases stands
  | cons entry l ih =>
    obtain ⟨apart, distinct⟩ := List.nodup_cons.1 distinct
    cases i with
    | zero =>
      obtain rfl : entry.1 = name := Option.some.inj stands
      rw [List.modify_zero_cons, replace, List.map_cons, if_pos rfl, ← replace,
        replace_of_not_mem apart]
    | succ i =>
      have later : name ∈ names l := List.mem_of_getElem? stands
      have other : entry.1 ≠ name := fun same => apart (same ▸ later)
      rw [List.modify_succ_cons, ih distinct stands, replace, replace, List.map_cons, if_neg other]

/-- Where a name stands once, taking it out is taking one place out. -/
theorem eraseIdx_eq_filter {l : Pairs α} (distinct : (names l).Nodup) {i : Nat} {name : String}
    (stands : (names l)[i]? = some name) :
    l.eraseIdx i = l.filter fun entry => entry.1 != name := by
  induction l generalizing i with
  | nil => cases stands
  | cons entry l ih =>
    obtain ⟨apart, distinct⟩ := List.nodup_cons.1 distinct
    cases i with
    | zero =>
      obtain rfl : entry.1 = name := Option.some.inj stands
      rw [List.eraseIdx_cons_zero, List.filter_cons_of_neg (by simp), filter_of_not_mem apart]
    | succ i =>
      have later : name ∈ names l := List.mem_of_getElem? stands
      have other : entry.1 ≠ name := fun same => apart (same ▸ later)
      rw [List.eraseIdx_cons_succ, ih distinct stands,
        List.filter_cons_of_pos (by rwa [bne_iff_ne])]

/-- Without repeated names, a name leads to each value that stands under it. -/
theorem lookup_eq_some_iff {l : Pairs α} (distinct : (names l).Nodup) {name : String} {value : α} :
    l.lookup name = some value ↔ (name, value) ∈ l := by
  induction l with
  | nil => simp
  | cons entry l ih =>
    obtain ⟨other, value'⟩ := entry
    obtain ⟨apart, distinct⟩ := List.nodup_cons.1 distinct
    rw [List.lookup_cons, List.mem_cons, Prod.mk.injEq]
    by_cases same : name = other
    · subst same
      have absent : (name, value) ∉ l := fun again => apart (List.mem_map.2 ⟨_, again, rfl⟩)
      simp [absent, eq_comm]
    · rw [beq_false_of_ne same]
      simp [same, ih distinct]

/-- Without repeated names, a name has one position. -/
theorem idxOf?_names {l : Pairs α} (distinct : (names l).Nodup) {name : String} {i : Nat} :
    (names l).idxOf? name = some i ↔ (names l)[i]? = some name := by
  rw [List.idxOf?_eq_some_iff, List.getElem?_eq_some_iff]
  constructor
  · rintro ⟨inside, here, -⟩
    exact ⟨inside, here⟩
  · rintro ⟨inside, here⟩
    refine ⟨inside, here, fun j before again => ?_⟩
    have : j = i := (List.Nodup.getElem_inj_iff distinct).1 (again.trans here.symm)
    omega

/-! ## Lists that repeat names -/

theorem last?_cons (entry : String × α) (l : Pairs α) (name : String) :
    last? (entry :: l) name =
      (last? l name).or (if name = entry.1 then some entry.2 else none) := by
  unfold last?
  rw [List.reverse_cons, List.lookup_append, List.lookup_cons, List.lookup_nil]
  by_cases same : name = entry.1
  · rw [same, beq_self_eq_true, if_pos rfl]
  · rw [beq_false_of_ne same, if_neg same]

theorem last?_append (l : Pairs α) (entry : String × α) (name : String) :
    last? (l ++ [entry]) name = if name = entry.1 then some entry.2 else last? l name := by
  unfold last?
  rw [List.reverse_append, List.reverse_singleton, List.singleton_append, List.lookup_cons]
  by_cases same : name = entry.1
  · rw [same, beq_self_eq_true, if_pos rfl]
  · rw [beq_false_of_ne same, if_neg same]

/-- A name has a last value exactly if it is bound. -/
theorem isSome_last? {l : Pairs α} {name : String} :
    (last? l name).isSome = true ↔ name ∈ names l := by
  rw [last?, isSome_lookup, names, List.map_reverse, List.mem_reverse, names]

/-- The names of a collection are those given, without repetitions. -/
theorem names_ofList (pairs : Pairs α) : names (ofList pairs) = (names pairs).eraseDups := by
  have found : ∀ name ∈ (names pairs).eraseDups,
      ((last? pairs name).map (Prod.mk name)).map Prod.fst = some name := by
    intro name hname
    obtain ⟨value, hvalue⟩ :=
      Option.isSome_iff_exists.1 (isSome_last?.2 (List.mem_eraseDups.1 hname))
    rw [hvalue]
    rfl
  rw [names, ofList, List.map_filterMap, List.filterMap_congr found, List.filterMap_some]

/-- One pair more gives its name another value where the name stands, or stands at the end. -/
theorem ofList_append (pairs : Pairs α) (entry : String × α) :
    ofList (pairs ++ [entry]) = set (ofList pairs) entry.1 entry.2 := by
  obtain ⟨name, value⟩ := entry
  have known : name ∈ names (ofList pairs) ↔ name ∈ names pairs := by
    rw [names_ofList, List.mem_eraseDups]
  have split : (names (pairs ++ [(name, value)])).eraseDups =
      (names pairs).eraseDups ++ if name ∈ names pairs then [] else [name] := by
    rw [names_append, List.eraseDups_append]
    by_cases there : name ∈ names pairs <;> simp [List.removeAll, there, List.eraseDups_cons]
  rw [set, ofList, split, List.filterMap_append]
  by_cases there : name ∈ names pairs
  · rw [if_pos there, if_pos (known.2 there), List.filterMap_nil, List.append_nil, replace, ofList,
      List.map_filterMap]
    refine List.filterMap_congr fun other hother => ?_
    obtain ⟨old, hold⟩ :=
      Option.isSome_iff_exists.1 (isSome_last?.2 (List.mem_eraseDups.1 hother))
    rw [last?_append, hold]
    by_cases same : other = name <;> simp [same]
  · have others : ∀ other ∈ (names pairs).eraseDups,
        (last? (pairs ++ [(name, value)]) other).map (Prod.mk other) =
          (last? pairs other).map (Prod.mk other) := by
      intro other hother
      have apart : other ≠ name := by
        rintro rfl
        exact there (List.mem_eraseDups.1 hother)
      rw [last?_append, if_neg apart]
    rw [if_neg there, if_neg (mt known.1 there), List.filterMap_congr others, List.filterMap_cons,
      last?_append, if_pos rfl]
    rfl

end Pairs

end BoundSql
