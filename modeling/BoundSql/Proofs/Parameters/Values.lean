import BoundSql.Proofs.Parameters.Pairs

/-!
# Changes and the values that they carry

A change looks at names only: with other values in place of those that a list holds and a change
carries, the list after the change has the other values in the same places (`Pairs.edit_map`). So
what a change stores under which name is known from the names (`Edit.Stores`), and every entry after
a change was stored by it or stood there before (`Pairs.mem_edit`).
-/

namespace BoundSql

universe u v

variable {α : Type u} {β : Type v}

/-! ## Other values -/

namespace Pairs

/-- Other values under the same names. -/
def map (f : α → β) (l : Pairs α) : Pairs β :=
  List.map (fun entry => (entry.1, f entry.2)) l

variable (f : α → β)

@[simp] theorem map_nil : map f [] = [] := rfl

@[simp] theorem map_cons (entry : String × α) (l : Pairs α) :
    map f (entry :: l) = (entry.1, f entry.2) :: map f l := rfl

@[simp] theorem map_append (l l' : Pairs α) : map f (l ++ l') = map f l ++ map f l' :=
  List.map_append

@[simp] theorem length_map (l : Pairs α) : (map f l).length = l.length :=
  List.length_map _

/-- Other values stand under the same names. -/
@[simp] theorem names_map (l : Pairs α) : names (map f l) = names l := by
  simp [names, map]

/-- A name leads to the other value of what it led to. -/
theorem lookup_map (l : Pairs α) (name : String) :
    (map f l).lookup name = (l.lookup name).map f := by
  induction l with
  | nil => rfl
  | cons entry l ih =>
    rw [map_cons, List.lookup_cons, List.lookup_cons, ih]
    cases name == entry.1 <;> rfl

/-- So does the last binding of a name, where a name is bound more than once. -/
theorem last?_map (l : Pairs α) (name : String) : last? (map f l) name = (last? l name).map f := by
  rw [last?, last?, ← lookup_map, map, map, List.map_reverse]

/-- Which pairs can be added is known from their names. -/
theorem fresh_map (taken : List String) (l : Pairs α) :
    fresh taken (map f l) = map f (fresh taken l) := by
  induction l generalizing taken with
  | nil => rfl
  | cons entry l ih =>
    obtain ⟨name, value⟩ := entry
    rw [map_cons, fresh, fresh, ih]
    split <;> rfl

/-- Replacing one value is the same before and after all values become others. -/
theorem replace_map (l : Pairs α) (name : String) (value : α) :
    replace (map f l) name (f value) = map f (replace l name value) := by
  simp only [replace, map, List.map_map]
  apply List.map_congr_left
  intro entry _
  by_cases same : entry.1 = name <;> simp [same]

/-- Overwriting finds the same names bound. -/
theorem overwrite_map (l pairs : Pairs α) :
    overwrite (map f l) (map f pairs) = map f (overwrite l pairs) := by
  simp only [overwrite, last?_map]
  simp only [map, List.map_map]
  apply List.map_congr_left
  intro entry _
  cases found : last? pairs entry.1 <;> simp [found]

/-- Which of several pairs of one name counts is known from the names. -/
theorem ofList_map (pairs : Pairs α) : ofList (map f pairs) = map f (ofList pairs) := by
  simp only [ofList, names_map, last?_map]
  rw [map, List.map_filterMap]
  apply List.filterMap_congr
  intro name _
  rw [Option.map_map, Option.map_map]
  rfl

/-- The first pair that cannot be added, and with it the error, is known from the names. -/
theorem append_map (l pairs : Pairs α) :
    append (map f l) (map f pairs) = ((append l pairs).1, map f (append l pairs).2) := by
  simp only [append, names_map, fresh_map, length_map, map_append, Prod.mk.injEq, and_true]
  rw [map, List.getElem?_map]
  cases pairs[(fresh (names l) pairs).length]? <;> rfl

end Pairs

/-- The same change with other values. -/
def Edit.map (f : α → β) : Edit α → Edit β
  | .add name value => .add name (f value)
  | .set name value => .set name (f value)
  | .append pairs => .append (Pairs.map f pairs)
  | .overwrite pairs => .overwrite (Pairs.map f pairs)
  | .remove name => .remove name
  | .clear => .clear
  | .truncate n => .truncate n

/-- A change with other values, made to a list with other values, leaves other values in the same
places and answers alike. -/
theorem Pairs.edit_map (f : α → β) (l : Pairs α) (change : Edit α) :
    edit (map f l) (change.map f) =
      ((edit l change).1.map (Option.map f), map f (edit l change).2) := by
  cases change with
  | add name value =>
    by_cases taken : name ∈ names l
    · simp [edit, Edit.map, add, taken, Except.map]
    · simp [edit, Edit.map, add, taken, Except.map]
  | set name value =>
    by_cases taken : name ∈ names l
    · simp [edit, Edit.map, set, taken, replace_map, Except.map]
    · simp [edit, Edit.map, set, taken, Except.map]
  | append pairs =>
    simp only [edit, Edit.map, append_map]
    cases (append l pairs).1 <;> rfl
  | overwrite pairs => simp [edit, Edit.map, overwrite_map, Except.map]
  | remove name =>
    simp only [edit, Edit.map, remove, lookup_map, Except.map, Prod.mk.injEq, true_and]
    rw [map, map, List.filter_map]
    rfl
  | clear => rfl
  | truncate n =>
    simp only [edit, Edit.map, Except.map, map, List.map_take]
    rfl

/-- A history with one change more is that change, made at its end. -/
theorem Pairs.editAll_concat (l : Pairs α) (history : List (Edit α)) (change : Edit α) :
    (editAll l (history ++ [change])).2 = (edit (editAll l history).2 change).2 := by
  induction history generalizing l with
  | nil => rfl
  | cons first rest ih => exact ih (edit l first).2

/-! ## What a change stores -/

/-- A change of a list stores a value under a name, whether the name is new or bound already. -/
def Edit.Stores (l : Pairs α) : Edit α → String → Prop
  | .add name _, n => n = name ∧ n ∉ Pairs.names l
  | .set name _, n => n = name
  | .append pairs, n => n ∈ Pairs.names (Pairs.fresh (Pairs.names l) pairs)
  | .overwrite pairs, n => n ∈ Pairs.names l ∧ n ∈ Pairs.names pairs
  | .remove _, _ | .clear, _ | .truncate _, _ => False

/-- The values that a change carries. -/
def Edit.values : Edit α → List α
  | .add _ value | .set _ value => [value]
  | .append pairs | .overwrite pairs => List.map Prod.snd pairs
  | .remove _ | .clear | .truncate _ => []

/-- What is stored where is known from the names. -/
theorem Edit.stores_map (f : α → β) {l : Pairs α} {change : Edit α} {name : String} :
    (change.map f).Stores (Pairs.map f l) name ↔ change.Stores l name := by
  cases change <;> simp [Edit.map, Edit.Stores, Pairs.fresh_map]

namespace Pairs

variable {l : Pairs α} {name : String} {value : α}

/-- Adding stops early, but leaves nothing out before that. -/
theorem fresh_sublist (taken : List String) (pairs : Pairs α) :
    (fresh taken pairs).Sublist pairs := by
  induction pairs generalizing taken with
  | nil => exact List.Sublist.refl _
  | cons entry pairs ih =>
    obtain ⟨name, value⟩ := entry
    unfold fresh
    split
    · exact List.nil_sublist _
    · exact (ih _).cons_cons _

/-- What is added was not bound. -/
theorem not_mem_of_mem_fresh {taken : List String} {pairs : Pairs α}
    (mem : name ∈ names (fresh taken pairs)) : name ∉ taken := by
  induction pairs generalizing taken with
  | nil => cases mem
  | cons entry pairs ih =>
    obtain ⟨first, value⟩ := entry
    unfold fresh at mem
    split at mem
    · cases mem
    · next new =>
      rcases List.mem_cons.1 mem with rfl | later
      · exact new
      · intro old
        exact ih later (List.mem_append_left _ old)

/-- The last binding of a name is among the pairs. -/
theorem mem_of_last? {pairs : Pairs α} (found : last? pairs name = some value) :
    (name, value) ∈ pairs := by
  unfold last? at found
  obtain ⟨before, after, split, -⟩ := List.lookup_eq_some_iff.1 found
  rw [← List.mem_reverse, split]
  simp

/-- Replacing a value binds no new name and keeps the order. -/
theorem names_replace (l : Pairs α) (name : String) (value : α) :
    names (replace l name value) = names l := by
  simp only [names, replace, List.map_map]
  apply List.map_congr_left
  intro entry _
  by_cases same : entry.1 = name <;> simp [same]

/-- Overwriting binds no new name and keeps the order. -/
theorem names_overwrite (l pairs : Pairs α) : names (overwrite l pairs) = names l := by
  simp [names, overwrite]

theorem mem_names_of_mem (mem : (name, value) ∈ l) : name ∈ names l :=
  List.mem_map_of_mem mem

/-- After a replacement a pair is the new one, or an old one of another name. -/
theorem mem_replace {named : String} {v : α} (mem : (name, value) ∈ replace l named v) :
    name = named ∧ value = v ∨ name ≠ named ∧ (name, value) ∈ l := by
  obtain ⟨entry, before, same⟩ := List.mem_map.1 mem
  split at same
  · cases same
    exact .inl ⟨rfl, rfl⟩
  · next apart =>
    subst same
    exact .inr ⟨apart, before⟩

/-- After an overwriting a pair is one of those carried, or an old one whose name none of them has.
-/
theorem mem_overwrite {pairs : Pairs α} (mem : (name, value) ∈ overwrite l pairs) :
    (name, value) ∈ pairs ∨ name ∉ names pairs ∧ (name, value) ∈ l := by
  obtain ⟨entry, before, same⟩ := List.mem_map.1 mem
  cases same
  cases found : last? pairs entry.1 with
  | some v => exact .inl (mem_of_last? found)
  | none =>
    refine .inr ⟨fun carried => ?_, before⟩
    rw [← isSome_last?, found] at carried
    cases carried

/-- Making the names unique invents no pair. -/
theorem mem_of_mem_ofList {pairs : Pairs α} (mem : (name, value) ∈ ofList pairs) :
    (name, value) ∈ pairs := by
  obtain ⟨named, -, found⟩ := List.mem_filterMap.1 mem
  obtain ⟨v, last, same⟩ := Option.map_eq_some_iff.1 found
  cases same
  exact mem_of_last? last

/-- An entry after a change was stored by it, and holds a value that the change carries, or it stood
there before and nothing was stored under its name. -/
theorem mem_edit {change : Edit α} (mem : (name, value) ∈ (edit l change).2) :
    change.Stores l name ∧ value ∈ change.values ∨ ¬change.Stores l name ∧ (name, value) ∈ l := by
  cases change with
  | add named v =>
    simp only [edit, add] at mem
    by_cases taken : named ∈ names l
    · rw [if_pos taken] at mem
      exact .inr ⟨fun stores => stores.2 (mem_names_of_mem mem), mem⟩
    · rw [if_neg taken, List.mem_append, List.mem_singleton] at mem
      rcases mem with before | same
      · exact .inr ⟨fun stores => stores.2 (mem_names_of_mem before), before⟩
      · cases same
        exact .inl ⟨⟨rfl, taken⟩, List.mem_singleton_self _⟩
  | set named v =>
    simp only [edit, set] at mem
    by_cases taken : named ∈ names l
    · rw [if_pos taken] at mem
      rcases mem_replace mem with ⟨same, rfl⟩ | ⟨apart, before⟩
      · exact .inl ⟨same, List.mem_singleton_self _⟩
      · exact .inr ⟨apart, before⟩
    · rw [if_neg taken, List.mem_append, List.mem_singleton] at mem
      rcases mem with before | same
      · refine .inr ⟨?_, before⟩
        rintro rfl
        exact taken (mem_names_of_mem before)
      · cases same
        exact .inl ⟨rfl, List.mem_singleton_self _⟩
  | append pairs =>
    rcases List.mem_append.1 mem with before | new
    · exact .inr ⟨fun stores => not_mem_of_mem_fresh stores (mem_names_of_mem before), before⟩
    · exact .inl ⟨mem_names_of_mem new,
        List.mem_map_of_mem ((fresh_sublist _ pairs).subset new)⟩
  | overwrite pairs =>
    have bound : name ∈ names l := by
      obtain ⟨entry, before, same⟩ := List.mem_map.1 mem
      cases same
      exact mem_names_of_mem before
    rcases mem_overwrite mem with carried | ⟨absent, before⟩
    · exact .inl ⟨⟨bound, mem_names_of_mem carried⟩, List.mem_map_of_mem carried⟩
    · exact .inr ⟨fun stores => absent stores.2, before⟩
  | remove named => exact .inr ⟨id, (List.mem_filter.1 mem).1⟩
  | clear => cases mem
  | truncate n => exact .inr ⟨id, List.mem_of_mem_take mem⟩

/-- What a change stores a value under is bound after it. -/
theorem mem_names_edit {change : Edit α} (stores : change.Stores l name) :
    name ∈ names (edit l change).2 := by
  cases change with
  | add named v =>
    obtain ⟨rfl, new⟩ := stores
    simp [edit, add, new]
  | set named v =>
    obtain rfl : name = named := stores
    by_cases taken : name ∈ names l
    · simp [edit, set, taken, names_replace]
    · simp [edit, set, taken]
  | append pairs =>
    simp only [edit, append, names_append]
    exact List.mem_append_right _ stores
  | overwrite pairs =>
    simp only [edit, names_overwrite]
    exact stores.1
  | remove | clear | truncate => cases stores

end Pairs

end BoundSql
