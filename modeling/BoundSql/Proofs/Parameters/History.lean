import BoundSql.Parameters.Lemmas
import BoundSql.Proofs.Parameters.Pairs
import BoundSql.Query

/-!
# A collection is an ordered list of distinct names

A collection of parameters keeps its entries and an index from names to positions side by side.
`Parameters.editAll_shows` says that a caller cannot tell it from the plain list of `Pairs`: over
every history of changes both answer alike, and afterwards all that can be asked of the collection
is what the list says.

Each change is compared with the list on its own (`Parameters.toList_edit`), for values of any kind;
the history follows by induction. That the index is exact is what makes the changes comparable: a
change at the position that the index gives is a change wherever the name stands.
-/

namespace BoundSql.Parameters

universe u

variable {α : Type u}

/-! ## Changes through the view -/

theorem names_toList (p : Parameters α) : Pairs.names p.toList = p.names := rfl

/-- The index leads to where a name stands. -/
theorem index_eq_some_iff {p : Parameters α} {name : String} {i : Nat} :
    p.index[name]? = some i ↔ p.names[i]? = some name := by
  rw [p.index_eq, names, toList, List.getElem?_map, Array.getElem?_toList]

/-- Replacing a value at its place replaces it under its name. -/
theorem toList_replace (p : Parameters α) (name : String) (value : α) :
    (p.replace name value).toList = Pairs.replace p.toList name value := by
  unfold replace
  cases found : p.index[name]? with
  | some i =>
    exact (toList_put p i value).trans
      (Pairs.modify_eq_replace p.names_nodup (index_eq_some_iff.1 found) value)
  | none => exact (Pairs.replace_of_not_mem (index_eq_none_iff.1 found) value).symm

/-- To set is to replace what is bound, or to push. -/
theorem toList_set (p : Parameters α) (name : String) (value : α) :
    (p.set name value).toList = Pairs.set p.toList name value := by
  unfold set Pairs.set
  split
  · next i found =>
    have stands := index_eq_some_iff.1 found
    rw [names_toList, if_pos (List.mem_of_getElem? stands), toList_put,
      Pairs.modify_eq_replace p.names_nodup stands value]
  · next found => rw [names_toList, if_neg (index_eq_none_iff.1 found), toList_push]

/-- To add is to push what is not bound. -/
theorem toList_add (p : Parameters α) (name : String) (value : α) :
    (p.add name value).map toList = Pairs.add p.toList name value := by
  unfold Pairs.add
  cases added : p.add name value with
  | ok q =>
    obtain ⟨new, view⟩ := add_eq_ok_iff.1 added
    rw [names_toList, if_neg new]
    exact congrArg Except.ok view
  | error e =>
    obtain ⟨taken, rfl⟩ := add_eq_error_iff.1 added
    rw [names_toList, if_pos taken]
    rfl

/-- The pairs that are bound are those in front of the first repeated name, which is the one
refused. -/
theorem toList_append (p : Parameters α) (pairs : Pairs α) :
    ((p.append pairs).1, (p.append pairs).2.toList) = Pairs.append p.toList pairs := by
  induction pairs generalizing p with
  | nil => simp [append, Pairs.append, Pairs.fresh]
  | cons pair rest ih =>
    obtain ⟨name, value⟩ := pair
    unfold append
    cases added : p.add name value with
    | error e =>
      obtain ⟨taken, rfl⟩ := add_eq_error_iff.1 added
      simp [Pairs.append, Pairs.fresh, names_toList, taken]
    | ok q =>
      obtain ⟨new, view⟩ := add_eq_ok_iff.1 added
      simp [ih, view, Pairs.append, Pairs.fresh, names_toList, new]

/-- To overwrite is to replace one value after the other, of which the last counts. -/
theorem toList_overwrite (p : Parameters α) (pairs : Pairs α) :
    (p.overwrite pairs).toList = Pairs.overwrite p.toList pairs := by
  induction pairs generalizing p with
  | nil => exact (List.map_id p.toList).symm
  | cons pair rest ih =>
    obtain ⟨name, value⟩ := pair
    have first : p.overwrite ((name, value) :: rest) = (p.replace name value).overwrite rest := rfl
    rw [first, ih, toList_replace, Pairs.overwrite, Pairs.replace, List.map_map, Pairs.overwrite]
    refine List.map_congr_left fun entry _ => ?_
    rw [Function.comp_apply, Pairs.last?_cons]
    by_cases same : entry.1 = name
    · rw [if_pos same, if_pos same, same]
      cases Pairs.last? rest name <;> rfl
    · rw [if_neg same, if_neg same, Option.or_none]

/-- The index finds what a search finds. -/
theorem get?_eq_lookup (p : Parameters α) (name : String) :
    p.get? name = p.toList.lookup name := by
  apply Option.ext
  intro value
  rw [get?_eq_some_iff, Pairs.lookup_eq_some_iff p.names_nodup]

theorem remove_fst (p : Parameters α) (name : String) : (p.remove name).1 = p.get? name := by
  unfold remove get?
  split
  · next i found =>
    dsimp only
    rw [found, Option.bind_some]
  · next found => rw [found, Option.bind_none]

/-- To remove is to filter a name out, as no name stands twice. -/
theorem toList_remove (p : Parameters α) (name : String) :
    (p.remove name).2.toList = (Pairs.remove p.toList name).2 := by
  unfold remove
  split
  · next i found =>
    exact (toList_eraseAt p name i found).trans
      (Pairs.eraseIdx_eq_filter p.names_nodup (index_eq_some_iff.1 found))
  · next found => exact (Pairs.filter_of_not_mem (index_eq_none_iff.1 found)).symm

/-- Collecting pairs keeps the place of the first and the value of the last of one name. -/
theorem toList_ofList (pairs : Pairs α) : (ofList pairs).toList = Pairs.ofList pairs := by
  have built : ∀ start : Parameters α, ∀ done : Pairs α, start.toList = Pairs.ofList done →
      (pairs.foldl (fun q pair => q.set pair.1 pair.2) start).toList =
        Pairs.ofList (done ++ pairs) := by
    induction pairs with
    | nil => intro start done h; rw [List.append_nil]; exact h
    | cons pair rest ih =>
      intro start done h
      have next : (start.set pair.1 pair.2).toList = Pairs.ofList (done ++ [pair]) := by
        rw [toList_set, h, Pairs.ofList_append]
      have := ih _ _ next
      rwa [List.append_assoc, List.singleton_append] at this
  exact built empty [] rfl

/-! ## Histories -/

/-- A change answers what it answers on the list, and leaves what it leaves there. -/
theorem toList_edit (p : Parameters α) (change : Edit α) :
    ((p.edit change).1, (p.edit change).2.toList) = Pairs.edit p.toList change := by
  cases change with
  | add name value =>
    rw [edit, Pairs.edit, ← toList_add]
    cases p.add name value <;> rfl
  | set name value => exact Prod.ext rfl (toList_set p name value)
  | append pairs => rw [edit, Pairs.edit, ← toList_append]
  | overwrite pairs => exact Prod.ext rfl (toList_overwrite p pairs)
  | remove name =>
    have answer : (p.remove name).1 = (Pairs.remove p.toList name).1 :=
      (remove_fst p name).trans (get?_eq_lookup p name)
    rw [edit, Pairs.edit]
    dsimp only
    rw [answer, toList_remove]
  | clear => rfl
  | truncate n => exact Prod.ext rfl (toList_truncate p n)

/-- So after a whole history. -/
theorem toList_editAll (p : Parameters α) (history : List (Edit α)) :
    ((p.editAll history).1, (p.editAll history).2.toList) = Pairs.editAll p.toList history := by
  induction history generalizing p with
  | nil => rfl
  | cons change rest ih =>
    rw [editAll, Pairs.editAll, ← toList_edit]
    dsimp only
    rw [← ih]

/-! ## What can be asked of a collection -/

/-- All that a collection tells is told by a list: its entries and names in order, where each name
stands and that nothing else is indexed, and what is found under a name. -/
structure Shows (p : Parameters α) (l : Pairs α) : Prop where
  toList : p.toList = l
  names : p.names = Pairs.names l
  distinct : (Pairs.names l).Nodup
  index : ∀ name, p.index[name]? = (Pairs.names l).idxOf? name
  get? : ∀ name, p.get? name = l.lookup name
  contains : ∀ name, p.contains name = (l.lookup name).isSome
  size : p.size = l.length
  isEmpty : p.isEmpty = l.isEmpty

/-- A collection tells what its own view does. -/
theorem shows_toList (p : Parameters α) : p.Shows p.toList where
  toList := rfl
  names := rfl
  distinct := p.names_nodup
  index name := by
    apply Option.ext
    intro i
    rw [index_eq_some_iff, Pairs.idxOf?_names p.names_nodup, names_toList]
  get? := get?_eq_lookup p
  contains name := by
    rw [Bool.eq_iff_iff, contains_iff, ← names_toList, ← Pairs.isSome_lookup]
  size := p.length_toList.symm
  isEmpty := by rw [Parameters.isEmpty, Parameters.toList, Array.isEmpty_toList]

/-- A collection cannot be told from a plain list of pairs. Started from the same pairs, or from
none, both answer alike to every history of changes, refusals included; at its end the collection
tells what the list does, and equals another collection exactly when the lists are equal. -/
theorem editAll_shows (start start' : Pairs Value) (history history' : List (Edit Value)) :
    ((ofList start).editAll history).1 = (Pairs.editAll (Pairs.ofList start) history).1 ∧
    ((ofList start).editAll history).2.Shows (Pairs.editAll (Pairs.ofList start) history).2 ∧
    ((ofList start).editAll history).2.equals ((ofList start').editAll history').2 =
      entriesEqual (Pairs.editAll (Pairs.ofList start) history).2
        (Pairs.editAll (Pairs.ofList start') history').2 := by
  have view := toList_editAll (ofList start) history
  have view' := toList_editAll (ofList start') history'
  rw [toList_ofList] at view view'
  rw [← view, ← view']
  exact ⟨rfl, shows_toList _, rfl⟩

end BoundSql.Parameters
