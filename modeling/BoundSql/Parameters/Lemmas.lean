import BoundSql.Parameters

/-!
# A collection of parameters through its entries

The view of a collection is its list of entries. Main statements: the view determines the collection
(`ext_toList`), no name stands twice in it (`names_nodup`), a name is bound exactly when it is among
the names (`contains_iff`), and each operation is an operation on the view.
-/

namespace BoundSql.Parameters

universe u

variable {α : Type u}

/-- The index follows from the entries. -/
theorem eq_of_entries {p q : Parameters α} (h : p.entries = q.entries) : p = q := by
  obtain ⟨entries, index, hp⟩ := p
  obtain ⟨_, index', hq⟩ := q
  subst h
  obtain rfl : index = index' := Index.eq_of_exact hp hq
  rfl

/-- Collections with the same entries are equal. -/
theorem ext_toList {p q : Parameters α} (h : p.toList = q.toList) : p = q :=
  eq_of_entries (Array.toList_inj.1 h)

/-- A name is indexed at its position, and nothing else is. -/
theorem index_exact (p : Parameters α) : p.index.Exact fun i => p.names[i]? := by
  intro name i
  dsimp only
  rw [p.index_eq, names, toList, List.getElem?_map, Array.getElem?_toList]

theorem index_eq_none_iff {p : Parameters α} {name : String} :
    p.index[name]? = none ↔ name ∉ p.names :=
  Index.eq_none_iff_of_exact p.index_exact

theorem contains_iff {p : Parameters α} {name : String} :
    p.contains name = true ↔ name ∈ p.names := by
  rw [contains, Option.isSome_iff_ne_none, Ne, index_eq_none_iff, Decidable.not_not]

/-- No name stands twice. -/
theorem names_nodup (p : Parameters α) : p.names.Nodup :=
  Index.nodup_of_exact p.index_exact

/-- The value of a name is the one it was bound with. -/
theorem get?_eq_some_iff {p : Parameters α} {name : String} {value : α} :
    p.get? name = some value ↔ (name, value) ∈ p.toList := by
  unfold get? toList
  rw [Option.bind_eq_some_iff, Array.mem_toList_iff]
  constructor
  · rintro ⟨i, hi, hvalue⟩
    obtain ⟨entry, hentry, rfl⟩ := Option.map_eq_some_iff.1 ((p.index_eq _ _).1 hi)
    rw [hentry, Option.map_some, Option.some.injEq] at hvalue
    subst hvalue
    exact Array.mem_of_getElem? hentry
  · intro hmem
    obtain ⟨i, hi⟩ := Array.mem_iff_getElem?.1 hmem
    exact ⟨i, (p.index_eq _ _).2 (by rw [hi, Option.map_some]), by rw [hi, Option.map_some]⟩

@[simp] theorem toList_empty : (empty : Parameters α).toList = [] := rfl

@[simp] theorem toList_push (p : Parameters α) (name : String) (value : α)
    (fresh : p.index[name]? = none) :
    (p.push name value fresh).toList = p.toList ++ [(name, value)] := by
  simp [push, toList]

@[simp] theorem toList_truncate (p : Parameters α) (n : Nat) :
    (p.truncate n).toList = p.toList.take n := by
  simp [truncate, toList]

@[simp] theorem toList_put (p : Parameters α) (i : Nat) (value : α) :
    (p.put i value).toList = p.toList.modify i fun entry => (entry.1, value) := by
  simp [put, toList]

@[simp] theorem toList_eraseAt (p : Parameters α) (name : String) (i : Nat)
    (h : p.index[name]? = some i) : (p.eraseAt name i h).toList = p.toList.eraseIdx i := by
  simp only [eraseAt, toList, Array.eraseIdxIfInBounds]
  split
  · rw [Array.toList_eraseIdx]
  · next outside => rw [List.eraseIdx_of_length_le (Nat.le_of_not_lt outside)]

/-- The size counts the entries. -/
theorem length_toList (p : Parameters α) : p.toList.length = p.size := by
  simp [toList, size]

/-- To cut a collection back takes away what was bound on to it. -/
theorem truncate_eq_of_append {p q : Parameters α} {new : List (String × α)}
    (grown : q.toList = p.toList ++ new) : q.truncate p.size = p := by
  apply ext_toList
  rw [toList_truncate, grown, ← p.length_toList, List.take_left]

/-- A name that is not bound is bound after all others. -/
theorem add_eq_ok_iff {p q : Parameters α} {name : String} {value : α} :
    p.add name value = .ok q ↔ name ∉ p.names ∧ q.toList = p.toList ++ [(name, value)] := by
  unfold add
  split
  case h_1 i h =>
    simp only [reduceCtorEq, false_iff, not_and]
    intro absent
    rw [index_eq_none_iff.2 absent] at h
    cases h
  case h_2 h =>
    constructor
    · rintro ⟨⟩
      exact ⟨index_eq_none_iff.1 h, toList_push ..⟩
    · rintro ⟨_, view⟩
      rw [ext_toList (p := q) (q := p.push name value h) (by rw [view, toList_push])]

/-- A name that is bound is refused. -/
theorem add_eq_error_iff {p : Parameters α} {name : String} {value : α} {e : StatementError} :
    p.add name value = .error e ↔ name ∈ p.names ∧ e = .duplicateParameter name := by
  unfold add
  split
  case h_1 i h =>
    have bound : name ∈ p.names := by
      rw [← contains_iff, contains, h]
      rfl
    simp [bound, eq_comm]
  case h_2 h =>
    have := index_eq_none_iff.1 h
    simp [this]

end BoundSql.Parameters
