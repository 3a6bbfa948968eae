import Std.Data.ExtHashMap

/-!
# Positions of names

A sequence of named things keeps an index, which leads from a name to the position where it stands.
The index is exact when it holds the position of every name in the sequence and nothing else. A
sequence has one exact index (`Index.eq_of_exact`), which a new name behind all others keeps exact
(`Index.exact_insert`), and what has an exact index has no name twice (`Index.nodup_of_exact`).
-/

namespace BoundSql

/-- Names are compared as texts. This is the one proof of it that an index refers to. -/
instance instEquivBEqName : EquivBEq String := inferInstance

/-- Equal names have one hash, by the one proof of it that an index refers to. -/
instance instLawfulHashableName : LawfulHashable String := inferInstance

/-- The position of each name. -/
abbrev Index := Std.ExtHashMap String Nat

/-- The index holds the positions of the names in a sequence. -/
def Index.Exact (index : Index) (at? : Nat → Option String) : Prop :=
  ∀ (name : String) (i : Nat), index[name]? = some i ↔ at? i = some name

namespace Index

variable {index index' : Index} {at? : Nat → Option String}

theorem eq_of_exact (h : index.Exact at?) (h' : index'.Exact at?) : index = index' := by
  apply Std.ExtHashMap.ext_getElem?
  intro name
  apply Option.ext
  intro i
  rw [h, h']

/-- A new name takes the first position that is free. -/
theorem exact_insert (h : index.Exact at?) {name : String} {n : Nat} (fresh : index[name]? = none)
    (free : at? n = none) :
    Exact (index.insert name n) fun i => if i = n then some name else at? i := by
  intro other i
  have all := h other i
  dsimp only
  rw [Std.ExtHashMap.getElem?_insert]
  by_cases new : i = n
  · subst new
    by_cases same : name = other
    · simp [same]
    · simp [same, all, free]
  · by_cases same : name = other
    · subst same
      rw [fresh] at all
      simpa [new, Ne.symm new] using all
    · simpa [new, same] using all

section

variable {names : List String}

theorem eq_none_iff_of_exact (h : index.Exact fun i => names[i]?) {name : String} :
    index[name]? = none ↔ name ∉ names := by
  rw [Option.eq_none_iff_forall_ne_some, List.mem_iff_getElem?]
  exact ⟨fun none ⟨i, here⟩ => none i ((h name i).2 here),
    fun absent i found => absent ⟨i, (h name i).1 found⟩⟩

/-- A name that stood twice would have two positions. -/
theorem nodup_of_exact (h : index.Exact fun i => names[i]?) : names.Nodup := by
  rw [List.nodup_iff_pairwise_ne, List.pairwise_iff_getElem]
  intro i j hi hj hij same
  have first := (h names[i] i).2 (List.getElem?_eq_getElem hi)
  rw [same, (h names[j] j).2 (List.getElem?_eq_getElem hj)] at first
  exact absurd (Option.some.inj first) (Nat.ne_of_gt hij)

end

/-! ## The index of a list -/

/-- The index after names that take the positions from `n` on. -/
def addAll (index : Index) (n : Nat) : List String → Index
  | [] => index
  | name :: rest => addAll (index.insert name n) (n + 1) rest

theorem exact_addAll {before names : List String} (h : index.Exact fun i => before[i]?)
    (distinct : (before ++ names).Nodup) :
    Exact (addAll index before.length names) fun i => (before ++ names)[i]? := by
  induction names generalizing index before with
  | nil => simpa [addAll] using h
  | cons name rest ih =>
    have fresh : index[name]? = none :=
      (eq_none_iff_of_exact h).2 fun old =>
        (List.nodup_append.1 distinct).2.2 name old name List.mem_cons_self rfl
    have next : (before ++ [name]).length = before.length + 1 := List.length_append
    rw [List.append_cons] at distinct ⊢
    rw [addAll, ← next]
    refine ih (fun other i => ?_) distinct
    rw [exact_insert h fresh (List.getElem?_eq_none (Nat.le_refl _)) other i]
    dsimp only
    rw [List.getElem?_append, List.getElem?_singleton]
    grind

end Index

end BoundSql
