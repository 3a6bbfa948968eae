import Mathlib.Data.List.Forall2
import BoundSql.Dialect.Config
import BoundSql.Proofs.Json.Writing

/-!
# The members of an object

Members are looked up by what their names stand for. `Arranges` says of the members of an object
that they hold certain fields, in any order and among members with other names; then every field is
found, with the value that is asked for, and a reserved name that is no field's is not
(`Arranges.field?`, `Arranges.optionalField?_absent`).
-/

namespace BoundSql.Json

/-! ## Written values -/

theorem text?_source (s : String) : (Json.string s).source.text? = some s := by
  rw [source, Source.text?, decode?_piecesOf, Option.map_some, String.ofList_toList]

theorem natural?_source (n : Nat) : (Json.int n).source.natural? = some n :=
  Numeral.natural?_ofInt n

namespace Source

/-! ## Names -/

/-- A member is called by a name: this is the text that its name stands for. -/
def Called (name : String) (m : List Piece × Source) : Prop :=
  decode? m.1 = some name.toList

instance (name : String) (m : List Piece × Source) : Decidable (Called name m) :=
  inferInstanceAs (Decidable (_ = _))

theorem called_piecesOf (name : String) (value : Source) : Called name (piecesOf name, value) :=
  decode?_piecesOf name

theorem Called.unique {name name' : String} {m : List Piece × Source} (called : Called name m)
    (called' : Called name' m) : name = name' :=
  String.toList_inj.1 (Option.some.inj (called.symm.trans called'))

variable {members : List (List Piece × Source)} {named : List (String × Source)} {name : String}

/-- The members of an object are found with their names. -/
theorem namedMembers?_of_called
    (called : List.Forall₂ (fun m e => Called e.1 m ∧ m.2 = e.2) members named) :
    namedMembers? members = some named := by
  induction called with
  | nil => rfl
  | @cons m e _ _ head _ ih =>
    obtain ⟨name, value⟩ := m
    obtain ⟨called, rfl⟩ := head
    rw [namedMembers?, show decode? name = some e.1.toList from called, ih]
    simp only [String.ofList_toList]

theorem called_of_namedMembers? (read : namedMembers? members = some named) :
    List.Forall₂ (fun m e => Called e.1 m ∧ m.2 = e.2) members named := by
  induction members generalizing named with
  | nil =>
    cases read
    exact .nil
  | cons m members ih =>
    obtain ⟨name, value⟩ := m
    rw [namedMembers?] at read
    split at read
    · next text rest decoded later =>
      cases read
      refine .cons ⟨?_, rfl⟩ (ih later)
      rw [Called, decoded, String.toList_ofList]
    · cases read

theorem exists_namedMembers? (all : ∀ m ∈ members, ∃ name, Called name m) :
    ∃ named, namedMembers? members = some named := by
  induction members with
  | nil => exact ⟨[], rfl⟩
  | cons m members ih =>
    obtain ⟨name, called⟩ := all m List.mem_cons_self
    obtain ⟨named, read⟩ := ih fun m' mem => all m' (List.mem_cons_of_mem m mem)
    exact ⟨(name, m.2) :: named,
      namedMembers?_of_called (.cons ⟨called, rfl⟩ (called_of_namedMembers? read))⟩

/-- The members of an object that is written. -/
theorem namedMembers?_memberSources (members : List (String × Json)) :
    namedMembers? (memberSources members) = some (members.map fun m => (m.1, m.2.source)) := by
  refine namedMembers?_of_called ?_
  induction members with
  | nil => exact .nil
  | cons m members ih => exact .cons ⟨called_piecesOf m.1 m.2.source, rfl⟩ ih

/-! ## Looking up -/

/-- The members of one name, with and without their names. -/
theorem called_filter (read : namedMembers? members = some named) (name : String) :
    List.Forall₂ (fun m e => Called e.1 m ∧ m.2 = e.2) (members.filter (Called name ·))
      (named.filter (·.1 == name)) := by
  refine List.rel_filter (fun m e same => ?_) (called_of_namedMembers? read)
  simp only [decide_eq_true_eq, beq_iff_eq]
  exact ⟨same.1.unique, fun eq => eq ▸ same.1⟩

/-- A member that is the only one of its name is found. -/
theorem optionalField?_of_once {m : List Piece × Source} (read : namedMembers? members = some named)
    (once : members.filter (Called name ·) = [m]) :
    optionalField? name named = some (some m.2) := by
  have same := called_filter read name
  rw [once] at same
  unfold optionalField?
  generalize named.filter (·.1 == name) = found at same
  obtain _ | ⟨⟨-, value⟩, _ | _⟩ := same
  rw [value]

theorem optionalField?_of_never (read : namedMembers? members = some named)
    (never : members.filter (Called name ·) = []) : optionalField? name named = some none := by
  have same := called_filter read name
  rw [never, List.forall₂_nil_left_iff] at same
  rw [optionalField?, same]

/-! ## Fields in any order -/

/-- A member fits a field: it is called by the field's name, and its value is as it is asked for. -/
def Fits (field : String × (Source → Prop)) (m : List Piece × Source) : Prop :=
  Called field.1 m ∧ field.2 m.2

/-- There is a member for each field that fits it. The members stand in any order, and among others
whose names are not reserved. -/
def Arranges (fields : List (String × (Source → Prop))) (reserved : List String)
    (members : List (List Piece × Source)) : Prop :=
  ∃ known others, members.Perm (known ++ others) ∧
    List.Forall₂ Fits fields known ∧ ∀ m ∈ others, ∃ name, Called name m ∧ name ∉ reserved

variable {fields : List (String × (Source → Prop))} {reserved : List String}

namespace Arranges

/-- The fields in their own order, and nothing else. -/
theorem of_fields (held : List.Forall₂ Fits fields members) :
    Arranges fields reserved members :=
  ⟨members, [], by rw [List.append_nil], held, List.forall_mem_nil _⟩

theorem exists_namedMembers? (arranged : Arranges fields reserved members) :
    ∃ named, namedMembers? members = some named := by
  obtain ⟨known, others, order, held, unknown⟩ := arranged
  have fieldNames : ∀ m ∈ known, ∃ name, Called name m := by
    clear order
    induction held with
    | nil => exact List.forall_mem_nil _
    | cons head _ ih => exact List.forall_mem_cons.2 ⟨⟨_, head.1⟩, ih⟩
  refine Source.exists_namedMembers? fun m mem => ?_
  rcases List.mem_append.1 (order.mem_iff.1 mem) with mem | mem
  · exact fieldNames m mem
  · obtain ⟨name, called, _⟩ := unknown m mem
    exact ⟨name, called⟩

/-- The members of a reserved name are those of the fields of this name. -/
theorem filter_called (arranged : Arranges fields reserved members) (kept : name ∈ reserved) :
    ∃ found, (members.filter (Called name ·)).Perm found ∧
      List.Forall₂ Fits (fields.filter (·.1 == name)) found := by
  obtain ⟨known, others, order, held, unknown⟩ := arranged
  refine ⟨known.filter (Called name ·), ?_, List.rel_filter (fun field m same => ?_) held⟩
  · have none : others.filter (Called name ·) = [] := by
      refine List.filter_eq_nil_iff.2 fun m mem called => ?_
      obtain ⟨other, called', free⟩ := unknown m mem
      exact free (called'.unique (of_decide_eq_true called) ▸ kept)
    have perm := order.filter (Called name ·)
    rwa [List.filter_append, none, List.append_nil] at perm
  · simp only [decide_eq_true_eq, beq_iff_eq]
    exact ⟨fun eq => eq ▸ same.1, same.1.unique⟩

/-- A field is found, with a value as it is asked for. -/
theorem field? (arranged : Arranges fields reserved members)
    (read : namedMembers? members = some named) (name : String) (kept : name ∈ reserved)
    {asked : Source → Prop} (once : fields.filter (·.1 == name) = [(name, asked)]) :
    ∃ value, Source.optionalField? name named = some (some value) ∧
      Source.field? name named = some value ∧ asked value := by
  obtain ⟨found, perm, held⟩ := arranged.filter_called kept
  rw [once] at held
  obtain _ | ⟨⟨-, value⟩, _ | _⟩ := held
  have found := optionalField?_of_once read (List.perm_singleton.1 perm)
  exact ⟨_, found, by rw [Source.field?, found], value⟩

theorem optionalField?_absent (arranged : Arranges fields reserved members)
    (read : namedMembers? members = some named) (name : String) (kept : name ∈ reserved)
    (absent : fields.filter (·.1 == name) = []) : Source.optionalField? name named = some none := by
  obtain ⟨found, perm, held⟩ := arranged.filter_called kept
  rw [absent, List.forall₂_nil_left_iff] at held
  rw [held] at perm
  exact optionalField?_of_never read perm.eq_nil

end Arranges

end Source

end BoundSql.Json
