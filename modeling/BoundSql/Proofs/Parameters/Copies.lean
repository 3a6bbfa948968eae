import BoundSql.Parameters.Copies
import BoundSql.Proofs.Parameters.History
import BoundSql.Proofs.Parameters.Values

/-!
# Copies are isolated and share what neither side has stored anew

Two collections that were copies of each other share their stored values, and either goes its own
way from there. `SharedParameters.after_isolated` says both for every history of changes, clones and
exchanges. Each side is the plain list that its own changes make of it (`lineage`), where a clone
takes over the changes of its source. And the sides hold the same stored value under a name exactly
if both have it from one act of storing, through clones only (`Descends`).

That a value is the same one is told by the number it got when it was stored. The invariant
`Tracked` ties numbers to acts: what is held under one name bears one number on both sides exactly
if it descends from one act, and every number is below the next one. A change keeps it because each
entry is a fresh one, with a number and a position of its own, or one from before.
-/

namespace BoundSql

/-! ## Numbered changes -/

namespace Edit

/-- The same change, with the next numbers for the values that it carries. -/
def numbered (supply : Nat) : Edit Value → Edit Stored
  | .add name value => .add name ⟨supply, value⟩
  | .set name value => .set name ⟨supply, value⟩
  | .append pairs => .append (SharedParameters.number supply pairs)
  | .overwrite pairs => .overwrite (SharedParameters.number supply pairs)
  | .remove name => .remove name
  | .clear => .clear
  | .truncate n => .truncate n

end Edit

namespace SharedParameters

/-- Numbered values are the same values. -/
theorem map_number (supply : Nat) (pairs : Pairs Value) :
    Pairs.map Stored.value (number supply pairs) = pairs := by
  induction pairs generalizing supply with
  | nil => rfl
  | cons pair pairs ih => rw [number, Pairs.map_cons, ih]

/-- Values are numbered from the supply on. -/
theorem mem_number {supply : Nat} {pairs : Pairs Value} {entry : String × Stored}
    (mem : entry ∈ number supply pairs) :
    supply ≤ entry.2.number ∧ entry.2.number < supply + pairs.length := by
  induction pairs generalizing supply with
  | nil => cases mem
  | cons pair pairs ih =>
    rcases List.mem_cons.1 mem with rfl | mem
    · simp
    · obtain ⟨low, high⟩ := ih mem
      rw [List.length_cons]
      omega

theorem values_eq_map (p : Parameters Stored) : values p = Pairs.map Stored.value p.toList := rfl

end SharedParameters

namespace Edit

theorem map_numbered (supply : Nat) (change : Edit Value) :
    (change.numbered supply).map Stored.value = change := by
  cases change <;> simp [numbered, map, SharedParameters.map_number]

/-- Each value gets a number of its own supply. -/
theorem mem_values_numbered {supply : Nat} {change : Edit Value} {stored : Stored}
    (mem : stored ∈ (change.numbered supply).values) :
    supply ≤ stored.number ∧ stored.number < supply + change.values.length := by
  cases change with
  | add name value | set name value =>
    obtain rfl := List.mem_singleton.1 mem
    simp [values]
  | append pairs | overwrite pairs =>
    obtain ⟨entry, carried, rfl⟩ := List.mem_map.1 mem
    simpa [values] using SharedParameters.mem_number carried
  | remove | clear | truncate => cases mem

end Edit

namespace SharedParameters

/-! ## Steps -/

section

variable (s : SharedParameters) (change : Edit Value)

/-- A change is made to the present collection with the next numbers, and the copy stays. -/
theorem edit_eq : s.edit change =
    ((s.current.edit (change.numbered s.supply)).1.map (Option.map Stored.value),
      { s with
        current := (s.current.edit (change.numbered s.supply)).2
        supply := s.supply + change.values.length }) := by
  cases change with
  | add name value =>
    simp only [edit, add, Edit.numbered, Parameters.edit]
    cases s.current.add name ⟨s.supply, value⟩ <;> rfl
  | append pairs =>
    simp only [edit, append, Edit.numbered, Parameters.edit]
    cases (s.current.append (number s.supply pairs)).1 <;> simp [Except.map, Edit.values]
  | overwrite pairs =>
    simp [edit, overwrite, Edit.numbered, Parameters.edit, Except.map, Edit.values]
  | set | remove | clear | truncate => rfl

variable (here : Side)

theorem step_edit_fst : (s.step (.edit here change)).1 =
    ((s.side here).edit (change.numbered s.supply)).1.map (Option.map Stored.value) := by
  cases here <;> simp only [step, edit_eq] <;> rfl

/-- A change is made to one side. -/
theorem side_step_edit : (s.step (.edit here change)).2.side here =
    ((s.side here).edit (change.numbered s.supply)).2 := by
  cases here <;> simp only [step, edit_eq] <;> rfl

/-- The other side is as it was. -/
theorem side_step_edit_of_ne {there : Side} (apart : there ≠ here) :
    (s.step (.edit here change)).2.side there = s.side there := by
  cases here with
  | current =>
    cases there with
    | current => exact absurd rfl apart
    | copy => simp only [step, edit_eq]; rfl
  | copy =>
    cases there with
    | current => simp only [step, edit_eq]; rfl
    | copy => exact absurd rfl apart

theorem supply_step_edit :
    (s.step (.edit here change)).2.supply = s.supply + change.values.length := by
  cases here with
  | current => simp only [step, edit_eq]
  | copy => simp only [step, edit_eq]; rfl

theorem side_ofList (start : Pairs Value) (here : Side) :
    (ofList start).side here = Parameters.ofList (number 0 start) := by
  cases here <;> rfl

theorem side_step_clone (source there : Side) :
    (s.step (.clone source)).2.side there = s.side source := by
  cases source <;> cases there <;> rfl

theorem side_step_swap (there : Side) : (s.step .swap).2.side there = s.side there.other := by
  cases there <;> rfl

end

/-! ## What a history says -/

/-- The changes that a side has gone through: its own, and up to a clone those of its source. -/
def lineage : List Step → Side → List (Edit Value)
  | [], _ => []
  | .edit here change :: past, there =>
    if there = here then lineage past there ++ [change] else lineage past there
  | .clone source :: past, _ => lineage past source
  | .swap :: past, there => lineage past there.other

/-- The plain list that its changes make of a side. -/
def content (start : Pairs Value) (past : List Step) (here : Side) : Pairs Value :=
  (Pairs.editAll (Pairs.ofList start) (lineage past here)).2

/-- Where a stored value comes from: the pairs that a history starts from, or one of its steps, by
the number of steps before it. -/
inductive Origin
  | outset
  | step (position : Nat)
deriving DecidableEq, Repr

/-- What a side holds under a name descends from an act of storing: it has been there since, or has
come there through clones and exchanges only. -/
inductive Descends (start : Pairs Value) : List Step → Side → String → Origin → Prop
  | outset {here : Side} {name : String} (bound : name ∈ Pairs.names start) :
      Descends start [] here name .outset
  | stored {past : List Step} {here : Side} {change : Edit Value} {name : String}
      (stores : change.Stores (content start past here) name) :
      Descends start (.edit here change :: past) here name (.step past.length)
  | kept {past : List Step} {here : Side} {change : Edit Value} {name : String} {origin : Origin}
      (descends : Descends start past here name origin)
      (unstored : ¬change.Stores (content start past here) name)
      (left : name ∈ Pairs.names (content start (.edit here change :: past) here)) :
      Descends start (.edit here change :: past) here name origin
  | apart {past : List Step} {here there : Side} {change : Edit Value} {name : String}
      {origin : Origin} (descends : Descends start past there name origin) (apart : there ≠ here) :
      Descends start (.edit here change :: past) there name origin
  | cloned {past : List Step} {source there : Side} {name : String} {origin : Origin}
      (descends : Descends start past source name origin) :
      Descends start (.clone source :: past) there name origin
  | swapped {past : List Step} {here : Side} {name : String} {origin : Origin}
      (descends : Descends start past here.other name origin) :
      Descends start (.swap :: past) here name origin

section

variable {start : Pairs Value} {past : List Step} {here there : Side} {change : Edit Value}
  {name : String} {origin : Origin}

@[simp] theorem content_nil : content start [] here = Pairs.ofList start := rfl

@[simp] theorem content_clone (source : Side) :
    content start (.clone source :: past) here = content start past source := rfl

@[simp] theorem content_swap :
    content start (.swap :: past) here = content start past here.other := rfl

theorem content_edit : content start (.edit here change :: past) here =
    (Pairs.edit (content start past here) change).2 := by
  rw [content, lineage, if_pos rfl, Pairs.editAll_concat, content]

theorem content_edit_of_ne (apart : there ≠ here) :
    content start (.edit here change :: past) there = content start past there := by
  rw [content, lineage, if_neg apart, content]

/-- A step of a history has fewer steps before it than the history. -/
theorem Descends.position_lt {position : Nat}
    (h : Descends start past here name (.step position)) : position < past.length := by
  generalize same : Origin.step position = origin at h
  induction h with
  | outset => cases same
  | stored => cases same; simp
  | kept _ _ _ ih | apart _ _ ih | cloned _ ih | swapped _ ih =>
    have := ih same
    rw [List.length_cons]
    omega

/-- What is held after a change to a side was stored by it, or descends from an act before it. -/
theorem Descends.of_edit (h : Descends start (.edit here change :: past) there name origin) :
    there = here ∧ change.Stores (content start past here) name ∧ origin = .step past.length ∨
      (there = here → ¬change.Stores (content start past here) name) ∧
        Descends start past there name origin := by
  cases h with
  | stored stores => exact .inl ⟨rfl, stores, rfl⟩
  | kept descends unstored left => exact .inr ⟨fun _ => unstored, descends⟩
  | apart descends apart => exact .inr ⟨fun same => absurd same apart, descends⟩

/-- What a change has just stored on its side is not what the other side holds. -/
theorem Descends.not_of_stores (h : Descends start (.edit here change :: past) here name origin)
    (stores : change.Stores (content start past here) name) (apart : there ≠ here) :
    ¬Descends start (.edit here change :: past) there name origin := by
  intro h'
  rcases h.of_edit with ⟨-, -, rfl⟩ | ⟨unstored, -⟩
  · rcases h'.of_edit with ⟨same, -⟩ | ⟨-, before⟩
    · exact apart same
    · exact absurd before.position_lt (Nat.lt_irrefl _)
  · exact unstored rfl stores

/-- A name descends from some act exactly if it is bound. -/
theorem exists_descends_iff :
    (∃ origin, Descends start past here name origin) ↔
      name ∈ Pairs.names (content start past here) := by
  constructor
  · rintro ⟨origin, h⟩
    induction h with
    | outset bound => rwa [content_nil, Pairs.names_ofList, List.mem_eraseDups]
    | stored stores => rw [content_edit]; exact Pairs.mem_names_edit stores
    | kept _ _ left => exact left
    | apart _ apart ih => rwa [content_edit_of_ne apart]
    | cloned _ ih | swapped _ ih => exact ih
  · intro bound
    induction past generalizing here with
    | nil =>
      rw [content_nil, Pairs.names_ofList, List.mem_eraseDups] at bound
      exact ⟨.outset, .outset bound⟩
    | cons latest past ih =>
      cases latest with
      | edit side change =>
        by_cases same : here = side
        · subst same
          by_cases stores : change.Stores (content start past here) name
          · exact ⟨_, .stored stores⟩
          · have before : name ∈ Pairs.names (content start past here) := by
              have after := bound
              rw [content_edit] at after
              obtain ⟨entry, mem, rfl⟩ := List.mem_map.1 after
              rcases Pairs.mem_edit mem with ⟨anew, -⟩ | ⟨-, old⟩
              · exact absurd anew stores
              · exact Pairs.mem_names_of_mem old
            obtain ⟨origin, descends⟩ := ih before
            exact ⟨origin, .kept descends stores bound⟩
        · rw [content_edit_of_ne same] at bound
          obtain ⟨origin, descends⟩ := ih bound
          exact ⟨origin, .apart descends same⟩
      | clone source =>
        obtain ⟨origin, descends⟩ : ∃ origin, Descends start past source name origin := ih bound
        exact ⟨origin, .cloned descends⟩
      | swap =>
        obtain ⟨origin, descends⟩ : ∃ origin, Descends start past here.other name origin := ih bound
        exact ⟨origin, .swapped descends⟩

end

/-! ## Numbers and acts -/

/-- The sides are the lists that their changes make of them, and numbers tell acts apart: what is
held under one name bears one number exactly if it descends from one act. -/
structure Tracked (start : Pairs Value) (past : List Step) (s : SharedParameters) : Prop where
  values : ∀ here, values (s.side here) = content start past here
  below : ∀ {here name stored}, (name, stored) ∈ (s.side here).toList → stored.number < s.supply
  same : ∀ {here there name a b origin origin'}, (name, a) ∈ (s.side here).toList →
    (name, b) ∈ (s.side there).toList → Descends start past here name origin →
    Descends start past there name origin' → (a.number = b.number ↔ origin = origin')

namespace Tracked

variable {start : Pairs Value} {past : List Step} {s : SharedParameters}

/-- A name has one stored value. -/
theorem stored_unique {p : Parameters Stored} {name : String} {a b : Stored}
    (ha : (name, a) ∈ p.toList) (hb : (name, b) ∈ p.toList) : a = b := by
  rw [← Parameters.get?_eq_some_iff] at ha hb
  exact Option.some.inj (ha.symm.trans hb)

/-- At first everything stems from the start. -/
theorem initially (start : Pairs Value) : Tracked start [] (ofList start) where
  values here := by
    rw [side_ofList, values_eq_map, Parameters.toList_ofList, ← Pairs.ofList_map, map_number,
      content_nil]
  below mem := by
    rw [side_ofList, Parameters.toList_ofList] at mem
    have high := (mem_number (Pairs.mem_of_mem_ofList mem)).2
    rwa [Nat.zero_add] at high
  same ha hb descends descends' := by
    cases descends
    cases descends'
    rw [side_ofList] at ha hb
    rw [stored_unique ha hb]
    simp

/-- What a side holds after a change to a side is fresh, in number and in position, or stood there
before with the same origin. -/
theorem entry_of_edit (h : Tracked start past s) {here there : Side} {change : Edit Value}
    {name : String} {a : Stored} {origin : Origin}
    (ha : (name, a) ∈ ((s.step (.edit here change)).2.side there).toList)
    (descends : Descends start (.edit here change :: past) there name origin) :
    there = here ∧ origin = .step past.length ∧ s.supply ≤ a.number ∧
        a.number < s.supply + change.values.length ∨
      (name, a) ∈ (s.side there).toList ∧ Descends start past there name origin := by
  have entries : there = here → ((s.step (.edit here change)).2.side there).toList =
      (Pairs.edit (s.side there).toList (change.numbered s.supply)).2 := by
    rintro rfl
    rw [side_step_edit, ← Parameters.toList_edit]
  have stores_iff : there = here → ((change.numbered s.supply).Stores (s.side there).toList name ↔
      change.Stores (content start past here) name) := by
    rintro rfl
    rw [← Edit.stores_map Stored.value, Edit.map_numbered, ← values_eq_map, h.values]
  rcases descends.of_edit with ⟨same, stores, rfl⟩ | ⟨unstored, before⟩
  · rw [entries same] at ha
    rcases Pairs.mem_edit ha with ⟨-, carried⟩ | ⟨unstored, -⟩
    · exact .inl ⟨same, rfl, Edit.mem_values_numbered carried⟩
    · exact absurd ((stores_iff same).2 stores) unstored
  · refine .inr ⟨?_, before⟩
    by_cases same : there = here
    · rw [entries same] at ha
      rcases Pairs.mem_edit ha with ⟨stores, -⟩ | ⟨-, old⟩
      · exact absurd ((stores_iff same).1 stores) (unstored same)
      · exact old
    · rwa [side_step_edit_of_ne s change here same] at ha

/-- After a change both sides hold what they should. -/
theorem values_edit (h : Tracked start past s) (here : Side) (change : Edit Value) (there : Side) :
    SharedParameters.values ((s.step (.edit here change)).2.side there) =
      content start (.edit here change :: past) there := by
  by_cases same : there = here
  · subst same
    have view := congrArg Prod.snd
      (Parameters.toList_edit (s.side there) (change.numbered s.supply))
    have mapped := Pairs.edit_map Stored.value (s.side there).toList (change.numbered s.supply)
    rw [Edit.map_numbered, ← values_eq_map, h.values] at mapped
    dsimp only at view
    rw [side_step_edit, values_eq_map, view, content_edit, mapped]
  · rw [side_step_edit_of_ne s change here same, content_edit_of_ne same, h.values]

/-- What is held under some name descends from some act. -/
theorem exists_descends {p : Parameters Stored} {here : Side} {name : String} {a : Stored}
    (view : SharedParameters.values p = content start past here) (mem : (name, a) ∈ p.toList) :
    ∃ origin, Descends start past here name origin := by
  rw [exists_descends_iff, ← view, values_eq_map, Pairs.names_map]
  exact Pairs.mem_names_of_mem mem

/-- An entry that descends from somewhere is stored. -/
theorem exists_stored (h : Tracked start past s) {here : Side} {name : String} {origin : Origin}
    (descends : Descends start past here name origin) :
    ∃ a, (name, a) ∈ (s.side here).toList := by
  have bound := exists_descends_iff.1 ⟨origin, descends⟩
  rw [← h.values, values_eq_map, Pairs.names_map] at bound
  obtain ⟨⟨_, a⟩, mem, rfl⟩ := List.mem_map.1 bound
  exact ⟨a, mem⟩

/-- A change keeps track. -/
theorem edit (h : Tracked start past s) (here : Side) (change : Edit Value) :
    Tracked start (.edit here change :: past) (s.step (.edit here change)).2 where
  values := h.values_edit here change
  below {there name a} mem := by
    obtain ⟨origin, descends⟩ := exists_descends (h.values_edit here change there) mem
    rw [supply_step_edit]
    rcases h.entry_of_edit mem descends with ⟨-, -, -, high⟩ | ⟨before, -⟩
    · exact high
    · exact Nat.lt_add_right _ (h.below before)
  same {there there' name a b origin origin'} ha hb descends descends' := by
    rcases h.entry_of_edit ha descends with ⟨rfl, rfl, low, -⟩ | ⟨ha', before⟩
    · rcases h.entry_of_edit hb descends' with ⟨rfl, rfl, -, -⟩ | ⟨hb', before'⟩
      · rw [stored_unique ha hb]
        simp
      · have lower := h.below hb'
        refine iff_of_false (by omega) ?_
        rintro rfl
        exact absurd before'.position_lt (Nat.lt_irrefl _)
    · rcases h.entry_of_edit hb descends' with ⟨rfl, rfl, low, -⟩ | ⟨hb', before'⟩
      · have lower := h.below ha'
        refine iff_of_false (by omega) ?_
        rintro rfl
        exact absurd before.position_lt (Nat.lt_irrefl _)
      · exact h.same ha' hb' before before'

/-- A copy keeps track. -/
theorem clone (h : Tracked start past s) (source : Side) :
    Tracked start (.clone source :: past) (s.step (.clone source)).2 where
  values there := by rw [side_step_clone, h.values, content_clone]
  below mem := by
    rw [side_step_clone] at mem
    have supply : (s.step (.clone source)).2.supply = s.supply := by cases source <;> rfl
    rw [supply]
    exact h.below mem
  same ha hb descends descends' := by
    rw [side_step_clone] at ha hb
    cases descends with
    | cloned before =>
      cases descends' with
      | cloned before' => exact h.same ha hb before before'

theorem swap (h : Tracked start past s) : Tracked start (.swap :: past) (s.step .swap).2 where
  values there := by rw [side_step_swap, h.values, content_swap]
  below mem := by
    rw [side_step_swap] at mem
    exact h.below mem
  same ha hb descends descends' := by
    rw [side_step_swap] at ha hb
    cases descends with
    | swapped before =>
      cases descends' with
      | swapped before' => exact h.same ha hb before before'

/-- So every history is tracked. -/
theorem after (start : Pairs Value) (past : List Step) :
    Tracked start past ((SharedParameters.ofList start).after past) := by
  induction past with
  | nil => exact initially start
  | cons latest past ih =>
    cases latest with
    | edit here change => exact ih.edit here change
    | clone source => exact ih.clone source
    | swap => exact ih.swap

/-- What is held under a name descends from one act only. -/
theorem unique (h : Tracked start past s) {here : Side} {name : String} {origin origin' : Origin}
    (descends : Descends start past here name origin)
    (descends' : Descends start past here name origin') : origin = origin' := by
  obtain ⟨a, ha⟩ := h.exists_stored descends
  exact (h.same ha ha descends descends').1 rfl

/-- Both sides hold the same stored value under a name exactly if both have it from one act. -/
theorem shares?_eq_true_iff (h : Tracked start past s) (name : String) :
    s.shares? name = some true ↔ ∃ origin,
      Descends start past .current name origin ∧ Descends start past .copy name origin := by
  constructor
  · intro shared
    unfold shares? at shared
    split at shared
    · next a b ha hb =>
      rw [Parameters.get?_eq_some_iff] at ha hb
      obtain ⟨origin, descends⟩ := exists_descends (h.values .current) ha
      obtain ⟨origin', descends'⟩ := exists_descends (h.values .copy) hb
      have number : a.number = b.number := by simpa using shared
      obtain rfl := (h.same ha hb descends descends').1 number
      exact ⟨origin, descends, descends'⟩
    · cases shared
  · rintro ⟨origin, descends, descends'⟩
    obtain ⟨a, ha⟩ := h.exists_stored descends
    obtain ⟨b, hb⟩ := h.exists_stored descends'
    have number := (h.same ha hb descends descends').2 rfl
    rw [← Parameters.get?_eq_some_iff] at ha hb
    simp only [side] at ha hb
    simp [shares?, ha, hb, number]

end Tracked

/-- Copies are isolated, and share exactly what neither side has stored anew. From a collection and
its copy, after any history of changes to either side, clones and exchanges:

* each side holds the names and values of the plain list that its own changes make of it, and
  answers every further change as that list does, which leaves the other side as it is;
* a name is bound on a side exactly if it descends from an act of storing, and from one only;
* both sides hold the same stored value under a name exactly if both descend from one act;
* so after a change to a side, whatever values it carries, nothing that it has stored is shared. -/
theorem after_isolated (start : Pairs Value) (past : List Step) :
    let s := (ofList start).after past
    (∀ here, values (s.side here) = content start past here) ∧
    (∀ here change, (s.step (.edit here change)).1 =
      (Pairs.edit (content start past here) change).1) ∧
    (∀ here change, (s.step (.edit here change)).2.side here.other = s.side here.other) ∧
    (∀ here name, (s.side here).contains name = true ↔
      ∃ origin, ∀ other, Descends start past here name other ↔ other = origin) ∧
    (∀ name, (s.shares? name).isSome = true ↔
      s.current.contains name = true ∧ s.copy.contains name = true) ∧
    (∀ name, s.shares? name = some true ↔
      ∃ origin, Descends start past .current name origin ∧ Descends start past .copy name origin) ∧
    ∀ here change name, change.Stores (content start past here) name →
      (s.step (.edit here change)).2.shares? name ≠ some true := by
  intro s
  have tracked : Tracked start past s := .after start past
  refine ⟨tracked.values, fun here change => ?_, fun here change => ?_, fun here name => ?_,
    fun name => ?_, tracked.shares?_eq_true_iff, fun here change name stores shared => ?_⟩
  · have answer := congrArg Prod.fst
      (Parameters.toList_edit (s.side here) (change.numbered s.supply))
    have mapped := Pairs.edit_map Stored.value (s.side here).toList (change.numbered s.supply)
    rw [Edit.map_numbered, ← values_eq_map, tracked.values] at mapped
    dsimp only at answer
    rw [step_edit_fst, answer, mapped]
  · apply side_step_edit_of_ne
    cases here <;> exact nofun
  · rw [Parameters.contains_iff, ← Parameters.names_toList, ← Pairs.names_map Stored.value,
      ← values_eq_map, tracked.values, ← exists_descends_iff]
    constructor
    · rintro ⟨origin, descends⟩
      refine ⟨origin, fun other => ⟨fun descends' => ?_, fun same => same ▸ descends⟩⟩
      exact tracked.unique descends' descends
    · rintro ⟨origin, only⟩
      exact ⟨origin, (only origin).2 rfl⟩
  · have bound (p : Parameters Stored) : p.contains name = (p.get? name).isSome := by
      rw [p.shows_toList.contains, p.get?_eq_lookup]
    rw [bound, bound, shares?]
    cases s.current.get? name <;> cases s.copy.get? name <;> simp
  · have tracked' : Tracked start (.edit here change :: past) (s.step (.edit here change)).2 :=
      tracked.edit here change
    obtain ⟨origin, descends, descends'⟩ := (tracked'.shares?_eq_true_iff name).1 shared
    cases here with
    | current =>
      have apart : Side.copy ≠ .current := nofun
      exact descends.not_of_stores stores apart descends'
    | copy =>
      have apart : Side.current ≠ .copy := nofun
      exact descends'.not_of_stores stores apart descends

end SharedParameters

end BoundSql
