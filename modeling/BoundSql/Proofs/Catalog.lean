import BoundSql.Catalog.Request
import BoundSql.Catalog.Samples
import BoundSql.Proofs.Building

/-!
# Runs of a catalogue

A run is the lookups that its requests lead to, one after the other (`Catalog.visits`): a request
for all registered types looks them up to the first that fails. What a lookup answers is a function
of what the description of its type answers, and of the number of earlier lookups of this type
(`answerAfter`). In particular no other type has a part in it.

The invariant is `Catalog.Records`: the catalogue keeps the first success of each type among the
calls that its lookups have led to, and there was one call for each lookup up to this success. One
lookup preserves it, and a run by induction.

Entities whose descriptions never fail can be loaded at any time (`Catalog.preload_of_resolves`),
and those of drafts are the ones with sound columns (`Entity.resolves_ofDraft_iff`). The sample
catalogue is of this kind.
-/

namespace BoundSql

/-! ## What a description has answered -/

section Answers

variable (answers : Nat → Except StatementError Table)

/-- The table of the first success among the first calls. -/
def firstSuccess? (calls : Nat) : Option Table :=
  (List.range calls).findSome? fun i => (answers i).toOption

/-- How many of a number of lookups call the description: those before which there was no
success. -/
def callsAmong (lookups : Nat) : Nat :=
  (List.range lookups).countP fun i => (firstSuccess? answers i).isNone

/-- What a lookup answers after a number of others: the first success, if there was one, and the
next answer of the description, if there was none. -/
def answerAfter (lookups : Nat) : Except StatementError Table :=
  match firstSuccess? answers lookups with
  | some table => .ok table
  | none => answers lookups

theorem firstSuccess?_succ (n : Nat) :
    firstSuccess? answers (n + 1) = (firstSuccess? answers n).or (answers n).toOption := by
  rw [firstSuccess?, List.range_succ, List.findSome?_append, List.findSome?_singleton,
    firstSuccess?]

theorem callsAmong_succ (n : Nat) : callsAmong answers (n + 1) =
    callsAmong answers n + if (firstSuccess? answers n).isNone then 1 else 0 := by
  rw [callsAmong, List.range_succ, List.countP_append, List.countP_singleton, callsAmong]

variable {answers}

/-- Without a success there was a call at each lookup. -/
theorem callsAmong_of_none {n : Nat} (none : firstSuccess? answers n = none) :
    callsAmong answers n = n := by
  induction n with
  | zero => rfl
  | succ n ih =>
    rw [firstSuccess?_succ, Option.or_eq_none_iff] at none
    rw [callsAmong_succ, ih none.1, none.1]
    rfl

theorem firstSuccess?_succ_eq_toOption (n : Nat) :
    firstSuccess? answers (n + 1) = (answerAfter answers n).toOption := by
  rw [firstSuccess?_succ, answerAfter]
  cases firstSuccess? answers n <;> rfl

/-- The table that a lookup answers is the first success for all lookups behind it. -/
theorem firstSuccess?_of_lt {n k : Nat} {table : Table} (ok : answerAfter answers n = .ok table)
    (behind : n < k) : firstSuccess? answers k = some table := by
  induction behind with
  | refl => rw [firstSuccess?_succ_eq_toOption, ok]; rfl
  | step _ ih => rw [firstSuccess?_succ, ih, Option.some_or]

theorem answerAfter_succ {n : Nat} {table : Table} (ok : answerAfter answers n = .ok table) :
    answerAfter answers (n + 1) = .ok table := by
  rw [answerAfter, firstSuccess?_of_lt ok n.lt_succ_self]

end Answers

namespace Catalog

variable {d : Descriptions} {c : Catalog} {n m : TypeId}

/-! ## Slots -/

/-- A slot is found by its type. -/
theorem exists_of_slot? {i : Nat} (found : c.slot? n = some i) :
    ∃ slot, c.slots[i]? = some slot ∧ slot.id = n := by
  obtain ⟨inside, own, -⟩ := List.findIdx?_eq_some_iff_getElem.1 found
  exact ⟨c.slots[i], List.getElem?_eq_getElem inside, by simpa using own⟩

/-- Laying out a slot finds it, if it is there, and else puts it behind all others. -/
theorem slot_cases (c : Catalog) (n : TypeId) :
    (∃ i, c.slot? n = some i ∧ c.slot n = (i, c)) ∨
    c.slot? n = none ∧
      c.slot n = (c.slots.length, { c with slots := c.slots ++ [{ id := n }] }) := by
  unfold slot
  cases found : c.slot? n with
  | some i => exact .inl ⟨i, rfl, rfl⟩
  | none => exact .inr ⟨rfl, rfl⟩

theorem asked_slot (c : Catalog) (n : TypeId) : (c.slot n).2.asked = c.asked := by
  obtain ⟨_, _, eq⟩ | ⟨_, eq⟩ := c.slot_cases n <;> rw [eq]

theorem slot?_append (c : Catalog) (n m : TypeId) :
    slot? { c with slots := c.slots ++ [{ id := n }] } m =
      (c.slot? m).or (if n = m then some c.slots.length else none) := by
  unfold slot?
  rw [List.findIdx?_append, List.findIdx?_singleton]
  by_cases same : n = m <;> simp [same]

theorem slot?_slot (c : Catalog) (n : TypeId) : (c.slot n).2.slot? n = some (c.slot n).1 := by
  obtain ⟨_, found, eq⟩ | ⟨missing, eq⟩ := c.slot_cases n
  · rw [eq, found]
  · rw [eq, slot?_append, missing, if_pos rfl, Option.none_or]

/-- A slot that is laid out keeps nothing yet, and the others keep what they did. -/
theorem kept?_slot (c : Catalog) (n m : TypeId) : (c.slot n).2.kept? m = c.kept? m := by
  obtain ⟨_, _, eq⟩ | ⟨_, eq⟩ := c.slot_cases n
  · rw [eq]
  · rw [eq, kept?, kept?, slot?_append]
    cases found : c.slot? m with
    | some i =>
      obtain ⟨slot, here, -⟩ := exists_of_slot? found
      have inside := (List.getElem?_eq_some_iff.1 here).1
      rw [Option.some_or, Option.bind_some, Option.bind_some, keptAt?, keptAt?,
        List.getElem?_append_left inside]
    | none =>
      rw [Option.none_or, Option.bind_none]
      split
      · simp [keptAt?]
      · rfl

/-- To keep a table moves no slot. -/
theorem slot?_keep {i : Nat} (found : c.slot? n = some i) (table : Table) (m : TypeId) :
    (c.keep i n table).slot? m = c.slot? m := by
  have ids : (c.slots.set i ⟨n, some table⟩).map Slot.id = c.slots.map Slot.id := by
    obtain ⟨slot, here, own⟩ := exists_of_slot? found
    apply List.ext_getElem?
    intro j
    rw [List.getElem?_map, List.getElem?_map, List.getElem?_set]
    split
    · next same =>
      subst same
      rw [if_pos (List.getElem?_eq_some_iff.1 here).1, here, Option.map_some, Option.map_some, own]
    · rfl
  have through (slots : List Slot) : slots.findIdx? (fun slot => slot.id == m) =
      (slots.map Slot.id).findIdx? (· == m) := by
    rw [List.findIdx?_map]
    rfl
  unfold slot? keep
  rw [through, ids, ← through]

/-- A table is kept for the type whose slot it is put in, and for no other. -/
theorem kept?_keep {i : Nat} (found : c.slot? n = some i) (table : Table) (m : TypeId) :
    (c.keep i n table).kept? m = if n = m then some ⟨i, table⟩ else c.kept? m := by
  obtain ⟨slot, here, own⟩ := exists_of_slot? found
  have inside := (List.getElem?_eq_some_iff.1 here).1
  rw [kept?, slot?_keep found]
  split
  · next same =>
    subst same
    rw [found, Option.bind_some, keptAt?, keep, List.getElem?_set_self inside]
    rfl
  · next other =>
    rw [kept?]
    cases there : c.slot? m with
    | none => rfl
    | some j =>
      obtain ⟨slot', here', own'⟩ := exists_of_slot? there
      have apart : i ≠ j := by
        rintro rfl
        rw [here] at here'
        cases here'
        exact other (own.symm.trans own')
      rw [Option.bind_some, Option.bind_some, keptAt?, keptAt?, keep,
        List.getElem?_set_ne apart]

/-! ## One lookup -/

/-- The catalogue while it asks for the description of a type. -/
def calling (c : Catalog) (n : TypeId) : Catalog :=
  { (c.slot n).2 with asked := c.asked ++ [n] }

theorem kept?_calling (c : Catalog) (n m : TypeId) : (c.calling n).kept? m = c.kept? m :=
  c.kept?_slot n m

theorem kept?_calling_keep (c : Catalog) (n : TypeId) (table : Table) (m : TypeId) :
    ((c.calling n).keep (c.slot n).1 n table).kept? m =
      if n = m then some ⟨(c.slot n).1, table⟩ else c.kept? m := by
  have found : (c.calling n).slot? n = some (c.slot n).1 := c.slot?_slot n
  rw [kept?_keep found, kept?_calling]

/-- What a lookup can do: answer what is kept, or call the description once and keep its table, or
nothing. -/
theorem lookup_cases (c : Catalog) (e : Entity) :
    (∃ kept, c.kept? e.id = some kept ∧ c.lookup e = (.ok kept, c)) ∨
    c.kept? e.id = none ∧
      ((∃ table, e.describe (c.asked.count e.id) = .ok table ∧
        c.lookup e = (.ok ⟨(c.slot e.id).1, table⟩,
          (c.calling e.id).keep (c.slot e.id).1 e.id table)) ∨
      ∃ reason, e.describe (c.asked.count e.id) = .error reason ∧
        c.lookup e = (.error reason, c.calling e.id)) := by
  have here : (c.slot e.id).2.keptAt? (c.slot e.id).1 = c.kept? e.id := by
    rw [← c.kept?_slot e.id, kept?, c.slot?_slot e.id, Option.bind_some]
  unfold lookup
  dsimp only
  rw [here]
  cases found : c.kept? e.id with
  | some kept =>
    refine .inl ⟨kept, rfl, ?_⟩
    -- what keeps a table has a slot, so that none is laid out
    obtain ⟨i, present, -⟩ := Option.bind_eq_some_iff.1 found
    dsimp only
    rw [slot, present]
  | none =>
    refine .inr ⟨rfl, ?_⟩
    dsimp only
    rw [c.asked_slot e.id]
    cases e.describe (c.asked.count e.id) with
    | ok table => exact .inl ⟨table, rfl, rfl⟩
    | error reason => exact .inr ⟨reason, rfl, rfl⟩

theorem lookup_of_kept {e : Entity} {kept : Kept} (found : c.kept? e.id = some kept) :
    c.lookup e = (.ok kept, c) := by
  obtain ⟨_, found', eq⟩ | ⟨missing, -⟩ := c.lookup_cases e
  · rw [found] at found'
    cases found'
    exact eq
  · rw [found] at missing
    cases missing

/-- What is kept for a type after a lookup of it is what the lookup has answered. -/
theorem kept?_lookup_self (c : Catalog) (e : Entity) :
    (c.lookup e).2.kept? e.id = (c.lookup e).1.toOption := by
  obtain ⟨_, found, eq⟩ | ⟨missing, ⟨table, _, eq⟩ | ⟨_, _, eq⟩⟩ := c.lookup_cases e
  · rw [eq]
    exact found
  · rw [eq]
    dsimp only
    rw [kept?_calling_keep, if_pos rfl]
    rfl
  · rw [eq]
    exact (c.kept?_calling e.id e.id).trans missing

theorem kept?_lookup_of_ne {e : Entity} (other : e.id ≠ m) :
    (c.lookup e).2.kept? m = c.kept? m := by
  obtain ⟨_, _, eq⟩ | ⟨_, ⟨table, _, eq⟩ | ⟨_, _, eq⟩⟩ := c.lookup_cases e
  · rw [eq]
  · rw [eq]
    dsimp only
    rw [kept?_calling_keep, if_neg other]
  · rw [eq]
    exact c.kept?_calling e.id m

/-! ## What is kept stays kept -/

theorem kept?_lookup {kept : Kept} (found : c.kept? m = some kept) (e : Entity) :
    (c.lookup e).2.kept? m = some kept := by
  by_cases own : e.id = m
  · rw [lookup_of_kept (own ▸ found), found]
  · rw [kept?_lookup_of_ne own, found]

theorem preload_cons_ok {e : Entity} {kept : Kept} (answer : (c.lookup e).1 = .ok kept)
    (rest : List Entity) : c.preload (e :: rest) =
      (((c.lookup e).2.preload rest).1.map (· + 1), ((c.lookup e).2.preload rest).2) := by
  rw [preload]
  generalize c.lookup e = looked at answer
  obtain ⟨_, c'⟩ := looked
  cases answer
  dsimp only
  obtain ⟨outcome, _⟩ := c'.preload rest
  cases outcome <;> rfl

theorem preload_cons_error {e : Entity} {reason : StatementError}
    (answer : (c.lookup e).1 = .error reason) (rest : List Entity) :
    c.preload (e :: rest) = (.error reason, (c.lookup e).2) := by
  rw [preload]
  generalize c.lookup e = looked at answer
  obtain ⟨_, c'⟩ := looked
  cases answer
  rfl

theorem kept?_preload {kept : Kept} (found : c.kept? m = some kept) (entities : List Entity) :
    (c.preload entities).2.kept? m = some kept := by
  induction entities generalizing c with
  | nil => exact found
  | cons e rest ih =>
    cases answer : (c.lookup e).1 with
    | ok => rw [preload_cons_ok answer]; exact ih (kept?_lookup found e)
    | error => rw [preload_cons_error answer]; exact kept?_lookup found e

theorem kept?_serveAll {kept : Kept} (found : c.kept? m = some kept) (requests : List Request) :
    (serveAll d c requests).kept? m = some kept := by
  induction requests generalizing c with
  | nil => exact found
  | cons request rest ih =>
    refine ih ?_
    cases request with
    | lookup n => exact kept?_lookup found _
    | preload names => exact kept?_preload found _

/-! ## What a catalogue records -/

theorem count_append_self (looked : List TypeId) (n : TypeId) :
    (looked ++ [n]).count n = looked.count n + 1 := by
  rw [List.count_append, List.count_singleton_self]

theorem count_append_of_ne {looked : List TypeId} (other : n ≠ m) :
    (looked ++ [n]).count m = looked.count m := by
  rw [List.count_append, List.count_cons_of_ne other, List.count_nil, Nat.add_zero]

/-- The catalogue after some lookups, in terms of what the descriptions answer: of each type it
keeps the first success, and the calls are those up to this success. -/
structure Records (d : Descriptions) (looked : List TypeId) (c : Catalog) : Prop where
  asked : ∀ n, c.asked.count n = callsAmong (d.answer n) (looked.count n)
  kept : ∀ n, (c.kept? n).map Kept.table = firstSuccess? (d.answer n) (looked.count n)

namespace Records

variable {looked : List TypeId}

theorem empty (d : Descriptions) : Records d [] {} :=
  ⟨fun _ => rfl, fun _ => rfl⟩

/-- What a lookup does, in terms of what the description of its type answers. -/
theorem lookup_cases (records : Records d looked c) (n : TypeId) :
    (∃ kept, firstSuccess? (d.answer n) (looked.count n) = some kept.table ∧
      c.lookup (d.entity n) = (.ok kept, c)) ∨
    firstSuccess? (d.answer n) (looked.count n) = none ∧
      ((∃ table, d.answer n (looked.count n) = .ok table ∧ c.lookup (d.entity n) =
        (.ok ⟨(c.slot n).1, table⟩, (c.calling n).keep (c.slot n).1 n table)) ∨
      ∃ reason, d.answer n (looked.count n) = .error reason ∧
        c.lookup (d.entity n) = (.error reason, c.calling n)) := by
  have kept := records.kept n
  have cases := c.lookup_cases (d.entity n)
  dsimp only [Descriptions.entity] at cases
  obtain ⟨_, found, eq⟩ | ⟨missing, described⟩ := cases
  · rw [found] at kept
    exact .inl ⟨_, kept.symm, eq⟩
  · rw [missing] at kept
    rw [records.asked n, callsAmong_of_none kept.symm] at described
    exact .inr ⟨kept.symm, described⟩

/-- A lookup calls the description where none of its calls has succeeded. -/
theorem asked_lookup (records : Records d looked c) (n : TypeId) :
    (c.lookup (d.entity n)).2.asked =
      c.asked ++ if (firstSuccess? (d.answer n) (looked.count n)).isNone then [n] else [] := by
  obtain ⟨_, success, eq⟩ | ⟨none, ⟨_, _, eq⟩ | ⟨_, _, eq⟩⟩ := records.lookup_cases n
  · rw [eq, success]
    exact (List.append_nil _).symm
  · rw [eq, none]
    rfl
  · rw [eq, none]
    rfl

theorem answer_lookup (records : Records d looked c) (n : TypeId) :
    (c.lookup (d.entity n)).1.map Kept.table = answerAfter (d.answer n) (looked.count n) := by
  unfold answerAfter
  obtain ⟨_, success, eq⟩ | ⟨none, ⟨_, described, eq⟩ | ⟨_, described, eq⟩⟩ :=
    records.lookup_cases n
  · rw [eq, success]
    rfl
  · rw [eq, none, described]
    rfl
  · rw [eq, none, described]
    rfl

/-- One lookup keeps the record. -/
theorem lookup (records : Records d looked c) (n : TypeId) :
    Records d (looked ++ [n]) (c.lookup (d.entity n)).2 where
  asked m := by
    rw [records.asked_lookup n, List.count_append, records.asked m]
    by_cases own : n = m
    · subst own
      rw [count_append_self, callsAmong_succ]
      split
      · rw [List.count_singleton_self]
      · rw [List.count_nil]
    · rw [count_append_of_ne own]
      split
      · rw [List.count_cons_of_ne own, List.count_nil, Nat.add_zero]
      · rw [List.count_nil, Nat.add_zero]
  kept m := by
    by_cases own : n = m
    · subst own
      have kept := kept?_lookup_self c (d.entity n)
      dsimp only [Descriptions.entity] at kept
      rw [count_append_self, firstSuccess?_succ_eq_toOption, ← records.answer_lookup n]
      dsimp only [Descriptions.entity]
      rw [kept]
      cases (c.lookup ⟨n, d.called n, d.answer n⟩).1 <;> rfl
    · rw [count_append_of_ne own, kept?_lookup_of_ne own, records.kept m]

end Records

/-! ## Looking up all registered types -/

/-- The catalogue after some lookups. -/
def lookUps (d : Descriptions) (c : Catalog) (names : List TypeId) : Catalog :=
  names.foldl (fun c n => (c.lookup (d.entity n)).2) c

theorem lookUps_append (d : Descriptions) (c : Catalog) (names names' : List TypeId) :
    lookUps d c (names ++ names') = lookUps d (lookUps d c names) names' :=
  List.foldl_append

theorem Records.lookUps {looked : List TypeId} (records : Records d looked c)
    (names : List TypeId) : Records d (looked ++ names) (lookUps d c names) := by
  induction names generalizing looked c with
  | nil => rwa [List.append_nil]
  | cons n rest ih =>
    rw [List.append_cons]
    exact ih (records.lookup n)

/-- The error of a type's next lookup, if it fails. -/
def fault? (d : Descriptions) (looked : List TypeId) (n : TypeId) : Option StatementError :=
  match answerAfter (d.answer n) (looked.count n) with
  | .ok _ => none
  | .error reason => some reason

/-- The types that are looked up when all of a list are wanted: those in front of the first that
fails, and this one. -/
def reached (d : Descriptions) (looked names : List TypeId) : List TypeId :=
  names.takeWhile (fun n => (fault? d looked n).isNone) ++
    (names.dropWhile fun n => (fault? d looked n).isNone).take 1

variable {looked : List TypeId}

theorem fault?_eq_some_iff {reason : StatementError} : fault? d looked n = some reason ↔
    answerAfter (d.answer n) (looked.count n) = .error reason := by
  unfold fault?
  cases answerAfter (d.answer n) (looked.count n) <;> simp

theorem fault?_eq_none_iff : fault? d looked n = none ↔
    ∃ table, answerAfter (d.answer n) (looked.count n) = .ok table := by
  unfold fault?
  cases answerAfter (d.answer n) (looked.count n) <;> simp

/-- A lookup that does not fail changes no type's next answer. -/
theorem fault?_append (resolved : fault? d looked n = none) :
    fault? d (looked ++ [n]) = fault? d looked := by
  funext m
  by_cases own : n = m
  · subst own
    obtain ⟨table, ok⟩ := fault?_eq_none_iff.1 resolved
    rw [resolved, fault?_eq_none_iff, count_append_self]
    exact ⟨table, answerAfter_succ ok⟩
  · rw [fault?, count_append_of_ne own, fault?]

theorem reached_cons_none (resolved : fault? d looked n = none) (rest : List TypeId) :
    reached d looked (n :: rest) = n :: reached d (looked ++ [n]) rest := by
  simp [reached, resolved, fault?_append resolved]

theorem reached_cons_some {reason : StatementError} (fault : fault? d looked n = some reason)
    (rest : List TypeId) : reached d looked (n :: rest) = [n] := by
  simp [reached, fault]

/-- All types of a list are looked up one by one up to the first that fails, whose error is
answered. -/
theorem Records.preload_eq (records : Records d looked c) (names : List TypeId) :
    c.preload (names.map d.entity) =
      (match names.findSome? (fault? d looked) with
        | none => .ok names.length
        | some reason => .error reason,
      Catalog.lookUps d c (reached d looked names)) := by
  induction names generalizing looked c with
  | nil => rfl
  | cons n rest ih =>
    have answer := records.answer_lookup n
    cases outcome : (c.lookup (d.entity n)).1 with
    | ok kept =>
      rw [outcome] at answer
      have resolved : fault? d looked n = none := fault?_eq_none_iff.2 ⟨_, answer.symm⟩
      rw [List.map_cons, preload_cons_ok outcome, ih (records.lookup n), fault?_append resolved,
        reached_cons_none resolved, List.findSome?_cons, resolved]
      dsimp only
      refine Prod.ext ?_ rfl
      cases rest.findSome? (fault? d looked) <;> rfl
    | error reason =>
      rw [outcome] at answer
      have fault : fault? d looked n = some reason := fault?_eq_some_iff.2 answer.symm
      rw [List.map_cons, preload_cons_error outcome, reached_cons_some fault, List.findSome?_cons,
        fault]
      rfl

/-! ## Runs -/

/-- The types that a request looks up, after the lookups so far. -/
def visited (d : Descriptions) (looked : List TypeId) : Request → List TypeId
  | .lookup n => [n]
  | .preload names => reached d looked names

/-- All lookups that the requests of a run lead to. -/
def visits (d : Descriptions) (requests : List Request) : List TypeId :=
  requests.foldl (fun looked request => looked ++ visited d looked request) []

theorem Records.serve_eq (records : Records d looked c) (request : Request) :
    serve d c request = Catalog.lookUps d c (visited d looked request) := by
  cases request with
  | lookup n => rfl
  | preload names => exact congrArg Prod.snd (records.preload_eq names)

/-- A run is the lookups that its requests lead to. -/
theorem serveAll_lookUps (d : Descriptions) (looked : List TypeId) (requests : List Request) :
    serveAll d (lookUps d {} looked) requests = lookUps d {}
      (requests.foldl (fun looked request => looked ++ visited d looked request) looked) := by
  induction requests generalizing looked with
  | nil => rfl
  | cons request rest ih =>
    have served := ((Records.empty d).lookUps looked).serve_eq request
    rw [List.nil_append] at served
    rw [List.foldl_cons, ← ih, lookUps_append, ← served]
    rfl

/-- What the catalogue does at a lookup of a type, after other lookups. -/
structure LooksUp (d : Descriptions) (looked : List TypeId) (c : Catalog) (n : TypeId) : Prop where
  /-- The description is called once, and after its first success not at all. No other type's is
  called. -/
  asked : (c.lookup (d.entity n)).2.asked =
    c.asked ++ if (firstSuccess? (d.answer n) (looked.count n)).isNone then [n] else []
  /-- The answer is the table of the first success; before, it is what this call answers. -/
  answer : (c.lookup (d.entity n)).1.map Kept.table = answerAfter (d.answer n) (looked.count n)
  /-- Nothing is kept of a failure: the type has an empty slot after it, and all other slots are as
  they were. -/
  failed : ∀ reason, (c.lookup (d.entity n)).1 = .error reason →
    (c.lookup (d.entity n)).2.slots = (c.slot n).2.slots ∧
      ∀ m, (c.lookup (d.entity n)).2.kept? m = c.kept? m
  /-- The stored table that was answered once is answered ever after, whatever is asked meanwhile,
  and answering it changes nothing. -/
  same : ∀ kept, (c.lookup (d.entity n)).1 = .ok kept → ∀ requests,
    (serveAll d (c.lookup (d.entity n)).2 requests).lookup (d.entity n) =
      (.ok kept, serveAll d (c.lookup (d.entity n)).2 requests)
  /-- A lookup of another type does not change the answer. -/
  others : ∀ m, m ≠ n → ((c.lookup (d.entity m)).2.lookup (d.entity n)).1.map Kept.table =
    (c.lookup (d.entity n)).1.map Kept.table

theorem Records.looksUp (records : Records d looked c) (n : TypeId) : LooksUp d looked c n where
  asked := records.asked_lookup n
  answer := records.answer_lookup n
  failed reason failure := by
    obtain ⟨_, _, eq⟩ | ⟨_, ⟨_, _, eq⟩ | ⟨_, _, eq⟩⟩ := records.lookup_cases n
    · rw [eq] at failure
      cases failure
    · rw [eq] at failure
      cases failure
    · rw [eq]
      exact ⟨rfl, c.kept?_calling n⟩
  same kept answer requests := by
    have found := kept?_lookup_self c (d.entity n)
    rw [answer] at found
    exact lookup_of_kept (kept?_serveAll found requests)
  others m other := by
    rw [(records.lookup m).answer_lookup n, count_append_of_ne other, records.answer_lookup n]

/-- What the catalogue does when all types of a list are wanted, after other lookups. -/
structure Preloads (d : Descriptions) (looked : List TypeId) (c : Catalog)
    (names : List TypeId) : Prop where
  /-- The answer is the number of types exactly if every one of them resolves. -/
  ok : ∀ k, (c.preload (names.map d.entity)).1 = .ok k ↔
    k = names.length ∧ ∀ n ∈ names, ∃ table, answerAfter (d.answer n) (looked.count n) = .ok table
  /-- Otherwise it is the error of the first one that fails. -/
  error : ∀ reason, (c.preload (names.map d.entity)).1 = .error reason ↔
    ∃ before n rest, names = before ++ n :: rest ∧
      (∀ m ∈ before, ∃ table, answerAfter (d.answer m) (looked.count m) = .ok table) ∧
      answerAfter (d.answer n) (looked.count n) = .error reason
  /-- The types up to this one are looked up, in their order. -/
  catalog : (c.preload (names.map d.entity)).2 = lookUps d c (reached d looked names)
  /-- Those before it stay kept. -/
  kept : ∀ n ∈ names.takeWhile fun n => (fault? d looked n).isNone,
    ∃ kept, (c.preload (names.map d.entity)).2.kept? n = some kept ∧
      answerAfter (d.answer n) (looked.count n) = .ok kept.table
  /-- Those after it are not described. -/
  later : ∀ n, n ∉ reached d looked names →
    (c.preload (names.map d.entity)).2.asked.count n = c.asked.count n

theorem Records.preloads (records : Records d looked c) (names : List TypeId) :
    Preloads d looked c names where
  ok k := by
    simp only [← fault?_eq_none_iff, ← List.findSome?_eq_none_iff, records.preload_eq]
    cases names.findSome? (fault? d looked) <;> simp [eq_comm]
  error reason := by
    have first : (c.preload (names.map d.entity)).1 = .error reason ↔
        names.findSome? (fault? d looked) = some reason := by
      rw [records.preload_eq]
      cases names.findSome? (fault? d looked) <;> simp
    rw [first, List.findSome?_eq_some_iff]
    simp only [fault?_eq_none_iff, fault?_eq_some_iff]
    exact ⟨fun ⟨before, n, rest, eq, fault, resolved⟩ => ⟨before, n, rest, eq, resolved, fault⟩,
      fun ⟨before, n, rest, eq, resolved, fault⟩ => ⟨before, n, rest, eq, fault, resolved⟩⟩
  catalog := by rw [records.preload_eq]
  kept n mem := by
    have resolved : fault? d looked n = none :=
      Option.isNone_iff_eq_none.1 (List.all_eq_true.1 List.all_takeWhile n mem)
    obtain ⟨table, ok⟩ := fault?_eq_none_iff.1 resolved
    have among : 0 < (reached d looked names).count n :=
      List.count_pos_iff.2 (List.mem_append_left _ mem)
    have kept := (records.lookUps (reached d looked names)).kept n
    rw [firstSuccess?_of_lt ok (by rw [List.count_append]; omega), Option.map_eq_some_iff] at kept
    obtain ⟨kept, found, rfl⟩ := kept
    exact ⟨kept, by rw [records.preload_eq, found], ok⟩
  later n absent := by
    rw [records.preload_eq]
    dsimp only
    rw [(records.lookUps _).asked, List.count_append, List.count_eq_zero.2 absent, Nat.add_zero,
      records.asked]

/-- At every point of every run: the run so far is the lookups that its requests have led to, there
was one call of a description for each lookup of its type up to the first success, and the next
request is served as `LooksUp` and `Preloads` say. -/
theorem serveAll_serves (d : Descriptions) (history : List Request) :
    serveAll d {} history = lookUps d {} (visits d history) ∧
      (∀ n, (serveAll d {} history).asked.count n =
        callsAmong (d.answer n) ((visits d history).count n)) ∧
      (∀ n, LooksUp d (visits d history) (serveAll d {} history) n) ∧
      ∀ names, Preloads d (visits d history) (serveAll d {} history) names := by
  have run : serveAll d {} history = lookUps d {} (visits d history) :=
    serveAll_lookUps d [] history
  have records := (Records.empty d).lookUps (visits d history)
  rw [List.nil_append, ← run] at records
  exact ⟨run, records.asked, records.looksUp, records.preloads⟩

/-- A failure is not kept: the second lookup calls the description again, and the third does not. -/
example (reason : StatementError) (table : Table) :
    (serveAll ⟨fun _ => "A", fun _ calls => if calls = 0 then .error reason else .ok table⟩ {}
      [.lookup ⟨0⟩, .lookup ⟨0⟩, .lookup ⟨0⟩]).asked = [⟨0⟩, ⟨0⟩] :=
  rfl

end Catalog

/-! ## Descriptions that never fail -/

/-- The description succeeds whenever it is called. -/
def Entity.Resolves (e : Entity) : Prop :=
  ∀ calls, ∃ table, e.describe calls = .ok table

/-- Described by a draft, an entity resolves if nothing is wrong with the draft's columns. -/
theorem Entity.resolves_ofDraft_iff {id : TypeId} {typeName : String} {draft : TableDraft} :
    (Entity.ofDraft id typeName draft).Resolves ↔ ColumnDraft.Sound draft.columns :=
  (forall_const Nat).trans TableDraft.exists_build_iff

theorem Catalog.exists_lookup_of_resolves (c : Catalog) {e : Entity} (resolves : e.Resolves) :
    ∃ kept, (c.lookup e).1 = .ok kept := by
  obtain ⟨kept, -, eq⟩ | ⟨-, ⟨_, -, eq⟩ | ⟨reason, described, -⟩⟩ := c.lookup_cases e
  · exact ⟨kept, by rw [eq]⟩
  · exact ⟨_, by rw [eq]⟩
  · obtain ⟨table, ok⟩ := resolves (c.asked.count e.id)
    rw [described] at ok
    cases ok

/-- Whatever a catalogue keeps already, it can load all entities that resolve. -/
theorem Catalog.preload_of_resolves (c : Catalog) {entities : List Entity}
    (resolves : ∀ e ∈ entities, e.Resolves) :
    (c.preload entities).1 = .ok entities.length := by
  induction entities generalizing c with
  | nil => rfl
  | cons e rest ih =>
    rw [List.forall_mem_cons] at resolves
    obtain ⟨kept, found⟩ := c.exists_lookup_of_resolves resolves.1
    rw [preload_cons_ok found, ih _ resolves.2]
    rfl

namespace Samples

theorem resolves_of_mem_registered : ∀ e ∈ registered, e.Resolves := by
  simp only [registered, List.forall_mem_cons, Entity.resolves_ofDraft_iff, List.not_mem_nil,
    false_imp_iff, implies_true]
  decide

/-- The sample catalogue loads, at any time. -/
theorem preload_registered (c : Catalog) :
    (c.preload registered).1 = .ok registered.length :=
  c.preload_of_resolves resolves_of_mem_registered

/-- Of the samples only the one with a repeated member cannot be described. -/
theorem resolves_iff_of_entity? {name : String} {e : Entity} (found : entity? name = some e) :
    e.Resolves ↔ name ≠ "Broken" := by
  have named : e.typeName = name := by simpa using List.find?_some found
  subst named
  have others : ∀ e ∈ registered, e.typeName ≠ "Broken" := by simp [registered, Entity.ofDraft]
  rcases List.mem_append.1 (List.mem_of_find?_eq_some found) with mem | mem
  · exact iff_of_true (resolves_of_mem_registered e mem) (others e mem)
  · obtain rfl := List.mem_singleton.1 mem
    rw [Entity.resolves_ofDraft_iff]
    decide

end Samples

end BoundSql
