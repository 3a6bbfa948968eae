import BoundSql.Proofs.FirstFailure

/-!
# Which producers are asked

A producer may do more than answer, so it matters which producers a condition asks, in which order,
and how often. `Predicate.compile_calls` says so exactly: one call for each leaf that compares a
mapped column with what a producer yields (`Predicate.asked?`), from left to right, up to the first
leaf that fails, that one included. A leaf with a fault of its form or its member asks nothing.

A producer answers as it does behind the calls of the leaves before its own. So one that counts its
calls gives its first value to the first operand that asks it, the second to the next, and so on.

The proof first finds where writing stops (`Predicate.compile_stops`): it fails in one leaf, behind
leaves that have passed, or not at all. The calls of those leaves and of the leaf itself are then
counted apart.
-/

namespace BoundSql

open Writing (numbered)

namespace Predicate

/-! ## The call of a leaf -/

/-- The producer that an operand takes its value from: its own, or that of the list which it takes
an element of. -/
def producer? : Predicate → Option Producer
  | .computed producer => some producer
  | .element source _ => source.producer?
  | _ => none

/-- The producer that a leaf asks: the one of the operand that it compares with a mapped column. -/
def asked? (t : Table) : Predicate → Option Producer
  | .comparison op left right =>
    match columnSide? op left right with
    | some (_, member, operand) =>
      match t.mappedColumn member with
      | .ok _ => operand.producer?
      | .error _ => none
    | none => none
  | _ => none

end Predicate

/-- The log when leaves have been visited behind it: one call for each that asks a producer. -/
def CallLog.behind (log : CallLog) (t : Table) (leaves : List Predicate) : CallLog :=
  log ++ (leaves.filterMap (Predicate.asked? t)).map Producer.label

namespace CallLog

variable (log : CallLog) (t : Table)

@[simp] theorem behind_nil : log.behind t [] = log := List.append_nil _

theorem behind_append (xs ys : List Predicate) :
    log.behind t (xs ++ ys) = (log.behind t xs).behind t ys := by
  unfold behind
  rw [List.filterMap_append, List.map_append, List.append_assoc]

theorem behind_singleton (leaf : Predicate) :
    log.behind t [leaf] = log ++ ((leaf.asked? t).map Producer.label).toList := by
  unfold behind
  cases asks : leaf.asked? t with
  | none => rw [List.filterMap_cons_none asks]; rfl
  | some producer => rw [List.filterMap_cons_some asks]; rfl

theorem behind_of_none {leaf : Predicate} (asks : leaf.asked? t = none) :
    log.behind t [leaf] = log := by
  rw [behind_singleton, asks]
  exact List.append_nil log

/-- How often a producer has been asked behind some leaves. -/
theorem count_behind (label : String) (leaves : List Predicate) :
    (log.behind t leaves).count label =
      log.count label + (leaves.filterMap (Predicate.asked? t)).countP (·.label == label) := by
  unfold behind
  rw [List.count_append, List.count, List.countP_map]
  rfl

end CallLog

namespace Predicate

/-- To evaluate an operand asks its producer once, and no other. -/
theorem answer_evaluate_snd (p : Predicate) (log : CallLog) :
    (log.answer p.evaluate).2 = log ++ (p.producer?.map Producer.label).toList := by
  induction p with
  | computed producer => rw [evaluate, CallLog.answer_ask]; rfl
  | element source index ih =>
    rw [evaluate, CallLog.answer_bind, producer?, ← ih]
    rcases log.answer source.evaluate with ⟨_ | value, after⟩
    · rfl
    · dsimp only
      cases value.element index <;> rfl
  | _ => exact (List.append_nil log).symm

/-- An operand whose producer fails has no value, for the producer's reason. -/
theorem answer_evaluate_failed {p : Predicate} {log : CallLog} {producer : Producer}
    {reason : String} (source : p.producer? = some producer)
    (failed : producer.outcome log = .error reason) :
    (log.answer p.evaluate).1 = .error (.evaluation reason) := by
  induction p with
  | computed own =>
    cases source
    rw [evaluate, CallLog.answer_ask, failed]
    rfl
  | element source' index ih =>
    have none := ih source
    rw [evaluate, CallLog.answer_bind]
    rcases answered : log.answer source'.evaluate with ⟨e | value, after⟩
    · rw [answered] at none
      exact none
    · rw [answered] at none
      cases none
  | _ => cases source

section

variable {d : Dialect} {t : Table} {leaf : Predicate} {log : CallLog}

theorem asked?_of_columnless {op : Comparison} {left right : Predicate}
    (columnless : columnSide? op left right = none) :
    (comparison op left right).asked? t = none := by
  rw [asked?, columnless]

theorem asked?_of_refused {op side : Comparison} {left right operand : Predicate} {member : String}
    {e : StatementError} (compared : columnSide? op left right = some (side, member, operand))
    (refused : t.mappedColumn member = .error e) : (comparison op left right).asked? t = none := by
  simp only [asked?, compared, refused]

theorem asked?_of_mapped {op side : Comparison} {left right operand : Predicate} {member : String}
    {c : Column} (compared : columnSide? op left right = some (side, member, operand))
    (mapped : t.mappedColumn member = .ok c) :
    (comparison op left right).asked? t = operand.producer? := by
  simp only [asked?, compared, mapped]

/-- A leaf asks a producer exactly if it compares a mapped column with what the producer yields. -/
theorem asked?_eq_some_iff {producer : Producer} :
    leaf.asked? t = some producer ↔
      ∃ member operand c, Refers leaf member (some operand) ∧ t.mappedColumn member = .ok c ∧
        operand.producer? = some producer := by
  constructor
  · intro asks
    cases leaf with
    | comparison op left right =>
      cases compared : columnSide? op left right with
      | none =>
        rw [asked?_of_columnless compared] at asks
        cases asks
      | some found =>
        obtain ⟨side, member, operand⟩ := found
        cases mapped : t.mappedColumn member with
        | error e =>
          rw [asked?_of_refused compared mapped] at asks
          cases asks
        | ok c =>
          rw [asked?_of_mapped compared mapped] at asks
          exact ⟨member, operand, c, refers_comparison_iff.2 ⟨side, operand, compared, rfl⟩, mapped,
            asks⟩
    | _ => cases asks
  · rintro ⟨member, operand, c, refers, mapped, source⟩
    cases leaf with
    | comparison op left right =>
      obtain ⟨side, _, compared, same⟩ := refers_comparison_iff.1 refers
      cases same
      rw [asked?_of_mapped compared mapped, source]
    | _ => cases refers

/-- A leaf with a fault asks nothing. -/
theorem Faulty.asked?_eq_none {e : StatementError} (fault : Faulty t leaf e) :
    leaf.asked? t = none := by
  cases asks : leaf.asked? t with
  | none => rfl
  | some producer =>
    obtain ⟨member, operand, c, refers, mapped, -⟩ := asked?_eq_some_iff.1 asks
    exact absurd fault (refers.sound mapped e)

theorem isLeaf_of_mem_leaves {p : Predicate} (mem : leaf ∈ p.leaves) : leaf.isLeaf = true := by
  induction p with
  | logical op left right ihl ihr => exact (List.mem_append.1 mem).elim ihl ihr
  | _ =>
    rw [List.mem_singleton.1 mem]
    rfl

/-- A leaf that comes to values has made its call. -/
theorem Yields.calls_eq {values : List Value} {after : CallLog}
    (h : Yields d t log leaf (.ok (values, after))) (isLeaf : leaf.isLeaf = true) :
    after = log.behind t [leaf] := by
  cases h with
  | values sound computed =>
    cases leaf with
    | comparison op left right =>
      cases compared : columnSide? op left right with
      | none =>
        obtain ⟨neither, nor⟩ := columnSide?_eq_none_iff.1 compared
        exact absurd (.columnless neither nor) (sound _)
      | some found =>
        obtain ⟨side, member, operand⟩ := found
        cases mapped : t.mappedColumn member with
        | error e =>
          have refers : Refers (.comparison op left right) member (some operand) :=
            refers_comparison_iff.2 ⟨side, operand, compared, rfl⟩
          exact absurd (.unusable refers (Table.mappedColumn_eq_error_iff.1 mapped)) (sound e)
        | ok c =>
          rw [answer_boundValues_compared compared] at computed
          rw [CallLog.behind_singleton, asked?_of_mapped compared mapped, ← answer_evaluate_snd]
          revert computed
          rcases log.answer operand.evaluate with ⟨_ | value, between⟩
          · exact nofun
          · intro computed
            cases computed
            rfl
    | logical => cases isLeaf
    | _ =>
      cases computed
      exact (log.behind_of_none t rfl).symm

/-- Leaves that pass have made their calls. -/
theorem Visited.calls_eq {entries : List (String × Value)} {leaves : List Predicate}
    {bound : List Value} {after : CallLog} (h : Visited d t entries log leaves bound (.ok after))
    (areLeaves : ∀ leaf ∈ leaves, leaf.isLeaf = true) : after = log.behind t leaves := by
  generalize all : Except.ok after = result at h
  induction h with
  | done =>
    cases all
    exact (CallLog.behind_nil _ t).symm
  | @pass entries log between leaf leaves values more ending yields free rest ih =>
    obtain ⟨isLeaf, others⟩ := List.forall_mem_cons.1 areLeaves
    have first := yields.calls_eq isLeaf
    have later := ih others all
    rw [later, first, ← CallLog.behind_append, List.singleton_append]
  | fail => cases all

/-- Leaves pass as their parts do: the second part is visited behind what the first has bound. -/
theorem Visited.of_append {entries : List (String × Value)} {xs ys : List Predicate}
    {bound : List Value} {ending : Except StatementError CallLog} {after : CallLog}
    (h : Visited d t entries log (xs ++ ys) bound ending) (passed : ending = .ok after) :
    ∃ first rest between, bound = first ++ rest ∧
      Visited d t entries log xs first (.ok between) ∧
      Visited d t (entries ++ numbered entries.length first) between ys rest ending := by
  induction xs generalizing entries log bound with
  | nil =>
    refine ⟨[], bound, log, rfl, .done, ?_⟩
    rwa [Writing.numbered_nil, List.append_nil]
  | cons x xs ih =>
    cases h with
    | @pass _ _ between _ _ values more _ yields free later =>
      obtain ⟨first, rest, between', rfl, visited, visited'⟩ := ih later
      refine ⟨values ++ first, rest, between', (List.append_assoc ..).symm,
        .pass yields free visited, ?_⟩
      rw [List.length_append, Writing.length_numbered, List.append_assoc,
        ← Writing.numbered_append] at visited'
      exact visited'
    | fail => cases passed

/-! ## Where writing stops -/

/-- How writing the conditions of a list in a row ends: all of them pass, or one of them fails on
its own, behind those that have passed, and nothing is done behind that. -/
inductive Stops (d : Dialect) (t : Table) (leaves : List Predicate) (w : Writer) :
    Except StatementError Unit × Writer → Prop
  | passed {v : Writer} (follows : Follows d t leaves w (.ok (), v)) :
      Stops d t leaves w (.ok (), v)
  | failed {before after : List Predicate} {leaf : Predicate} {u v : Writer} {e : StatementError}
      (split : leaves = before ++ leaf :: after) (passed : Follows d t before w (.ok (), u))
      (run : u.exec (leaf.compile d t) = (.error e, v)) : Stops d t leaves w (.error e, v)

namespace Stops

variable {w : Writer} {xs ys : List Predicate} {x y : Writing Unit}

theorem text (s : String) : Stops d t [] w (w.exec (Writing.text s)) :=
  .passed (Follows.text s)

theorem bind (first : Stops d t xs w (w.exec x))
    (second : ∀ v : Writer, Stops d t ys v (v.exec y)) :
    Stops d t (xs ++ ys) w (w.exec (x >>= fun _ => y)) := by
  rw [Writer.exec_bind]
  revert first
  generalize w.exec x = r
  intro first
  cases first with
  | @passed v follows =>
    have later := second v
    dsimp only
    revert later
    generalize v.exec y = r'
    intro later
    cases later with
    | passed follows' => exact .passed (follows.trans follows')
    | failed split passed run =>
      exact .failed (by rw [split, List.append_assoc]) (follows.trans passed) run
  | failed split passed run =>
    exact .failed (by rw [split, List.append_assoc, List.cons_append]) passed run

/-- A leaf passes or fails on its own. -/
theorem single (isLeaf : leaf.isLeaf = true) (w : Writer) :
    Stops d t [leaf] w (w.exec (leaf.compile d t)) := by
  have follows := leaf_follows (d := d) (t := t) isLeaf w
  rcases run : w.exec (leaf.compile d t) with ⟨e | ⟨⟩, v⟩
  · exact .failed rfl (.passed .done (.of_eq rfl)) run
  · exact .passed (run ▸ follows)

end Stops

/-- Writing a condition fails in one of its leaves, or not at all. -/
theorem compile_stops (d : Dialect) (t : Table) (p : Predicate) (w : Writer) :
    Stops d t p.leaves w (w.exec (p.compile d t)) :=
  compile_of_leaves (J := fun leaves x => ∀ w : Writer, Stops d t leaves w (w.exec x))
    (fun s _ => .text s) (fun first second w => (first w).bind second) (fun _ => .single) p w

/-- However a leaf ends, it has made its call. -/
theorem compile_leaf_calls (d : Dialect) (t : Table) (isLeaf : leaf.isLeaf = true) (w : Writer) :
    (w.exec (leaf.compile d t)).2.calls = w.calls.behind t [leaf] := by
  cases leaf with
  | comparison op left right =>
    rw [compile]
    cases compared : columnSide? op left right with
    | none => exact (w.calls.behind_of_none t (asked?_of_columnless compared)).symm
    | some found =>
      obtain ⟨side, member, operand⟩ := found
      dsimp only
      cases mapped : t.mappedColumn member with
      | error e => exact (w.calls.behind_of_none t (asked?_of_refused compared mapped)).symm
      | ok c =>
        rw [CallLog.behind_singleton, asked?_of_mapped compared mapped, ← answer_evaluate_snd]
        show (w.exec (Writing.asking operand.evaluate >>= _)).2.calls = _
        rw [Writer.exec_bind, Writer.exec_asking]
        rcases w.calls.answer operand.evaluate with ⟨e | value, after⟩
        · rfl
        · exact (writeComparison_enumerates d c side value _).calls_eq
  | logical => cases isLeaf
  | membership member values =>
    rw [compile, w.calls.behind_of_none t rfl]
    cases t.mappedColumn member with
    | error e => rfl
    | ok c => exact (writeMembership_enumerates d c values w).calls_eq
  | literal value =>
    rw [w.calls.behind_of_none t rfl]
    cases value with
    | bool b => cases b <;> rfl
    | _ => rfl
  | _ => exact (w.calls.behind_of_none t rfl).symm

/-- A leaf whose producer fails comes to the producer's reason. -/
theorem Yields.of_failed {producer : Producer} {reason : String}
    (asks : leaf.asked? t = some producer) (failed : producer.outcome log = .error reason) :
    Yields d t log leaf (.error (.evaluation reason)) := by
  obtain ⟨member, operand, c, refers, mapped, source⟩ := asked?_eq_some_iff.1 asks
  exact .valueless (refers.sound mapped) refers (answer_evaluate_failed source failed)

/-- A column that is compared with what a counter answers is compared with the number of its
calls, the calls of the leaves in front included. -/
theorem Yields.of_counting {before : List Predicate} {member label : String} {c : Column}
    (refers : Refers leaf member (some (.computed (.counting label))))
    (mapped : t.mappedColumn member = .ok c) :
    Yields d t (log.behind t before) leaf
      (.ok ([.int (Int64.ofNat (log.count label +
        (before.filterMap (asked? t)).countP (·.label == label) + 1))],
        log.behind t (before ++ [leaf]))) := by
  rw [← CallLog.count_behind, CallLog.behind_append]
  cases leaf with
  | comparison op left right =>
    obtain ⟨side, operand, compared, same⟩ := refers_comparison_iff.1 refers
    cases same
    refine .values (refers.sound mapped) ?_
    rw [answer_boundValues_compared compared, CallLog.behind_singleton,
      asked?_of_mapped compared mapped, evaluate, CallLog.answer_ask]
    cases side <;> rfl
  | _ => cases refers

/-- A visit of one leaf ends in an error as the leaf fails. -/
theorem Visited.fails {entries : List (String × Value)} {own : List Value} {e : StatementError}
    (h : Visited d t entries log [leaf] own (.error e)) : Fails d t entries log leaf e own := by
  cases h with
  | pass _ _ rest => cases rest
  | fail fails => exact fails

/-- Each of the leaves that pass comes to its values behind the leaves in front of it. -/
theorem Visited.of_middle {entries : List (String × Value)} {before after : List Predicate}
    {bound : List Value} {last : CallLog}
    (h : Visited d t entries log (before ++ leaf :: after) bound (.ok last))
    (areLeaves : ∀ p ∈ before ++ leaf :: after, p.isLeaf = true) :
    ∃ first own more, bound = first ++ (own ++ more) ∧
      Visited d t entries log before first (.ok (log.behind t before)) ∧
      Yields d t (log.behind t before) leaf (.ok (own, log.behind t (before ++ [leaf]))) := by
  obtain ⟨first, rest, between, rfl, visited, visited'⟩ := h.of_append rfl
  obtain ⟨front, rear⟩ := List.forall_mem_append.1 areLeaves
  have asked : between = log.behind t before := visited.calls_eq front
  subst asked
  cases visited' with
  | @pass _ _ between _ _ own more _ yields free rest =>
    refine ⟨first, own, more, rfl, visited, ?_⟩
    have called : between = (log.behind t before).behind t [leaf] :=
      yields.calls_eq (List.forall_mem_cons.1 rear).1
    rwa [called, ← CallLog.behind_append] at yields

end

/-- How writing a condition visits its leaves: all of them pass, or those do that stand in front of
one that fails, and the others are not visited. -/
inductive Visits (d : Dialect) (t : Table) (w : Writer) :
    List Predicate → List Predicate → Except StatementError Unit × Writer → Prop
  | all {visited : List Predicate} {bound : List Value} {v : Writer}
      (passed : Visited d t w.entries w.calls visited bound (.ok (w.calls.behind t visited)))
      (numbers : w.Numbers v bound) (calls : v.calls = w.calls.behind t visited) :
      Visits d t w visited [] (.ok (), v)
  | upTo {before after : List Predicate} {leaf : Predicate} {bound own : List Value} {v : Writer}
      {e : StatementError}
      (passed : Visited d t w.entries w.calls before bound (.ok (w.calls.behind t before)))
      (fails : Fails d t (w.entries ++ numbered w.bound bound) (w.calls.behind t before) leaf e own)
      (numbers : w.Numbers v (bound ++ own))
      (calls : v.calls = w.calls.behind t (before ++ [leaf])) :
      Visits d t w (before ++ [leaf]) after (.error e, v)

theorem compile_visits (d : Dialect) (t : Table) (p : Predicate) (w : Writer) :
    ∃ visited unvisited, p.leaves = visited ++ unvisited ∧
      Visits d t w visited unvisited (w.exec (p.compile d t)) := by
  have areLeaves : ∀ q ∈ p.leaves, q.isLeaf = true := fun _ => isLeaf_of_mem_leaves
  have stops := compile_stops d t p w
  revert stops
  generalize w.exec (p.compile d t) = r
  intro stops
  cases stops with
  | @passed v follows =>
    cases follows with
    | passed visited numbers =>
      have calls := visited.calls_eq areLeaves
      exact ⟨p.leaves, [], (List.append_nil _).symm, .all (calls ▸ visited) numbers calls⟩
  | @failed before after leaf u v e split passed run =>
    rw [split, List.forall_mem_append, List.forall_mem_cons] at areLeaves
    obtain ⟨front, isLeaf, -⟩ := areLeaves
    have follows := leaf_follows (d := d) (t := t) isLeaf u
    have asked := compile_leaf_calls d t isLeaf u
    rw [run] at follows asked
    cases passed with
    | passed visited numbers =>
      have called : u.calls = w.calls.behind t before := visited.calls_eq front
      cases follows with
      | failed visited' numbers' =>
        rw [numbers, called] at visited'
        refine ⟨before ++ [leaf], after, by rw [split, List.append_assoc]; rfl,
          .upTo (called ▸ visited) visited'.fails (numbers.trans numbers') ?_⟩
        rw [asked, called, CallLog.behind_append]

namespace Visits

variable {d : Dialect} {t : Table} {w : Writer} {visited unvisited : List Predicate}
  {r : Except StatementError Unit × Writer}

theorem calls_eq (h : Visits d t w visited unvisited r) :
    r.2.calls = w.calls.behind t visited := by
  cases h with
  | all passed numbers calls => exact calls
  | upTo passed fails numbers calls => exact calls

theorem unvisited_eq (h : Visits d t w visited unvisited r) (written : r.1 = .ok ()) :
    unvisited = [] := by
  cases h with
  | all => rfl
  | upTo => cases written

/-- Of a condition that is refused, the last leaf that is visited fails, and with its error. -/
theorem exists_fails (h : Visits d t w visited unvisited r) {e : StatementError}
    (failed : r.1 = .error e) :
    ∃ before leaf bound own, visited = before ++ [leaf] ∧
      Visited d t w.entries w.calls before bound (.ok (w.calls.behind t before)) ∧
      Fails d t (w.entries ++ numbered w.bound bound) (w.calls.behind t before) leaf e own := by
  cases h with
  | all => cases failed
  | upTo passed fails =>
    cases failed
    exact ⟨_, _, _, _, rfl, passed, fails⟩

/-- A leaf that is visited passes, or it is the last one and fails. -/
theorem passes_or_fails (h : Visits d t w visited unvisited r)
    (areLeaves : ∀ q ∈ visited, q.isLeaf = true) {before after : List Predicate} {leaf : Predicate}
    (split : visited = before ++ leaf :: after) :
    ∃ bound own more,
      Visited d t w.entries w.calls before bound (.ok (w.calls.behind t before)) ∧
      w.Numbers r.2 (bound ++ (own ++ more)) ∧
      (Yields d t (w.calls.behind t before) leaf
          (.ok (own, w.calls.behind t (before ++ [leaf]))) ∨
        after = [] ∧ ∃ e, r.1 = .error e ∧
          Fails d t (w.entries ++ numbered w.bound bound) (w.calls.behind t before) leaf e
            own) := by
  cases h with
  | all passed numbers calls =>
    rw [split] at passed areLeaves
    obtain ⟨bound, own, more, rfl, front, yields⟩ := passed.of_middle areLeaves
    exact ⟨bound, own, more, front, numbers, .inl yields⟩
  | @upTo before' after' leaf' bound own v e passed fails numbers calls =>
    rcases after.eq_nil_or_concat with rfl | ⟨init, last, rfl⟩
    · obtain ⟨rfl, same⟩ := List.append_inj' split rfl
      cases same
      refine ⟨bound, own, [], passed, ?_, .inr ⟨rfl, e, rfl, fails⟩⟩
      rwa [List.append_nil]
    · -- the leaf stands in front of the one that fails
      have front : before' = before ++ leaf :: init := by
        rw [List.concat_eq_append, ← List.cons_append, ← List.append_assoc] at split
        exact (List.append_inj' split rfl).1
      rw [List.forall_mem_append] at areLeaves
      rw [front] at passed areLeaves
      obtain ⟨first, own', more, rfl, front, yields⟩ := passed.of_middle areLeaves.1
      rw [List.append_assoc, List.append_assoc own'] at numbers
      exact ⟨first, own', more ++ own, front, numbers, .inl yields⟩

end Visits

/-- The law of calls. Writing a condition visits its leaves from left to right: all of them, or
those up to the first that fails. Each producer that a visited leaf asks is called once, in this
order, and no other is; a leaf with a fault of its form or its member asks none.

A visited leaf comes to its values, or fails, behind the calls of the leaves in front of it. A
producer that fails there is the last one to be called, and a counter answers with how often it has
been asked. -/
theorem compile_calls (d : Dialect) (t : Table) (p : Predicate) (w : Writer) :
    ∃ visited unvisited, p.leaves = visited ++ unvisited ∧
      (w.exec (p.compile d t)).2.calls = w.calls.behind t visited ∧
      ((w.exec (p.compile d t)).1 = .ok () → unvisited = []) ∧
      (∀ e, (w.exec (p.compile d t)).1 = .error e → ∃ before leaf bound own,
        visited = before ++ [leaf] ∧
        Visited d t w.entries w.calls before bound (.ok (w.calls.behind t before)) ∧
        Fails d t (w.entries ++ numbered w.bound bound) (w.calls.behind t before) leaf e own) ∧
      (∀ leaf e, Faulty t leaf e → leaf.asked? t = none) ∧
      ∀ before leaf after, visited = before ++ leaf :: after → ∃ bound more,
        Visited d t w.entries w.calls before bound (.ok (w.calls.behind t before)) ∧
        (w.exec (p.compile d t)).2.entries = w.entries ++ numbered w.bound (bound ++ more) ∧
        (after ≠ [] ∨ (w.exec (p.compile d t)).1 = .ok () → ∃ own, own <+: more ∧
          Yields d t (w.calls.behind t before) leaf
            (.ok (own, w.calls.behind t (before ++ [leaf])))) ∧
        (∀ producer reason, leaf.asked? t = some producer →
          producer.outcome (w.calls.behind t before) = .error reason →
          after = [] ∧ (w.exec (p.compile d t)).1 = .error (.evaluation reason)) ∧
        ∀ member label c, Refers leaf member (some (.computed (.counting label))) →
          t.mappedColumn member = .ok c →
          Yields d t (w.calls.behind t before) leaf
            (.ok ([.int (Int64.ofNat (w.calls.count label +
              (before.filterMap (asked? t)).countP (·.label == label) + 1))],
              w.calls.behind t (before ++ [leaf]))) := by
  obtain ⟨visited, unvisited, split, visits⟩ := compile_visits d t p w
  have areLeaves : ∀ q ∈ visited, q.isLeaf = true := fun q mem =>
    isLeaf_of_mem_leaves (split ▸ List.mem_append_left _ mem)
  refine ⟨visited, unvisited, split, visits.calls_eq, visits.unvisited_eq,
    fun _ => visits.exists_fails, fun _ _ fault => fault.asked?_eq_none,
    fun before leaf after split' => ?_⟩
  obtain ⟨bound, own, more, passed, numbers, ends⟩ := visits.passes_or_fails areLeaves split'
  refine ⟨bound, own ++ more, passed, numbers, fun passes => ?_,
    fun producer reason asks failed => ?_, fun _ _ _ => .of_counting⟩
  · rcases ends with yields | ⟨last, e, stopped, fails⟩
    · exact ⟨own, List.prefix_append own more, yields⟩
    · rcases passes with further | written
      · exact absurd last further
      · cases stopped.symm.trans written
  · rcases ends with yields | ⟨last, e, stopped, fails⟩
    · exact nomatch (Yields.of_failed asks failed).unique yields
    · refine ⟨last, ?_⟩
      rw [stopped, (fails.unique (.refused (.of_failed asks failed))).1]

end Predicate

end BoundSql
