import BoundSql.Proofs.Execution

/-!
# Operands as paths into values

An operand that takes elements of elements is a path of places into the value of its base. What it
comes to is laid down here without evaluation: which value the path reaches (`Value.Reaches`), or
where it breaks off (`Value.BreaksOff`), and what a base comes to on its own (`Predicate.Begins`).

`Predicate.evaluate_path` says that evaluation agrees, for every base and every path. Accesses are
nested the other way round than they are followed, so the law is proved by following the path inside
out (`Predicate.answer_evaluate_path`): the base is evaluated once, and all else is a matter of the
value that it comes to. What is in the tree is only read. So a constant answers alike each time it
is looked into, whereas a producer may answer differently.
-/

namespace BoundSql

namespace Value

/-- Taking elements in turn, each counted from zero, leads from one value to another. -/
inductive Reaches : Value → List Nat → Value → Prop
  | here (v : Value) : Reaches v [] v
  | element {before after : List Value} {item v : Value} {indices : List Nat}
      (further : Reaches item indices v) :
      Reaches (.list (before ++ item :: after)) (before.length :: indices) v

/-- Why a value has no element in a place. -/
inductive Lacks : Value → Nat → String → Prop
  | noList {v : Value} (scalar : ∀ items, v ≠ .list items) (index : Nat) :
      Lacks v index ("cannot index into a " ++ v.kind ++ " value")
  | outOfRange {items : List Value} {index : Nat} (beyond : items.length ≤ index) :
      Lacks (.list items) index ("index " ++ toString index ++ " out of range for list of " ++
        toString items.length ++ " values")

/-- Taking elements in turn comes to a value without the element asked for next. What would have
been asked of that element does not matter. -/
inductive BreaksOff (v : Value) (indices : List Nat) (reason : String) : Prop
  | intro {inner outer : List Nat} {index : Nat} {holder : Value}
      (split : indices = inner ++ index :: outer) (reached : v.Reaches inner holder)
      (lacks : holder.Lacks index reason)

/-! ## One element -/

theorem element_eq_ok_iff {v item : Value} {index : Nat} :
    v.element index = .ok item ↔
      ∃ before after, v = .list (before ++ item :: after) ∧ before.length = index := by
  constructor
  · intro h
    unfold element at h
    split at h
    · next items =>
      split at h
      · next found get =>
        cases h
        obtain ⟨inside, rfl⟩ := List.getElem?_eq_some_iff.1 get
        refine ⟨items.take index, items.drop (index + 1), ?_,
          List.length_take_of_le (Nat.le_of_lt inside)⟩
        rw [List.getElem_cons_drop, List.take_append_drop]
      · cases h
    · cases h
  · rintro ⟨before, after, rfl, rfl⟩
    have get : (before ++ item :: after)[before.length]? = some item := by
      rw [List.getElem?_append_right (Nat.le_refl _), Nat.sub_self, List.getElem?_cons_zero]
    rw [element, get]

theorem element_eq_error_iff {v : Value} {index : Nat} {e : StatementError} :
    v.element index = .error e ↔ ∃ reason, v.Lacks index reason ∧ e = .evaluation reason := by
  constructor
  · intro h
    unfold element at h
    split at h
    · split at h
      · cases h
      · next none =>
        cases h
        exact ⟨_, .outOfRange (List.getElem?_eq_none_iff.1 none), rfl⟩
    · next scalar =>
      cases h
      exact ⟨_, .noList scalar index, rfl⟩
  · rintro ⟨reason, lacks, rfl⟩
    cases lacks with
    | noList scalar =>
      unfold element
      split
      · exact absurd rfl (scalar _)
      · rfl
    | outOfRange beyond => rw [element, List.getElem?_eq_none beyond]

/-! ## A path of elements -/

/-- Take elements in turn, up to the first that cannot be had. -/
def follow : Value → List Nat → Except StatementError Value
  | v, [] => .ok v
  | v, index :: outer =>
    match v.element index with
    | .ok item => item.follow outer
    | .error e => .error e

theorem follow_eq_ok_iff {v w : Value} {indices : List Nat} :
    v.follow indices = .ok w ↔ v.Reaches indices w := by
  induction indices generalizing v with
  | nil =>
    constructor
    · intro h
      cases h
      exact .here _
    · intro h
      cases h
      rfl
  | cons index outer ih =>
    constructor
    · intro h
      rw [follow] at h
      split at h
      · next item found =>
        obtain ⟨before, after, rfl, rfl⟩ := element_eq_ok_iff.1 found
        exact .element (ih.1 h)
      · cases h
    · intro h
      cases h with
      | element further =>
        rw [follow, element_eq_ok_iff.2 ⟨_, _, rfl, rfl⟩]
        exact ih.2 further

theorem follow_eq_error_iff {v : Value} {indices : List Nat} {e : StatementError} :
    v.follow indices = .error e ↔
      ∃ reason, v.BreaksOff indices reason ∧ e = .evaluation reason := by
  induction indices generalizing v with
  | nil =>
    constructor
    · intro h
      cases h
    · rintro ⟨reason, ⟨split, -, -⟩, -⟩
      exact absurd split.symm (List.append_ne_nil_of_right_ne_nil _ (List.cons_ne_nil _ _))
  | cons index outer ih =>
    rw [follow]
    constructor
    · intro h
      split at h
      · next item found =>
        obtain ⟨reason, ⟨split, reached, lacks⟩, rfl⟩ := ih.1 h
        obtain ⟨before, after, rfl, rfl⟩ := element_eq_ok_iff.1 found
        exact ⟨reason, .intro (congrArg _ split) (.element reached) lacks, rfl⟩
      · next refused =>
        cases h
        obtain ⟨reason, lacks, rfl⟩ := element_eq_error_iff.1 refused
        exact ⟨reason, .intro (List.nil_append _).symm (.here v) lacks, rfl⟩
    · rintro ⟨reason, ⟨split, reached, lacks⟩, rfl⟩
      -- the path breaks off right here, or behind an element that can be had
      cases reached with
      | here =>
        cases split
        rw [element_eq_error_iff.2 ⟨reason, lacks, rfl⟩]
      | element further =>
        cases split
        rw [element_eq_ok_iff.2 ⟨_, _, rfl, rfl⟩]
        exact ih.2 ⟨reason, .intro rfl further lacks, rfl⟩

end Value

/-! ## Evaluation -/

namespace Predicate

/-- Accesses around a base, given by their places from the innermost to the outermost. -/
def path (base : Predicate) : List Nat → Predicate
  | [] => base
  | index :: outer => (element base index).path outer

def isElement : Predicate → Bool
  | .element .. => true
  | _ => false

/-- What an operand that is no access comes to behind some calls. -/
inductive Begins (log : CallLog) : Predicate → Except StatementError Value → Prop
  | literal (value : Value) : Begins log (.literal value) (.ok value)
  | computed {producer : Producer} {value : Value} (answered : producer.outcome log = .ok value) :
      Begins log (.computed producer) (.ok value)
  | failed {producer : Producer} {reason : String}
      (refused : producer.outcome log = .error reason) :
      Begins log (.computed producer) (.error (.evaluation reason))
  | column (member : String) :
      Begins log (.column member)
        (.error (.evaluation ("member '" ++ member ++ "' cannot be used as a value")))
  | comparison (op : Comparison) (left right : Predicate) :
      Begins log (.comparison op left right)
        (.error (.evaluation "comparison cannot be used as a value"))
  | logical (op : Connective) (left right : Predicate) :
      Begins log (.logical op left right)
        (.error (.evaluation "logical expression cannot be used as a value"))
  | membership (member : String) (values : List Value) :
      Begins log (.membership member values)
        (.error (.evaluation "membership test cannot be used as a value"))

theorem begins_iff {log : CallLog} {base : Predicate} {r : Except StatementError Value}
    (own : base.isElement = false) : Begins log base r ↔ (log.answer base.evaluate).1 = r := by
  constructor
  · intro h
    cases h with
    | computed answered | failed answered =>
      rw [evaluate, CallLog.answer_ask, answered]
      rfl
    | _ => rfl
  · rintro rfl
    cases base with
    | literal value => exact .literal value
    | column member => exact .column member
    | computed producer =>
      rw [evaluate, CallLog.answer_ask]
      cases answer : producer.outcome log with
      | ok value => exact .computed answer
      | error reason => exact .failed answer
    | element => cases own
    | comparison op left right => exact .comparison op left right
    | logical op left right => exact .logical op left right
    | membership member values => exact .membership member values

/-- The base is evaluated, and the path followed into the value that it comes to. -/
theorem answer_evaluate_path (log : CallLog) (base : Predicate) (indices : List Nat) :
    log.answer (base.path indices).evaluate =
      match log.answer base.evaluate with
      | (.ok value, after) => (value.follow indices, after)
      | (.error e, after) => (.error e, after) := by
  induction indices generalizing base with
  | nil =>
    rw [path]
    rcases log.answer base.evaluate with ⟨e | value, after⟩ <;> rfl
  | cons index outer ih =>
    -- the innermost access is part of the base for all others
    rw [path, ih, evaluate, CallLog.answer_bind]
    rcases log.answer base.evaluate with ⟨e | value, after⟩
    · rfl
    · dsimp only
      rw [Value.follow]
      cases value.element index <;> rfl

/-- The law of operands. An operand has the value that its path reaches from the value of its base.
It has none if the base has none, for the base's reason, or if the path breaks off, for the reason
of the innermost access that fails, whatever the accesses around it are.

A constant is looked into as often as one likes: behind any calls the operand comes to the same, and
no call is made for it. -/
theorem evaluate_path (log : CallLog) (base : Predicate) (indices : List Nat)
    (own : base.isElement = false) :
    (∀ v, (log.answer (base.path indices).evaluate).1 = .ok v ↔
      ∃ start, Begins log base (.ok start) ∧ start.Reaches indices v) ∧
    (∀ e, (log.answer (base.path indices).evaluate).1 = .error e ↔
      Begins log base (.error e) ∨
        ∃ start reason, Begins log base (.ok start) ∧ start.BreaksOff indices reason ∧
          e = .evaluation reason) ∧
    ∀ value, base = .literal value → ∀ later : CallLog,
      later.answer (base.path indices).evaluate =
        ((log.answer (base.path indices).evaluate).1, later) := by
  simp only [begins_iff own, answer_evaluate_path]
  refine ⟨fun v => ?_, fun e => ?_, ?_⟩
  · rcases log.answer base.evaluate with ⟨e | start, after⟩
    · simp
    · simp [Value.follow_eq_ok_iff]
  · rcases log.answer base.evaluate with ⟨e' | start, after⟩
    · simp
    · simp [Value.follow_eq_error_iff]
  · rintro value rfl later
    rfl

/-- The first element of the second element. -/
theorem evaluate_path_nested :
    let ages : Predicate := .computed (.constant "ages" (.list
      [.list [.int 1, .int 2], .list [.int 3, .int 4]]))
    ages.isElement = false ∧
      (CallLog.answer [] (element (element ages 1) 0).evaluate).1 = .ok (.int 3) := by
  intro ages
  refine ⟨rfl, ((evaluate_path [] ages [1, 0] rfl).1 _).2 ⟨_, .computed rfl, ?_⟩⟩
  exact @Value.Reaches.element [_] [] _ _ _ (@Value.Reaches.element [] [_] _ _ _ (.here _))

end Predicate

end BoundSql
