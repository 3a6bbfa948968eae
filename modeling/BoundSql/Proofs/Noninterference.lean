import BoundSql.Proofs.Growth
import BoundSql.Proofs.Pairing

/-!
# Values stay out of the text

Two predicates of one shape, whose operands have other values and whose membership tests have other
elements, are written with the same text and bind the same names: what is sent as SQL tells nothing
about the values. Three things about values do show, and the statement asks that they agree:
whether an operand of an equality is missing, which constant stands as a condition, and how many
elements a membership test has.

Operands that fail are left out. Their reason is the error of the step, and a reason may well quote
a value.
-/

namespace BoundSql.Predicate

/-- The member a node names, if it is a column. -/
def columnName? : Predicate → Option String
  | .column member => some member
  | _ => none

/-- Two sides of comparisons that differ in their values only: nodes of one kind, and the same
member if they are columns. -/
structure SameSide (p q : Predicate) : Prop where
  kind : p.kind = q.kind
  column : p.columnName? = q.columnName?

/-- Two predicates that differ only in what their operands evaluate to and in the elements of their
membership tests. Constants that stand as conditions are part of the shape. -/
inductive SameShape : Predicate → Predicate → Prop
  | logical (op : Connective) {left left' right right' : Predicate} (hleft : SameShape left left')
      (hright : SameShape right right') :
      SameShape (.logical op left right) (.logical op left' right')
  | comparison (op : Comparison) {left left' right right' : Predicate}
      (hleft : SameSide left left') (hright : SameSide right right') :
      SameShape (.comparison op left right) (.comparison op left' right')
  | membership (member : String) {xs ys : List Value} (h : xs.length = ys.length) :
      SameShape (.membership member xs) (.membership member ys)
  | literal (value : Value) : SameShape (.literal value) (.literal value)
  | operand {p q : Predicate} (h : p.isOperand = true) (same : SameSide p q) : SameShape p q

/-- The values of all operands that are compared with a column, from left to right, each with its
operator as it stands behind the column. -/
def operandValues : Predicate → Asking (List (Comparison × Value))
  | .logical _ left right => do
    let first ← left.operandValues
    let rest ← right.operandValues
    pure (first ++ rest)
  | .comparison op left right =>
    match columnSide? op left right with
    | some (side, _, operand) => do
      let value ← operand.evaluate
      pure [(side, value)]
    | none => pure []
  | _ => pure []

/-- Both values or neither are missing, where an equality could tell. -/
def SameNull (a b : Comparison × Value) : Prop :=
  a.1 = .eq ∨ a.1 = .ne → a.2.isNull = b.2.isNull

theorem columnSide?_eq (op : Comparison) (left right : Predicate) :
    columnSide? op left right =
      match left.columnName?, right.columnName? with
      | some member, _ => some (op, member, right)
      | none, some member => some (op.mirror, member, left)
      | none, none => none := by
  cases left <;> cases right <;> rfl

/-- Two comparisons of one shape have their column on the same side. -/
theorem SameSide.columnSide? {left left' right right' : Predicate} (op : Comparison)
    (hleft : SameSide left left') (hright : SameSide right right') :
    (Predicate.columnSide? op left right = none ∧ Predicate.columnSide? op left' right' = none) ∨
    ∃ side member operand operand',
      Predicate.columnSide? op left right = some (side, member, operand) ∧
      Predicate.columnSide? op left' right' = some (side, member, operand') := by
  rw [columnSide?_eq, columnSide?_eq, ← hleft.column, ← hright.column]
  cases left.columnName? with
  | some member => exact .inr ⟨op, member, right, right', rfl, rfl⟩
  | none =>
    cases right.columnName? with
    | some member => exact .inr ⟨op.mirror, member, left, left', rfl, rfl⟩
    | none => exact .inl ⟨rfl, rfl⟩

/-- Whether a node is an operand is a matter of its kind. -/
theorem isOperand_eq (p : Predicate) :
    p.isOperand = ["column reference", "computed value", "element access"].contains p.kind := by
  cases p <;> rfl

theorem SameSide.isOperand {p q : Predicate} (h : SameSide p q) (hp : p.isOperand = true) :
    q.isOperand = true := by
  rw [isOperand_eq, ← h.kind, ← isOperand_eq, hp]

theorem operandValues_isOperand {p : Predicate} (h : p.isOperand = true) :
    p.operandValues = pure [] := by
  cases p with
  | column | computed | element => rfl
  | _ => cases h

/-- A comparison with a column has one operand. -/
theorem answer_operandValues_compared {op side : Comparison} {member : String}
    {left right operand : Predicate} {log after : CallLog} {vs : List (Comparison × Value)}
    (h : columnSide? op left right = some (side, member, operand))
    (hvs : log.answer (comparison op left right).operandValues = (.ok vs, after)) :
    ∃ value, log.answer operand.evaluate = (.ok value, after) ∧ vs = [(side, value)] := by
  rw [operandValues, h] at hvs
  obtain ⟨value, _, hvalue, hpure⟩ := log.answer_bind_eq_ok hvs
  cases hpure
  exact ⟨value, hvalue, rfl⟩

theorem answer_operandValues_logical {op : Connective} {left right : Predicate}
    {log after : CallLog} {vs : List (Comparison × Value)}
    (hvs : log.answer (logical op left right).operandValues = (.ok vs, after)) :
    ∃ first between rest, log.answer left.operandValues = (.ok first, between) ∧
      between.answer right.operandValues = (.ok rest, after) ∧ vs = first ++ rest := by
  rw [operandValues] at hvs
  obtain ⟨first, between, hfirst, hvs⟩ := log.answer_bind_eq_ok hvs
  obtain ⟨rest, _, hrest, hpure⟩ := between.answer_bind_eq_ok hvs
  cases hpure
  exact ⟨first, between, rest, hfirst, hrest, rfl⟩

/-- The shape tells how many operands there are. -/
theorem SameShape.length_eq {p q : Predicate} (shape : SameShape p q) {a a' b b' : CallLog}
    {vs us : List (Comparison × Value)} (hvs : a.answer p.operandValues = (.ok vs, b))
    (hus : a'.answer q.operandValues = (.ok us, b')) : vs.length = us.length := by
  induction shape generalizing a a' b b' vs us with
  | logical op hleft hright ihl ihr =>
    obtain ⟨first, _, rest, hfirst, hrest, rfl⟩ := answer_operandValues_logical hvs
    obtain ⟨first', _, rest', hfirst', hrest', rfl⟩ := answer_operandValues_logical hus
    rw [List.length_append, List.length_append, ihl hfirst hfirst', ihr hrest hrest']
  | comparison op hleft hright =>
    rcases hleft.columnSide? op hright with ⟨hp, hq⟩ | ⟨side, member, _, _, hp, hq⟩
    · rw [operandValues, hp] at hvs
      rw [operandValues, hq] at hus
      cases hvs
      cases hus
      rfl
    · obtain ⟨_, _, rfl⟩ := answer_operandValues_compared hp hvs
      obtain ⟨_, _, rfl⟩ := answer_operandValues_compared hq hus
      rfl
  | membership | literal =>
    cases hvs
    cases hus
    rfl
  | operand h same =>
    rw [operandValues_isOperand h] at hvs
    rw [operandValues_isOperand (same.isOperand h)] at hus
    cases hvs
    cases hus
    rfl

/-- Predicates of one shape are twins as soon as their operands succeed and agree in what is
missing. -/
theorem SameShape.twins {p q : Predicate} (shape : SameShape p q) {a a' b b' : CallLog}
    {vs us : List (Comparison × Value)} (hvs : a.answer p.operandValues = (.ok vs, b))
    (hus : a'.answer q.operandValues = (.ok us, b')) (nulls : List.Forall₂ SameNull vs us) :
    Twins (fun _ _ => True) a a' p q b b' := by
  induction shape generalizing a a' b b' vs us with
  | logical op hleft hright ihl ihr =>
    obtain ⟨first, _, rest, hfirst, hrest, rfl⟩ := answer_operandValues_logical hvs
    obtain ⟨first', _, rest', hfirst', hrest', rfl⟩ := answer_operandValues_logical hus
    -- the shape tells where the values of the left side end, so both lists part at one place
    have count := hleft.length_eq hfirst hfirst'
    have nullsLeft := List.forall₂_take first.length nulls
    rw [List.take_left, List.take_left' count.symm] at nullsLeft
    have nullsRight := List.forall₂_drop first.length nulls
    rw [List.drop_left, List.drop_left' count.symm] at nullsRight
    exact .logical (ihl hfirst hfirst' nullsLeft) (ihr hrest hrest' nullsRight)
  | comparison op hleft hright =>
    rcases hleft.columnSide? op hright with ⟨hp, hq⟩ | ⟨side, member, operand, operand', hp, hq⟩
    · rw [operandValues, hp] at hvs
      rw [operandValues, hq] at hus
      cases hvs
      cases hus
      exact .columnless hp hq hleft.kind hright.kind
    · obtain ⟨value, hvalue, rfl⟩ := answer_operandValues_compared hp hvs
      obtain ⟨value', hvalue', rfl⟩ := answer_operandValues_compared hq hus
      have null : SameNull (side, value) (side, value') := (List.forall₂_cons.1 nulls).1
      have ends : Answered (fun _ _ => True) side (a.answer operand.evaluate).1
          (a'.answer operand'.evaluate).1 := by
        rw [hvalue, hvalue']
        refine ⟨trivial, ?_⟩
        cases side with
        | eq => exact congrArg (true && ·) (null (.inl rfl))
        | ne => exact congrArg (true && ·) (null (.inr rfl))
        | _ => rfl
      have twins := Twins.compared hp hq ends
      rwa [hvalue, hvalue'] at twins
  | membership member h =>
    cases hvs
    cases hus
    exact .membership (List.forall₂_iff_get.2 ⟨h, fun _ _ _ => trivial⟩)
  | literal =>
    cases hvs
    cases hus
    exact .literal
  | operand h same =>
    rw [operandValues_isOperand h] at hvs
    rw [operandValues_isOperand (same.isOperand h)] at hus
    cases hvs
    cases hus
    exact .operand h (same.isOperand h) same.kind

/-- Values do not leak: predicates of one shape, whose operands all succeed and agree in what is
missing where an equality could tell, end alike, write the same text and bind the same names. -/
theorem compile_noninterference (d : Dialect) (t : Table) (w : Writer) {p q : Predicate}
    (shape : SameShape p q) {vs us : List (Comparison × Value)}
    (hvs : (w.calls.answer p.operandValues).1 = .ok vs)
    (hus : (w.calls.answer q.operandValues).1 = .ok us) (nulls : List.Forall₂ SameNull vs us) :
    (w.exec (p.compile d t)).1 = (w.exec (q.compile d t)).1 ∧
    ∃ appended bound,
      (w.exec (p.compile d t)).2.text = w.text ++ appended ∧
      (w.exec (q.compile d t)).2.text = w.text ++ appended ∧
      (w.exec (p.compile d t)).2.names = w.names ++ bound ∧
      (w.exec (q.compile d t)).2.names = w.names ++ bound := by
  have twins := shape.twins (Prod.ext hvs rfl) (Prod.ext hus rfl) nulls
  have parallel := Writer.Alike.parallel (V := fun _ _ => True) d trivial fun _ => trivial
  have start : Writer.After (Writer.Alike fun _ _ => True) w.calls w.calls w w :=
    ⟨⟨rfl, rfl, List.forall₂_same.2 fun _ _ => ⟨rfl, trivial⟩⟩, rfl, rfl⟩
  have paired := compile_paired parallel
    (fun h _ _ => ⟨h.text, h.collected, h.entries⟩) t twins
  obtain ⟨outcome, alike⟩ := (paired.weaken id (fun ended => ⟨rfl, ended.1⟩) id).same start
  have grown : w.Extends (w.exec (p.compile d t)).2 := compile_ensures d t p w
  obtain ⟨appended, text⟩ := grown.text
  obtain ⟨new, entries, _⟩ := grown.bindsOn
  have names : (w.exec (p.compile d t)).2.names = w.names ++ new.map Prod.fst := by
    rw [Writer.names, entries, List.map_append, Writer.names]
  exact ⟨outcome, appended, new.map Prod.fst, text, alike.text ▸ text, names,
    alike.names_eq ▸ names⟩

/-- Accounts of one owner at one of two levels. -/
def ownedAt (owner : Value) (first second : Value) : Predicate :=
  .logical .and (.comparison .eq (.column "owner") (.literal owner))
    (.membership "level" [first, second])

/-- An owner who is called like a piece of SQL, and levels that are missing. -/
theorem compile_noninterference_ownedAt :
    let honest := ownedAt (.text "ada") (.int 1) (.int 2)
    let hostile := ownedAt (.text "' or 1 = 1 --") .null (.text "3")
    SameShape honest hostile ∧
      ∃ appended bound,
        (({} : Writer).exec (honest.compile .sqlite Account.table)).2.text = appended ∧
        (({} : Writer).exec (hostile.compile .sqlite Account.table)).2.text = appended ∧
        (({} : Writer).exec (honest.compile .sqlite Account.table)).2.names = bound ∧
        (({} : Writer).exec (hostile.compile .sqlite Account.table)).2.names = bound := by
  intro honest hostile
  have shape : SameShape honest hostile :=
    .logical .and (.comparison .eq ⟨rfl, rfl⟩ ⟨rfl, rfl⟩) (.membership "level" rfl)
  have nulls : List.Forall₂ SameNull [(.eq, .text "ada")] [(.eq, .text "' or 1 = 1 --")] :=
    .cons (fun _ => rfl) .nil
  obtain ⟨-, appended, bound, text, text', names, names'⟩ :=
    compile_noninterference .sqlite Account.table {} shape rfl rfl nulls
  exact ⟨shape, appended, bound, by rw [text, String.empty_append],
    by rw [text', String.empty_append], names, names'⟩

end BoundSql.Predicate
