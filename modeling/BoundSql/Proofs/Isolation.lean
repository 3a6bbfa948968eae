import BoundSql.Proofs.Pairing
import BoundSql.Proofs.Rollback

/-!
# Failed steps leave no trace

A caller may go on after a step that failed. `Builder.performAll_kept` says what the statement is
then: the one that the steps which succeeded make on their own, and each of them succeeds in that
shorter run as well. So a failed step neither shifts the names of later parameters nor causes or
hides a later duplicate.

The producers asked and the reports made are not undone and do differ between the two runs. That is
why the operands have to be steady: a producer that counts its calls can tell that a step has failed
before.
-/

namespace BoundSql

/-! ## Steady operands -/

/-- The producer answers alike whatever has been asked before. -/
def Producer.Steady (producer : Producer) : Prop :=
  ∀ log log', producer.outcome log = producer.outcome log'

/-- All producers in the tree are steady. -/
def Predicate.Steady : Predicate → Prop
  | .computed producer => producer.Steady
  | .element source _ => source.Steady
  | .comparison _ left right => left.Steady ∧ right.Steady
  | .logical _ left right => left.Steady ∧ right.Steady
  | .literal _ | .column _ | .membership .. => True

/-- All producers that the command may ask are steady. -/
def Command.Steady : Command → Prop
  | .filter predicate => predicate.Steady
  | _ => True

namespace Predicate

/-- A steady operand has one value, whenever it is evaluated. -/
theorem Steady.answer_evaluate {p : Predicate} (h : p.Steady) (a a' : CallLog) :
    (a.answer p.evaluate).1 = (a'.answer p.evaluate).1 := by
  induction p generalizing a a' with
  | computed producer => rw [evaluate, CallLog.answer_ask, CallLog.answer_ask, h a a']
  | element source index ih =>
    have same := ih h a a'
    rw [evaluate, CallLog.answer_bind, CallLog.answer_bind]
    revert same
    rcases a.answer source.evaluate with ⟨e | value, log⟩ <;>
      rcases a'.answer source.evaluate with ⟨e' | value', log'⟩
    · exact id
    · intro same
      cases same
    · intro same
      cases same
    · intro same
      cases same
      dsimp only
      cases value.element index <;> rfl
  | _ => rfl

theorem Answered.of_eq {op : Comparison} {x y : Except StatementError Value} (h : x = y) :
    Answered Eq op x y := by
  subst h
  cases x with
  | ok value => exact ⟨rfl, rfl⟩
  | error e => rfl

/-- The operand of a comparison is as steady as its two sides. -/
theorem Steady.operand {op side : Comparison} {member : String} {left right operand : Predicate}
    (hleft : left.Steady) (hright : right.Steady)
    (h : columnSide? op left right = some (side, member, operand)) : operand.Steady := by
  unfold columnSide? at h
  split at h
  · cases h
    exact hright
  · cases h
    exact hleft
  · cases h

/-- A steady predicate is its own twin, whatever has been asked on either side. -/
theorem Steady.twins {p : Predicate} (h : p.Steady) (a a' : CallLog) :
    ∃ b b', Twins Eq a a' p p b b' := by
  induction p generalizing a a' with
  | logical op left right ihl ihr =>
    obtain ⟨b, b', first⟩ := ihl h.1 a a'
    obtain ⟨c, c', second⟩ := ihr h.2 b b'
    exact ⟨c, c', .logical first second⟩
  | comparison op left right ihl ihr =>
    cases hside : columnSide? op left right with
    | none => exact ⟨a, a', .columnless hside hside rfl rfl⟩
    | some found =>
      obtain ⟨side, member, operand⟩ := found
      have steady : operand.Steady := .operand h.1 h.2 hside
      exact ⟨_, _, .compared hside hside (.of_eq (steady.answer_evaluate a a'))⟩
  | membership member values => exact ⟨a, a', .membership (List.forall₂_same.2 fun _ _ => rfl)⟩
  | literal value => exact ⟨a, a', .literal⟩
  | column | computed | element => exact ⟨a, a', .operand rfl rfl rfl⟩

/-- So it is written alike on both sides of a relation that keeps nothing of what has been asked. -/
theorem Steady.compile_alongside {p : Predicate} (h : p.Steady) {d : Dialect}
    {R : Writer → Writer → Prop} (P : Writer.Parallel Eq d d R)
    (ask : ∀ {w v}, R w v → ∀ calls calls', R { w with calls } { v with calls := calls' })
    (t : Table) : Writing.Alongside R (p.compile d t) (p.compile d t) := by
  intro w v related
  obtain ⟨b, b', twins⟩ := h.twins w.calls v.calls
  exact ((compile_paired P ask t twins).weaken id (fun after => ⟨rfl, after.1⟩) id)
    ⟨related, rfl, rfl⟩

end Predicate

/-- And so is every steady command. -/
theorem Command.Steady.write_alongside {c : Command} (h : c.Steady) {d : Dialect}
    {R : Writer → Writer → Prop} (P : Writer.Parallel Eq d d R)
    (ask : ∀ {w v}, R w v → ∀ calls calls', R { w with calls } { v with calls := calls' })
    (t : Table) : Writing.Alongside R (c.write d t) (c.write d t) :=
  c.write_paired P t fun p hp => by
    subst hp
    exact Predicate.Steady.compile_alongside h P ask t

namespace Builder

/-! ## Runs -/

/-- The builder at the end of a run that goes on after failures. -/
def after (b : Builder) (steps : List Step) : Builder :=
  ((b.performAll steps).map Prod.snd).getLastD b

/-- The commands that succeed in a run that goes on after failures. -/
def kept (b : Builder) (cs : List Command) : List Command :=
  ((cs.zip (b.performAll (cs.map .command))).filter fun r => r.2.1.isOk).map Prod.fst

theorem performAll_command (b : Builder) (c : Command) (rest : List Step) :
    b.performAll (.command c :: rest) = b.command c :: (b.command c).2.performAll rest := rfl

theorem after_of_perform? {b : Builder} {s : Step} {result : Except StatementError Unit × Builder}
    (performed : b.perform? s = some result) (rest : List Step) :
    b.after (s :: rest) = result.2.after rest := by
  unfold after
  rw [performAll, performed]
  dsimp only
  rw [List.map_cons, List.getLastD_cons]

theorem after_command (b : Builder) (c : Command) (rest : List Step) :
    b.after (.command c :: rest) = (b.command c).2.after rest :=
  after_of_perform? rfl rest

@[simp] theorem kept_nil (b : Builder) : b.kept [] = [] := rfl

theorem kept_cons_ok {b b' : Builder} {c : Command} (h : b.command c = (.ok (), b'))
    (cs : List Command) : b.kept (c :: cs) = c :: b'.kept cs := by
  unfold kept
  rw [List.map_cons, performAll_command, h, List.zip_cons_cons, List.filter_cons_of_pos rfl,
    List.map_cons]

theorem kept_cons_error {b b' : Builder} {c : Command} {e : StatementError}
    (h : b.command c = (.error e, b')) (cs : List Command) : b.kept (c :: cs) = b'.kept cs := by
  unfold kept
  rw [List.map_cons, performAll_command, h, List.zip_cons_cons,
    List.filter_cons_of_neg Bool.false_ne_true]

/-- Two builders that have made the same statement with the same steps, over one table and one
dialect. What they asked and reported may differ. -/
structure Alike (b b' : Builder) : Prop where
  dialect : b.dialect = b'.dialect
  table : b.table = b'.table
  steps : b.steps = b'.steps
  writer : Writer.Alike Eq b.writer b'.writer

theorem Alike.query_eq {b b' : Builder} (h : b.Alike b') : b.query = b'.query := by
  unfold query
  rw [h.writer.text, h.writer.parameters_eq]

/-- A steady command that one of them runs with success, the other does too, and they stay alike. -/
theorem Alike.command_ok {b b' c : Builder} (h : b.Alike b') {cmd : Command} (steady : cmd.Steady)
    (hc : b.command cmd = (.ok (), c)) :
    ∃ c', b'.command cmd = (.ok (), c') ∧ c.Alike c' := by
  have written := steady.write_alongside (Writer.Alike.parallel_eq b.dialect)
    (fun h _ _ => ⟨h.text, h.collected, h.entries⟩) b.table
  obtain ⟨outcome, alike⟩ := written.same h.writer
  obtain ⟨w, hexec, rfl⟩ := eq_of_command_ok hc
  rw [hexec] at outcome alike
  rw [h.dialect, h.table] at outcome alike
  have other : b'.writer.exec (cmd.write b'.dialect b'.table) =
      (.ok (), (b'.writer.exec (cmd.write b'.dialect b'.table)).2) := Prod.ext outcome.symm rfl
  exact ⟨_, Builder.command_ok other, h.dialect, h.table,
    congrArg (· ++ [cmd.name]) h.steps, alike⟩

/-- A command that fails on one of two builders leaves them alike. -/
theorem Alike.command_error {b b' c : Builder} (h : b.Alike b') {cmd : Command}
    {e : StatementError} (hc : b.command cmd = (.error e, c)) : c.Alike b' := by
  obtain ⟨text, parameters, steps⟩ := Builder.command_error hc
  obtain ⟨w, -, rfl⟩ := eq_of_command_error hc
  exact ⟨h.dialect, h.table, h.steps,
    .of_eq (text.trans h.writer.text) (parameters.trans h.writer.parameters_eq)⟩

/-- The run without the failed commands keeps pace with the whole run. -/
theorem Alike.keeps_pace {b b' : Builder} (h : b.Alike b') {cs : List Command}
    (steady : ∀ c ∈ cs, c.Steady) :
    (∀ r ∈ b'.performAll ((b.kept cs).map .command), r.1 = .ok ()) ∧
      (b.after (cs.map .command)).Alike (b'.after ((b.kept cs).map .command)) := by
  induction cs generalizing b b' with
  | nil =>
    rw [List.map_nil, kept_nil, List.map_nil, performAll]
    exact ⟨List.forall_mem_nil _, h⟩
  | cons c cs ih =>
    have later : ∀ c ∈ cs, c.Steady := fun c hc => steady c (List.mem_cons_of_mem _ hc)
    rw [List.map_cons, after_command]
    rcases hc : b.command c with ⟨e | ⟨⟩, mid⟩
    · -- the shorter run does not have this command, and waits
      rw [kept_cons_error hc]
      exact ih (h.command_error hc) later
    · obtain ⟨mid', hc', alike⟩ := h.command_ok (steady c List.mem_cons_self) hc
      obtain ⟨ok, last⟩ := ih alike later
      rw [kept_cons_ok hc, List.map_cons, after_command, performAll_command, hc']
      refine ⟨fun r hr => ?_, last⟩
      rcases List.mem_cons.1 hr with rfl | hr
      · rfl
      · exact ok r hr

/-- A failing step leaves no trace on the rest of the run. Of any commands, run one after the other
past their failures, the ones that succeed make the same statement alone: the same text, the same
parameters and the same names of steps, and none of them fails there. -/
theorem performAll_kept (b : Builder) (cs : List Command) (steady : ∀ c ∈ cs, c.Steady) :
    (∀ r ∈ b.performAll ((b.kept cs).map .command), r.1 = .ok ()) ∧
      (b.after ((b.kept cs).map .command)).query = (b.after (cs.map .command)).query ∧
      (b.after ((b.kept cs).map .command)).steps = (b.after (cs.map .command)).steps := by
  have self : b.Alike b := ⟨rfl, rfl, rfl, .of_eq rfl rfl⟩
  obtain ⟨ok, alike⟩ := self.keeps_pace steady
  exact ⟨ok, alike.query_eq.symm, alike.steps.symm⟩

/-- A deletion, a condition that fails behind the parameter it has bound, one that succeeds, and an
ordering by a member that the table does not have. -/
def attempts : List Command :=
  [ .delete,
    .filter (.logical .and (.comparison .gt (.column "level") (.literal (.int 1)))
      (.comparison .eq (.column "colour") (.literal (.text "red")))),
    .filter (.comparison .eq (.column "level") (.computed (.constant "current" (.int 5)))),
    .orderBy "colour" .descending ]

theorem performAll_kept_attempts :
    let b : Builder := { dialect := .sqlite, table := Account.table }
    (∀ c ∈ attempts, c.Steady) ∧
      (b.after ((b.kept attempts).map .command)).query = (b.after (attempts.map .command)).query ∧
      (b.after ((b.kept attempts).map .command)).steps =
        (b.after (attempts.map .command)).steps := by
  intro b
  have steady : ∀ c ∈ attempts, c.Steady := by
    simp [attempts, Command.Steady, Predicate.Steady, Producer.Steady, Producer.constant]
  exact ⟨steady, (performAll_kept b attempts steady).2⟩

end Builder

end BoundSql
