import Mathlib.Data.List.Forall2
import BoundSql.Proofs.Composition

/-!
# Two runs side by side

What a statement depends on is said with two runs: from two statements in some relation, two
computations end alike. `Writing.Paired` is that judgement, with one relation before, one after a
success of both and one after a failure of both; that one succeeds and the other fails is ruled out,
and so are two different failures.

A relation that all single acts keep (`Writer.Parallel`) is kept by every condition and every
command: `Predicate.compile_paired` and `Command.write_paired`. The two dialects may differ but for
the size of a chunk, and the values bound may differ as far as a relation `V` says. The predicates
may differ in their operands (`Predicate.Twins`), which are evaluated as the run reaches them, from
the calls made until then.
-/

namespace BoundSql

namespace Writing

variable {α β γ δ : Type}

/-- From statements related by `pre`, both computations succeed and end in `post`, or both fail with
one error and end in `fail`. -/
def Paired (pre : Writer → Writer → Prop) (x : Writing α) (y : Writing β)
    (post : α → β → Writer → Writer → Prop) (fail : Writer → Writer → Prop) : Prop :=
  ∀ ⦃w v⦄, pre w v →
    match w.exec x, v.exec y with
    | (.ok a, w'), (.ok b, v') => post a b w' v'
    | (.error e, w'), (.error e', v') => e = e' ∧ fail w' v'
    | _, _ => False

/-- Both computations keep a relation, and a success of both has one result. -/
abbrev Alongside (R : Writer → Writer → Prop) (x y : Writing α) : Prop :=
  Paired R x y (fun a b w v => a = b ∧ R w v) R

namespace Paired

variable {pre fail : Writer → Writer → Prop}

theorem bind {M : α → β → Writer → Writer → Prop} {post : γ → δ → Writer → Writer → Prop}
    {x : Writing α} {y : Writing β} {f : α → Writing γ} {g : β → Writing δ}
    (hxy : Paired pre x y M fail) (hfg : ∀ a b, Paired (M a b) (f a) (g b) post fail) :
    Paired pre (x >>= f) (y >>= g) post fail := by
  intro w v related
  have first := hxy related
  rw [Writer.exec_bind, Writer.exec_bind]
  revert first
  rcases w.exec x with ⟨e | a, w'⟩ <;> rcases v.exec y with ⟨e' | b, v'⟩
  · exact id
  · exact False.elim
  · exact False.elim
  · exact fun first => hfg a b first

theorem pure {post : α → β → Writer → Writer → Prop} {a : α} {b : β}
    (h : ∀ w v, pre w v → post a b w v) :
    Paired pre (pure a : Writing α) (pure b : Writing β) post fail :=
  fun _ _ related => h _ _ related

/-- An error ends both sides. -/
theorem throw {post : α → β → Writer → Writer → Prop} (e : StatementError)
    (h : ∀ w v, pre w v → fail w v) :
    Paired pre (throw e : Writing α) (throw e : Writing β) post fail :=
  fun _ _ related => ⟨rfl, h _ _ related⟩

/-- Less may be known before, and more be claimed after. -/
theorem weaken {pre' fail' : Writer → Writer → Prop}
    {post post' : α → β → Writer → Writer → Prop} {x : Writing α} {y : Writing β}
    (h : Paired pre x y post fail) (before : ∀ {w v}, pre' w v → pre w v)
    (after : ∀ {a b w v}, post a b w v → post' a b w v)
    (failed : ∀ {w v}, fail w v → fail' w v) : Paired pre' x y post' fail' := by
  intro w v related
  have given := h (before related)
  revert given
  rcases w.exec x with ⟨e | a, w'⟩ <;> rcases v.exec y with ⟨e' | b, v'⟩
  · exact fun given => ⟨given.1, failed given.2⟩
  · exact id
  · exact id
  · exact after

theorem ofExcept (x : Except StatementError α) (h : ∀ {w v}, pre w v → fail w v) :
    Paired pre (Writing.ofExcept x) (Writing.ofExcept x) (fun a b w v => a = b ∧ pre w v) fail := by
  cases x with
  | ok a => exact pure fun _ _ related => ⟨rfl, related⟩
  | error e => exact throw e fun _ _ related => h related

/-- Computations that are alongside one another have one outcome, and end related. -/
theorem same {R : Writer → Writer → Prop} {x y : Writing α}
    (h : Paired pre x y (fun a b w v => a = b ∧ R w v) R) {w v : Writer} (related : pre w v) :
    (w.exec x).1 = (v.exec y).1 ∧ R (w.exec x).2 (v.exec y).2 := by
  have ends := h related
  revert ends
  rcases w.exec x with ⟨e | a, w'⟩ <;> rcases v.exec y with ⟨e' | b, v'⟩
  · exact fun both => ⟨congrArg Except.error both.1, both.2⟩
  · exact False.elim
  · exact False.elim
  · exact fun both => ⟨congrArg Except.ok both.1, both.2⟩

end Paired

theorem Alongside.bind {R : Writer → Writer → Prop} {x y : Writing α} {f g : α → Writing β}
    (hxy : Alongside R x y) (hfg : ∀ a, Alongside R (f a) (g a)) :
    Alongside R (x >>= f) (y >>= g) := by
  refine Paired.bind hxy fun a b => ?_
  intro w v h
  obtain ⟨rfl, related⟩ := h
  exact hfg a related

/-- What follows a check is compared as far as the check passes. -/
theorem Alongside.checked {R : Writer → Writer → Prop} {x : Except StatementError α}
    {f g : α → Writing β} (hfg : ∀ a, x = .ok a → Alongside R (f a) (g a)) :
    Alongside R (ofExcept x >>= f) (ofExcept x >>= g) := by
  cases x with
  | ok a => exact hfg a rfl
  | error e => exact Paired.throw e fun _ _ related => related

end Writing

/-- A relation between statements under two dialects that every single act of writing keeps; the
values bound are related by `V`. -/
structure Writer.Parallel (V : Value → Value → Prop) (d d' : Dialect)
    (R : Writer → Writer → Prop) : Prop where
  chunkSize : d.chunkSize = d'.chunkSize
  isEmpty : ∀ {w v}, R w v → w.text.isEmpty = v.text.isEmpty
  bound : ∀ {w v}, R w v → w.bound = v.bound
  text : ∀ {w v}, R w v → ∀ s, R { w with text := w.text ++ s } { v with text := v.text ++ s }
  identifier : ∀ {w v}, R w v → ∀ name,
    R { w with text := w.text ++ d.identifier name } { v with text := v.text ++ d'.identifier name }
  tableName : ∀ {w v}, R w v → ∀ t,
    R { w with text := w.text ++ Writing.tableText d t }
      { v with text := v.text ++ Writing.tableText d' t }
  bind : ∀ name {a b}, V a b →
    Writing.Alongside R (Writing.bind d name a) (Writing.bind d' name b)
  report : ∀ {w v}, R w v → ∀ event,
    R { w with events := w.events ++ [event] } { v with events := v.events ++ [event] }
  null : V .null .null
  list : ∀ {xs ys}, List.Forall₂ V xs ys → V (.list xs) (.list ys)

/-- A relation between two statements, each with what it has asked so far. -/
def Writer.After (R : Writer → Writer → Prop) (log log' : CallLog) (w v : Writer) : Prop :=
  R w v ∧ w.calls = log ∧ v.calls = log'

namespace Writer.Parallel

variable {V : Value → Value → Prop} {d d' : Dialect} {R : Writer → Writer → Prop}

/-- Writing asks no producer, so it also keeps what each side has asked so far. -/
theorem asked (P : Parallel V d d' R) (log log' : CallLog) :
    Parallel V d d' (After R log log') where
  chunkSize := P.chunkSize
  isEmpty h := P.isEmpty h.1
  bound h := P.bound h.1
  text h s := ⟨P.text h.1 s, h.2⟩
  identifier h name := ⟨P.identifier h.1 name, h.2⟩
  tableName h t := ⟨P.tableName h.1 t, h.2⟩
  report h event := ⟨P.report h.1 event, h.2⟩
  null := P.null
  list := P.list
  bind name a b hab w v h := by
    have kept : ∀ (u : Writer) (d : Dialect) (c : Value),
        (u.exec (Writing.bind d name c)).2.calls = u.calls := by
      intro u d c
      rw [exec_bindName]
      cases (u.parameters.getD Parameters.empty).add name c <;> rfl
    have first := P.bind name hab h.1
    have left := kept w d a
    have right := kept v d' b
    revert first left right
    rcases w.exec (Writing.bind d name a) with ⟨e | _, w'⟩ <;>
      rcases v.exec (Writing.bind d' name b) with ⟨e' | _, v'⟩
    · exact fun first left right => ⟨first.1, first.2, left.trans h.2.1, right.trans h.2.2⟩
    · exact fun first _ _ => first.elim
    · exact fun first _ _ => first.elim
    · exact fun first left right => ⟨first.1, first.2, left.trans h.2.1, right.trans h.2.2⟩

variable (P : Parallel V d d' R)

include P

theorem pairText (s : String) : Writing.Alongside R (Writing.text s) (Writing.text s) :=
  fun _ _ h => ⟨rfl, P.text h s⟩

theorem pairIdentifier (name : String) :
    Writing.Alongside R (Writing.identifier d name) (Writing.identifier d' name) :=
  fun _ _ h => ⟨rfl, P.identifier h name⟩

theorem pairTableName (t : Table) :
    Writing.Alongside R (Writing.tableName d t) (Writing.tableName d' t) := by
  rw [Writing.tableName_eq_text, Writing.tableName_eq_text]
  exact fun _ _ h => ⟨rfl, P.tableName h t⟩

theorem pairReport (event : Event) :
    Writing.Alongside R (Writing.report event) (Writing.report event) :=
  fun _ _ h => ⟨rfl, P.report h event⟩

theorem pairSeparator (s : String) :
    Writing.Alongside R (Writing.separator s) (Writing.separator s) := by
  intro w v h
  have same := P.isEmpty h
  rw [exec_separator, exec_separator]
  refine ⟨rfl, ?_⟩
  cases empty : w.text.isEmpty with
  | true => rwa [if_pos rfl, if_pos (same ▸ empty)]
  | false => rw [if_neg nofun, if_neg (by rw [← same, empty]; nofun)]; exact P.text h s

theorem pairBindNext {a b : Value} (hab : V a b) :
    Writing.Alongside R (Writing.bindNext d a) (Writing.bindNext d' b) := by
  intro w v h
  rw [exec_bindNext, exec_bindNext, P.bound h]
  exact P.bind _ hab h

/-- Items that correspond, with one text between them. -/
theorem pairSeparated {α β : Type} {Q : α → β → Prop} {f : α → Writing Unit} {g : β → Writing Unit}
    {xs : List α} {ys : List β} (between : String) (hxy : List.Forall₂ Q xs ys)
    (hfg : ∀ {x y}, Q x y → Writing.Alongside R (f x) (g y)) :
    Writing.Alongside R (Writing.separated between f xs) (Writing.separated between g ys) := by
  induction hxy with
  | nil => exact .pure fun _ _ h => ⟨rfl, h⟩
  | @cons x y xs ys hd tl ih =>
    cases tl with
    | nil => exact hfg hd
    | cons hd' tl => exact .bind (hfg hd) fun _ => .bind (P.pairText between) fun _ => ih

end Writer.Parallel

/-- Two runs of one composition keep what its acts keep. -/
theorem Writing.Composed.alongside {ι α : Type} {dialect : ι → Dialect} {N : String → Prop}
    {x : ι → Writing α} {V : Value → Value → Prop} {R : Writer → Writer → Prop}
    (h : Composed dialect N x) (i j : ι) (P : Writer.Parallel V (dialect i) (dialect j) R)
    (self : ∀ value, V value value)
    (ask : ∀ {β : Type} (y : Asking β), Alongside R (Writing.asking y) (Writing.asking y)) :
    Alongside R (x i) (x j) := by
  induction h with
  | pure a => exact .pure fun _ _ related => ⟨rfl, related⟩
  | throw plain => exact .throw _ fun _ _ related => related
  | bind hx hf ihx ihf => exact ihx.bind ihf
  | text s => exact P.pairText s
  | identifier name => exact P.pairIdentifier name
  | tableName t => exact P.pairTableName t
  | separator s => exact P.pairSeparator s
  | report event => exact P.pairReport event
  | asking plain => exact ask _
  | bindName allowed value => exact P.bind _ (self value)
  | bindNext value => exact P.pairBindNext (self value)

/-! ## Conditions -/

/-- Lists that correspond are cut at the same places. -/
theorem chunks_forall₂ {α β : Type} {Q : α → β → Prop} {n m : Nat} (hn : 0 < n) (hm : 0 < m)
    (same : n = m) {xs : List α} {ys : List β} (h : List.Forall₂ Q xs ys) :
    List.Forall₂ (List.Forall₂ Q) (chunks n hn xs) (chunks m hm ys) := by
  subst same
  fun_induction chunks n hn xs generalizing ys with
  | case1 => cases h; rw [chunks]; exact .nil
  | case2 x xs ih =>
    cases h with
    | cons hd tl =>
      rw [chunks]
      exact .cons (List.forall₂_take n (.cons hd tl)) (ih (List.forall₂_drop n (.cons hd tl)))

namespace Predicate

/-- Two operands end alike for a comparison: both fail with one error, or their values are related
and both or neither turn the comparison into a null test. -/
def Answered (V : Value → Value → Prop) (op : Comparison) :
    Except StatementError Value → Except StatementError Value → Prop
  | .ok a, .ok b => V a b ∧ op.testsNull a = op.testsNull b
  | .error e, .error e' => e = e'
  | _, _ => False

/-- A node that has a value or names a column, and is no constant. -/
def isOperand : Predicate → Bool
  | .column _ | .computed _ | .element .. => true
  | _ => false

/-- Two predicates that differ at most in their values: `Twins V log log' p q after after'` says so
when `p` is written after the calls `log` and `q` after `log'`, and the last two are the calls made
by the end. Operands that are compared with a column are compared by how they end there; no other
operand is evaluated, and its kind is all that counts. -/
inductive Twins (V : Value → Value → Prop) :
    CallLog → CallLog → Predicate → Predicate → CallLog → CallLog → Prop
  | logical {a a' b b' c c' : CallLog} {op : Connective} {left left' right right' : Predicate}
      (hleft : Twins V a a' left left' b b') (hright : Twins V b b' right right' c c') :
      Twins V a a' (.logical op left right) (.logical op left' right') c c'
  | compared {a a' : CallLog} {op side : Comparison} {member : String}
      {left left' right right' operand operand' : Predicate}
      (hp : columnSide? op left right = some (side, member, operand))
      (hq : columnSide? op left' right' = some (side, member, operand'))
      (ends : Answered V side (a.answer operand.evaluate).1 (a'.answer operand'.evaluate).1) :
      Twins V a a' (.comparison op left right) (.comparison op left' right')
        (a.answer operand.evaluate).2 (a'.answer operand'.evaluate).2
  | columnless {a a' : CallLog} {op : Comparison} {left left' right right' : Predicate}
      (hp : columnSide? op left right = none) (hq : columnSide? op left' right' = none)
      (hleft : left.kind = left'.kind) (hright : right.kind = right'.kind) :
      Twins V a a' (.comparison op left right) (.comparison op left' right') a a'
  | membership {a a' : CallLog} {member : String} {xs ys : List Value}
      (h : List.Forall₂ V xs ys) :
      Twins V a a' (.membership member xs) (.membership member ys) a a'
  | literal {a a' : CallLog} {value : Value} : Twins V a a' (.literal value) (.literal value) a a'
  | operand {a a' : CallLog} {p q : Predicate} (hp : p.isOperand = true) (hq : q.isOperand = true)
      (kind : p.kind = q.kind) : Twins V a a' p q a a'

section

variable {V : Value → Value → Prop} {d d' : Dialect} {R : Writer → Writer → Prop}
variable (P : Writer.Parallel V d d' R)

/-- An operand is no condition. -/
theorem compile_operand (t : Table) {p : Predicate} (h : p.isOperand = true) :
    p.compile d t =
      throw (.unsupportedPredicate (p.kind ++ " cannot be used as a condition")) := by
  cases p with
  | column | computed | element => rfl
  | _ => cases h

/-- An operand is not put in parentheses. -/
theorem grouped_of_isOperand {p : Predicate} (h : p.isOperand = true) (op : Connective) :
    p.grouped op = false := by
  cases p with
  | column | computed | element => rfl
  | _ => cases h

/-- Corresponding conditions are both put in parentheses, or neither. -/
theorem Twins.grouped_eq {a a' b b' : CallLog} {p q : Predicate} (h : Twins V a a' p q b b')
    (op : Connective) : p.grouped op = q.grouped op := by
  cases h with
  | operand hp hq => rw [grouped_of_isOperand hp, grouped_of_isOperand hq]
  | _ => rfl

include P

/-- A comparison is one text on both sides if both test for null or neither does. -/
theorem writeComparison_paired (c : Column) (op : Comparison) {a b : Value} (hab : V a b)
    (tests : op.testsNull a = op.testsNull b) :
    Writing.Alongside R (writeComparison d c op a) (writeComparison d' c op b) := by
  rw [writeComparison_eq, writeComparison_eq, tests]
  refine .bind (P.pairIdentifier _) fun _ => ?_
  split
  · exact P.pairText _
  · exact .bind (P.pairText _) fun _ => P.pairBindNext hab

theorem writeInTest_paired (c : Column) {xs ys : List Value} (h : List.Forall₂ V xs ys) :
    Writing.Alongside R (writeInTest d c xs) (writeInTest d' c ys) :=
  .bind (P.pairIdentifier _) fun _ => .bind (P.pairText _) fun _ => P.pairBindNext (P.list h)

/-- A membership is split alike on both sides. -/
theorem writeMembership_paired (c : Column) {xs ys : List Value} (h : List.Forall₂ V xs ys) :
    Writing.Alongside R (writeMembership d c xs) (writeMembership d' c ys) := by
  have parts := chunks_forall₂ d.chunkSize_pos d'.chunkSize_pos P.chunkSize h
  rw [writeMembership_eq, writeMembership_eq]
  revert parts
  generalize chunks d.chunkSize d.chunkSize_pos xs = ps
  generalize chunks d'.chunkSize d'.chunkSize_pos ys = qs
  intro parts
  cases parts with
  | nil => exact P.pairText _
  | cons hd tl =>
    cases tl with
    | nil => exact writeInTest_paired P c hd
    | cons hd' tl =>
      have count := List.Forall₂.length_eq tl
      simp only [h.length_eq, List.length_cons, count]
      refine .bind (P.pairReport _) fun _ => ?_
      refine .bind (P.pairText _) fun _ => ?_
      refine .bind ?_ fun _ => P.pairText _
      exact P.pairSeparated _ (.cons hd (.cons hd' tl)) (writeInTest_paired P c)

/-- Parentheses around what corresponds. -/
theorem writeGrouped_paired {log log' last last' : CallLog} {x y : Writing Unit} (grouped : Bool)
    (h : Writing.Paired (Writer.After R log log') x y (fun _ _ => Writer.After R last last') R) :
    Writing.Paired (Writer.After R log log') (writeGrouped grouped x) (writeGrouped grouped y)
      (fun _ _ => Writer.After R last last') R := by
  have bracket : ∀ (a b : CallLog) (s : String),
      Writing.Paired (Writer.After R a b) (Writing.text s) (Writing.text s)
        (fun _ _ => Writer.After R a b) R :=
    fun a b s => ((P.asked a b).pairText s).weaken id And.right And.left
  cases grouped with
  | true => exact .bind (bracket _ _ _) fun _ _ => .bind h fun _ _ => bracket _ _ _
  | false => exact h

omit P in
/-- Evaluating two operands that end alike passes on two related values, or one error. -/
theorem asking_paired
    (ask : ∀ {w v}, R w v → ∀ calls calls', R { w with calls } { v with calls := calls' })
    {a a' : CallLog} {side : Comparison} {x y : Asking Value}
    (ends : Answered V side (a.answer x).1 (a'.answer y).1) :
    Writing.Paired (Writer.After R a a') (Writing.asking x) (Writing.asking y)
      (fun value value' w v => (V value value' ∧ side.testsNull value = side.testsNull value') ∧
        Writer.After R (a.answer x).2 (a'.answer y).2 w v) R := by
  intro w v h
  obtain ⟨related, rfl, rfl⟩ := h
  rw [Writer.exec_asking, Writer.exec_asking]
  revert ends
  rcases w.calls.answer x with ⟨e | value, log⟩ <;> rcases v.calls.answer y with ⟨e' | value', log'⟩
  · exact fun same => ⟨same, ask related _ _⟩
  · exact False.elim
  · exact False.elim
  · exact fun both => ⟨both, ask related _ _, rfl, rfl⟩

/-- Two predicates that are twins are written alike over one table. -/
theorem compile_paired
    (ask : ∀ {w v}, R w v → ∀ calls calls', R { w with calls } { v with calls := calls' })
    (t : Table) {a a' b b' : CallLog} {p q : Predicate} (h : Twins V a a' p q b b') :
    Writing.Paired (Writer.After R a a') (p.compile d t) (q.compile d' t)
      (fun _ _ => Writer.After R b b') R := by
  induction h with
  | logical hleft hright ihl ihr =>
    rw [compile, compile, hleft.grouped_eq, hright.grouped_eq]
    refine .bind (writeGrouped_paired P _ ihl) fun _ _ =>
      .bind (M := fun _ _ => Writer.After R _ _) ?_ fun _ _ => writeGrouped_paired P _ ihr
    exact ((P.asked _ _).pairText _).weaken id And.right And.left
  | @compared a a' op side member left left' right right' operand operand' hp hq ends =>
    -- the member is looked up before the operand is evaluated, so an unknown one ends both runs
    rw [compile, compile, hp, hq]
    refine .bind (.ofExcept _ And.left) fun c c' => ?_
    refine .bind (M := fun value value' w v =>
      c = c' ∧ (V value value' ∧ side.testsNull value = side.testsNull value') ∧
        Writer.After R (a.answer operand.evaluate).2 (a'.answer operand'.evaluate).2 w v) ?_ ?_
    · intro w v h
      obtain ⟨rfl, h⟩ := h
      exact ((asking_paired ask ends).weaken id (fun h => ⟨rfl, h⟩) id) h
    · intro value value' w v h
      obtain ⟨rfl, ⟨hab, tests⟩, h⟩ := h
      exact ((writeComparison_paired (P.asked _ _) c side hab tests).weaken id And.right And.left) h
  | columnless hp hq hleft hright =>
    rw [compile, compile, hp, hq]
    simp only [hleft, hright]
    exact .throw _ fun _ _ h => h.1
  | membership h =>
    rw [compile, compile]
    refine .bind (.ofExcept _ And.left) fun c c' => ?_
    intro w v related
    obtain ⟨rfl, related⟩ := related
    exact ((writeMembership_paired (P.asked _ _) c h).weaken id And.right And.left) related
  | @literal a a' value =>
    cases value with
    | bool b => cases b <;> exact ((P.asked _ _).pairText _).weaken id And.right And.left
    | _ => exact .throw _ fun _ _ h => h.1
  | operand hp hq kind =>
    rw [compile_operand t hp, compile_operand t hq, kind]
    exact .throw _ fun _ _ h => h.1

end

end Predicate

/-! ## Commands -/

namespace Command

variable {V : Value → Value → Prop} {d d' : Dialect} {R : Writer → Writer → Prop}
variable (P : Writer.Parallel V d d' R)

include P

theorem writeLines_paired {f g : Column → Writing Unit}
    (h : ∀ c, Writing.Alongside R (f c) (g c)) {columns : List Column} (some : columns ≠ []) :
    Writing.Alongside R (writeLines f columns) (writeLines g columns) := by
  rw [writeLines_eq_separated f some, writeLines_eq_separated g some]
  refine P.pairSeparated _ (List.forall₂_same.2 fun c _ => (rfl : c = c)) fun {c c'} same => ?_
  subst same
  exact .bind (P.pairText _) fun _ => h c

theorem writeValue_paired (ambient : Bool) (c : Column) :
    Writing.Alongside R (writeValue d ambient c) (writeValue d' ambient c) := by
  unfold writeValue
  split
  · exact P.pairText _
  · exact P.bind _ P.null

theorem writeKey_paired (c : Column) (direction : Direction) :
    Writing.Alongside R (writeKey d c direction) (writeKey d' c direction) := by
  refine .bind (P.pairIdentifier _) fun _ => ?_
  cases direction with
  | ascending => exact .pure fun _ _ h => ⟨rfl, h⟩
  | descending => exact P.pairText _

/-- A command is written alike from both sides, if the condition that it filters by is. -/
theorem write_paired (t : Table) (c : Command)
    (condition : ∀ p, c = .filter p → Writing.Alongside R (p.compile d t) (p.compile d' t)) :
    Writing.Alongside R (c.write d t) (c.write d' t) := by
  cases c with
  | count =>
    refine .bind (P.pairText _) fun _ => ?_
    refine .bind (P.pairIdentifier _) fun _ => ?_
    exact .bind (P.pairText _) fun _ => P.pairTableName t
  | select members =>
    refine .checked fun columns found => ?_
    refine .bind (P.pairText _) fun _ => ?_
    refine .bind (writeLines_paired P ?_ (Table.targetColumns_ne_nil found)) fun _ => ?_
    · intro c
      refine .bind (P.pairIdentifier _) fun _ => ?_
      exact .bind (P.pairText _) fun _ => P.pairIdentifier _
    · exact .bind (P.pairText _) fun _ => P.pairTableName t
  | insert members ambient =>
    refine .checked fun columns found => ?_
    have some := insertColumns_ne_nil found
    refine .bind (P.pairText _) fun _ => ?_
    refine .bind (P.pairTableName t) fun _ => ?_
    refine .bind (P.pairText _) fun _ => ?_
    refine .bind (writeLines_paired P (fun c => P.pairIdentifier _) some) fun _ => ?_
    refine .bind (P.pairText _) fun _ => ?_
    refine .bind (writeLines_paired P (writeValue_paired P ambient) some) fun _ => ?_
    exact P.pairText _
  | update members ambient =>
    refine .checked fun columns found => ?_
    refine .bind (P.pairText _) fun _ => ?_
    refine .bind (P.pairTableName t) fun _ => ?_
    refine .bind (P.pairText _) fun _ => ?_
    refine writeLines_paired P (fun c => ?_) (Table.targetColumns_ne_nil found)
    refine .bind (P.pairIdentifier _) fun _ => ?_
    exact .bind (P.pairText _) fun _ => writeValue_paired P ambient c
  | delete => exact .bind (P.pairText _) fun _ => P.pairTableName t
  | truncate => exact .bind (P.pairText _) fun _ => P.pairTableName t
  | filter p =>
    refine .bind (P.pairSeparator _) fun _ => ?_
    exact .bind (P.pairText _) fun _ => condition p rfl
  | orderBy member direction =>
    refine .bind (.ofExcept _ id) fun c => ?_
    refine .bind (P.pairSeparator _) fun _ => ?_
    exact .bind (P.pairText _) fun _ => writeKey_paired P c direction
  | thenBy member direction =>
    refine .bind (.ofExcept _ id) fun c => ?_
    refine .bind (P.pairSeparator _) fun _ => ?_
    exact .bind (P.pairText _) fun _ => writeKey_paired P c direction

end Command

/-! ## Statements that differ in values only -/

namespace Writer

variable {V : Value → Value → Prop} {w v : Writer}

/-- The same text and the same names in the same order, bound to related values. -/
structure Alike (V : Value → Value → Prop) (w v : Writer) : Prop where
  text : w.text = v.text
  collected : w.parameters.isSome = v.parameters.isSome
  entries : List.Forall₂ (fun a b => a.1 = b.1 ∧ V a.2 b.2) w.entries v.entries

/-- Writers that are alike have bound the same names. -/
theorem Alike.names_eq (h : Alike V w v) : w.names = v.names := by
  unfold names
  rw [← List.forall₂_eq_eq_eq, List.forall₂_map_left_iff, List.forall₂_map_right_iff]
  exact h.entries.imp fun a b same => same.1

/-- With equality of values, they have bound the same parameters. -/
theorem Alike.parameters_eq (h : Alike Eq w v) : w.parameters = v.parameters := by
  refine Writer.parameters_eq h.collected ?_
  rw [← List.forall₂_eq_eq_eq]
  exact h.entries.imp fun a b same => Prod.ext same.1 same.2

theorem Alike.of_eq (text : w.text = v.text) (parameters : w.parameters = v.parameters) :
    Alike Eq w v := by
  refine ⟨text, by rw [parameters], ?_⟩
  unfold Writer.entries
  rw [parameters]
  exact List.forall₂_same.2 fun _ _ => ⟨rfl, rfl⟩

/-- Related values are no obstacle to anything that writes. -/
theorem Alike.parallel (d : Dialect) (null : V .null .null)
    (list : ∀ {xs ys}, List.Forall₂ V xs ys → V (.list xs) (.list ys)) :
    Parallel V d d (Alike V) where
  chunkSize := rfl
  isEmpty h := by rw [h.text]
  bound h := by rw [bound_eq_length, bound_eq_length, h.entries.length_eq]
  text h s := ⟨by rw [h.text], h.collected, h.entries⟩
  identifier h name := ⟨by rw [h.text], h.collected, h.entries⟩
  tableName h t := ⟨by rw [h.text], h.collected, h.entries⟩
  report h event := ⟨h.text, h.collected, h.entries⟩
  null := null
  list := list
  bind name a b hab w v h := by
    by_cases taken : name ∈ w.names
    · rw [exec_bindName_of_mem w d a taken, exec_bindName_of_mem v d b (h.names_eq ▸ taken)]
      exact ⟨rfl, h⟩
    · obtain ⟨p, hp, first⟩ := exec_bindName_of_not_mem w d a taken
      obtain ⟨q, hq, second⟩ := exec_bindName_of_not_mem v d b (h.names_eq ▸ taken)
      rw [first, second]
      refine ⟨rfl, by rw [h.text], rfl, ?_⟩
      rw [entries_some, entries_some, hp, hq]
      exact List.rel_append h.entries (.cons ⟨rfl, hab⟩ .nil)

theorem Alike.parallel_eq (d : Dialect) : Parallel Eq d d (Alike Eq) :=
  Alike.parallel d rfl fun same => by
    rw [List.forall₂_eq_eq_eq] at same
    rw [same]

end Writer

end BoundSql
