import BoundSql.Proofs.Membership

/-!
# What a condition fails with

A condition is written leaf by leaf, from left to right, up to the first leaf that fails.
`Predicate.compile_firstFailure` is the exact law of that, for every tree and every statement that
it is appended to: when a condition is written at all, with which error it is refused otherwise, and
what is bound by then.

What a leaf comes to is given in the order of its checks: faults of its form and its member
(`Predicate.Faulty`), its operand (`Predicate.Yields`), and the names that its values need
(`Predicate.Fails`). `Predicate.Visited` strings the leaves together. It has one result for given
leaves (`Predicate.Visited.unique`), and an induction over the tree shows that writing has this one.
-/

namespace BoundSql

open Writing (Enumerates numbered positional)

namespace Predicate

/-! ## The law of a leaf -/

/-- The conditions that are joined in a tree, from left to right. -/
def leaves : Predicate → List Predicate
  | .logical _ left right => left.leaves ++ right.leaves
  | leaf => [leaf]

/-- Whether a node joins no conditions. -/
def isLeaf : Predicate → Bool
  | .logical .. => false
  | _ => true

/-- Whether a node may stand where a condition is asked for. -/
def isCondition : Predicate → Bool
  | .comparison .. | .logical .. | .membership .. | .literal (.bool _) => true
  | _ => false

/-- The member that a comparison or a membership test is about, and what a comparison compares it
with. Of two columns the left one gives the member. -/
inductive Refers : Predicate → String → Option Predicate → Prop
  | left {op : Comparison} {left right : Predicate} {member : String}
      (column : left.columnName? = some member) :
      Refers (.comparison op left right) member (some right)
  | right {op : Comparison} {left right : Predicate} {member : String}
      (operand : left.columnName? = none) (column : right.columnName? = some member) :
      Refers (.comparison op left right) member (some left)
  | list (member : String) (values : List Value) : Refers (.membership member values) member none

/-- What is wrong with a leaf, whatever the values of its operands are. -/
inductive Faulty (t : Table) : Predicate → StatementError → Prop
  | formless {leaf : Predicate} (operand : leaf.isCondition = false) :
      Faulty t leaf (.unsupportedPredicate (leaf.kind ++ " cannot be used as a condition"))
  | columnless {op : Comparison} {left right : Predicate} (neither : left.columnName? = none)
      (nor : right.columnName? = none) :
      Faulty t (.comparison op left right)
        (.unsupportedPredicate ("comparison between " ++ left.kind ++ " and " ++ right.kind ++
          " has no column operand"))
  | unusable {leaf : Predicate} {member : String} {operand : Option Predicate}
      {e : StatementError} (refers : Refers leaf member operand) (unusable : t.Unusable member e) :
      Faulty t leaf e

/-- What a leaf comes to before its values need a name: an error, or the values that it binds and
the calls made by then. -/
inductive Yields (d : Dialect) (t : Table) (log : CallLog) (leaf : Predicate) :
    Except StatementError (List Value × CallLog) → Prop
  | faulty {e : StatementError} (fault : Faulty t leaf e) : Yields d t log leaf (.error e)
  | valueless {operand : Predicate} {member reason : String} (sound : ∀ e, ¬Faulty t leaf e)
      (refers : Refers leaf member (some operand))
      (failed : (log.answer operand.evaluate).1 = .error (.evaluation reason)) :
      Yields d t log leaf (.error (.evaluation reason))
  | values {values : List Value} {after : CallLog} (sound : ∀ e, ¬Faulty t leaf e)
      (computed : log.answer (leaf.boundValues d.chunkSize) = (.ok values, after)) :
      Yields d t log leaf (.ok (values, after))

/-- How a leaf fails behind some entries, and what it has bound by then: nothing, unless it comes to
a name that is there already. -/
inductive Fails (d : Dialect) (t : Table) (entries : List (String × Value)) (log : CallLog)
    (leaf : Predicate) : StatementError → List Value → Prop
  | refused {e : StatementError} (yields : Yields d t log leaf (.error e)) :
      Fails d t entries log leaf e []
  | duplicate {values : List Value} {after : CallLog} {j : Nat}
      (yields : Yields d t log leaf (.ok (values, after))) (inside : j < values.length)
      (taken : Writer.Taken entries j) (free : ∀ i < j, ¬Writer.Taken entries i) :
      Fails d t entries log leaf (.duplicateParameter (positional (entries.length + j + 1)))
        (values.take j)

/-- How it ends to visit leaves one after the other, behind some entries and calls: what they bind,
and the calls made by all of them, or the error of one behind which no leaf is visited. -/
inductive Visited (d : Dialect) (t : Table) : List (String × Value) → CallLog → List Predicate →
    List Value → Except StatementError CallLog → Prop
  | done {entries : List (String × Value)} {log : CallLog} :
      Visited d t entries log [] [] (.ok log)
  | pass {entries : List (String × Value)} {log between : CallLog} {leaf : Predicate}
      {leaves : List Predicate} {values more : List Value} {ending : Except StatementError CallLog}
      (yields : Yields d t log leaf (.ok (values, between)))
      (free : ∀ j < values.length, ¬Writer.Taken entries j)
      (rest : Visited d t (entries ++ numbered entries.length values) between leaves more ending) :
      Visited d t entries log (leaf :: leaves) (values ++ more) ending
  | fail {entries : List (String × Value)} {log : CallLog} {leaf : Predicate}
      {leaves : List Predicate} {own : List Value} {e : StatementError}
      (fails : Fails d t entries log leaf e own) :
      Visited d t entries log (leaf :: leaves) own (.error e)

/-- The first leaf that fails behind some entries and calls, with its error: those before it pass.
What has been bound by then is what they bind, and what the leaf itself has bound before it
failed. -/
inductive FirstFailure (d : Dialect) (t : Table) (entries : List (String × Value)) (log : CallLog)
    (leaves : List Predicate) : StatementError → List Value → Prop
  | intro {before after : List Predicate} {leaf : Predicate} {values own : List Value}
      {between : CallLog} {e : StatementError} (split : leaves = before ++ leaf :: after)
      (passed : Visited d t entries log before values (.ok between))
      (fails : Fails d t (entries ++ numbered entries.length values) between leaf e own) :
      FirstFailure d t entries log leaves e (values ++ own)

/-! ## One result -/

theorem columnSide?_eq_none_iff {op : Comparison} {left right : Predicate} :
    columnSide? op left right = none ↔ left.columnName? = none ∧ right.columnName? = none := by
  rw [columnSide?_eq]
  cases left.columnName? <;> cases right.columnName? <;> simp

theorem refers_comparison_iff {op : Comparison} {left right : Predicate} {member : String}
    {operand : Option Predicate} :
    Refers (.comparison op left right) member operand ↔
      ∃ side compared, columnSide? op left right = some (side, member, compared) ∧
        operand = some compared := by
  rw [columnSide?_eq]
  constructor
  · intro refers
    cases refers with
    | left column => exact ⟨op, right, by rw [column], rfl⟩
    | right none column => exact ⟨op.mirror, left, by rw [none, column], rfl⟩
  · rintro ⟨side, compared, found, rfl⟩
    split at found
    · next column =>
      cases found
      exact .left column
    · next none column =>
      cases found
      exact .right none column
    · cases found

section

variable {d : Dialect} {t : Table} {entries : List (String × Value)} {log : CallLog}
  {leaf : Predicate}

theorem Refers.unique {member member' : String} {operand operand' : Option Predicate}
    (h : Refers leaf member operand) (h' : Refers leaf member' operand') :
    member = member' ∧ operand = operand' := by
  cases leaf with
  | comparison op left right =>
    obtain ⟨side, compared, found, rfl⟩ := refers_comparison_iff.1 h
    obtain ⟨side', compared', found', rfl⟩ := refers_comparison_iff.1 h'
    rw [found] at found'
    cases found'
    exact ⟨rfl, rfl⟩
  | membership =>
    cases h
    cases h'
    exact ⟨rfl, rfl⟩
  | _ => cases h

theorem Refers.isCondition {member : String} {operand : Option Predicate}
    (h : Refers leaf member operand) : leaf.isCondition = true := by
  cases h <;> rfl

/-- A leaf that is about a member has a fault only in that member. -/
theorem Refers.faulty_iff {member : String} {operand : Option Predicate} {e : StatementError}
    (h : Refers leaf member operand) : Faulty t leaf e ↔ t.Unusable member e := by
  constructor
  · intro fault
    cases fault with
    | formless none => exact nomatch none.symm.trans h.isCondition
    | columnless neither nor =>
      obtain ⟨side, compared, found, -⟩ := refers_comparison_iff.1 h
      exact nomatch (columnSide?_eq_none_iff.2 ⟨neither, nor⟩).symm.trans found
    | unusable refers unusable =>
      obtain ⟨rfl, -⟩ := h.unique refers
      exact unusable
  · exact .unusable h

theorem Faulty.unique {e e' : StatementError} (h : Faulty t leaf e) (h' : Faulty t leaf e') :
    e = e' := by
  cases h with
  | formless none =>
    cases h' with
    | formless => rfl
    | columnless => cases none
    | unusable refers => exact nomatch none.symm.trans refers.isCondition
  | columnless neither nor =>
    cases h' with
    | formless none => cases none
    | columnless => rfl
    | unusable refers =>
      obtain ⟨side, compared, found, -⟩ := refers_comparison_iff.1 refers
      exact nomatch (columnSide?_eq_none_iff.2 ⟨neither, nor⟩).symm.trans found
  | unusable refers unusable => exact unusable.unique (refers.faulty_iff.1 h')

/-- A comparison without an operand's value has no values to bind. -/
theorem Refers.answer_boundValues {member : String} {operand : Predicate} {e : StatementError}
    (h : Refers leaf member (some operand)) (size : Nat)
    (failed : (log.answer operand.evaluate).1 = .error e) :
    (log.answer (leaf.boundValues size)).1 = .error e := by
  cases leaf with
  | comparison op left right =>
    obtain ⟨side, compared, found, same⟩ := refers_comparison_iff.1 h
    cases same
    rw [answer_boundValues_compared found]
    rcases answered : log.answer operand.evaluate with ⟨outcome, after⟩
    rw [answered] at failed
    cases failed
    rfl
  | _ => cases h

theorem Yields.unique {r r' : Except StatementError (List Value × CallLog)}
    (h : Yields d t log leaf r) (h' : Yields d t log leaf r') : r = r' := by
  cases h with
  | faulty fault =>
    cases h' with
    | faulty fault' => exact congrArg _ (fault.unique fault')
    | valueless sound => exact absurd fault (sound _)
    | values sound => exact absurd fault (sound _)
  | valueless sound refers failed =>
    have none := refers.answer_boundValues d.chunkSize failed
    cases h' with
    | faulty fault => exact absurd fault (sound _)
    | valueless sound' refers' failed' =>
      have none' := refers'.answer_boundValues d.chunkSize failed'
      exact congrArg _ (Except.error.inj (none.symm.trans none'))
    | values sound' computed =>
      rw [computed] at none
      cases none
  | values sound computed =>
    cases h' with
    | faulty fault => exact absurd fault (sound _)
    | valueless sound' refers failed =>
      have none := refers.answer_boundValues d.chunkSize failed
      rw [computed] at none
      cases none
    | values sound' computed' =>
      rw [computed] at computed'
      cases computed'
      rfl

/-- A leaf fails in one way. -/
theorem Fails.unique {e e' : StatementError} {own own' : List Value}
    (h : Fails d t entries log leaf e own) (h' : Fails d t entries log leaf e' own') :
    e = e' ∧ own = own' := by
  cases h with
  | refused yields =>
    cases h' with
    | refused yields' =>
      cases yields.unique yields'
      exact ⟨rfl, rfl⟩
    | duplicate yields' => exact nomatch yields.unique yields'
  | @duplicate values after j yields inside taken free =>
    cases h' with
    | refused yields' => exact nomatch yields.unique yields'
    | @duplicate values' after' j' yields' inside' taken' free' =>
      cases yields.unique yields'
      -- both are the first place that is taken
      rcases Nat.lt_trichotomy j j' with earlier | rfl | later
      · exact absurd taken (free' j earlier)
      · exact ⟨rfl, rfl⟩
      · exact absurd taken' (free j' later)

/-- A leaf whose values find free names does not fail. -/
theorem Fails.not_free {e : StatementError} {own values : List Value} {after : CallLog}
    (h : Fails d t entries log leaf e own) (yields : Yields d t log leaf (.ok (values, after))) :
    ¬∀ j < values.length, ¬Writer.Taken entries j := by
  intro free
  cases h with
  | refused yields' => exact nomatch yields.unique yields'
  | duplicate yields' inside taken =>
    cases yields.unique yields'
    exact free _ inside taken

/-- Leaves are visited with one result. -/
theorem Visited.unique {leaves : List Predicate} {bound bound' : List Value}
    {ending ending' : Except StatementError CallLog}
    (h : Visited d t entries log leaves bound ending)
    (h' : Visited d t entries log leaves bound' ending') : bound = bound' ∧ ending = ending' := by
  induction h generalizing bound' ending' with
  | done =>
    cases h'
    exact ⟨rfl, rfl⟩
  | pass yields free rest ih =>
    cases h' with
    | pass yields' free' rest' =>
      cases yields.unique yields'
      obtain ⟨same, ends⟩ := ih rest'
      exact ⟨congrArg _ same, ends⟩
    | fail fails => exact absurd free (fails.not_free yields)
  | fail fails =>
    cases h' with
    | pass yields' free' rest' => exact absurd free' (fails.not_free yields')
    | fail fails' =>
      obtain ⟨rfl, same⟩ := fails.unique fails'
      exact ⟨same, rfl⟩

/-- Behind leaves that pass, more leaves are visited with what those have bound in front. -/
theorem Visited.append {leaves leaves' : List Predicate} {values more : List Value}
    {between : CallLog} {ending : Except StatementError CallLog}
    (passed : Visited d t entries log leaves values (.ok between))
    (rest : Visited d t (entries ++ numbered entries.length values) between leaves' more ending) :
    Visited d t entries log (leaves ++ leaves') (values ++ more) ending := by
  generalize all : Except.ok between = result at passed
  induction passed with
  | done =>
    cases all
    rwa [Writing.numbered_nil, List.append_nil] at rest
  | pass yields free _ ih =>
    rw [List.append_assoc]
    refine .pass yields free (ih ?_ all)
    rw [List.length_append, Writing.length_numbered, List.append_assoc, ← Writing.numbered_append]
    exact rest
  | fail => cases all

/-- Behind a leaf that fails, none is visited. -/
theorem Visited.stopped {leaves : List Predicate} {bound : List Value} {e : StatementError}
    (failed : Visited d t entries log leaves bound (.error e)) (leaves' : List Predicate) :
    Visited d t entries log (leaves ++ leaves') bound (.error e) := by
  generalize stop : Except.error e = result at failed
  induction failed with
  | done => cases stop
  | pass yields free _ ih => exact .pass yields free (ih stop)
  | fail fails =>
    cases stop
    exact .fail fails

/-- Leaves are visited up to an error exactly if one of them is the first to fail, and with it. -/
theorem firstFailure_iff {leaves : List Predicate} {e : StatementError} {bound : List Value} :
    FirstFailure d t entries log leaves e bound ↔
      Visited d t entries log leaves bound (.error e) := by
  constructor
  · rintro ⟨rfl, passed, fails⟩
    exact passed.append (.fail fails)
  · intro failed
    generalize stop : Except.error e = result at failed
    induction failed with
    | done => cases stop
    | @pass entries log between leaf leaves values more ending yields free rest ih =>
      cases ih stop with
      | @intro before after last values' own _ _ split passed fails =>
        rw [← List.append_assoc]
        refine .intro (congrArg (leaf :: ·) split) (.pass yields free passed) ?_
        rw [List.length_append, Writing.length_numbered] at fails
        rwa [Writing.numbered_append, ← List.append_assoc]
    | @fail entries log leaf leaves own _ fails =>
      cases stop
      rw [← List.nil_append own]
      refine .intro rfl .done ?_
      rwa [Writing.numbered_nil, List.append_nil]

/-! ## Writing -/

/-- A judgement that texts and leaves have, and parts in a row if each of them has it, conditions
have too: the parentheses and the connective of a joined condition stand between its leaves. -/
theorem compile_of_leaves {d : Dialect} {t : Table} {J : List Predicate → Writing Unit → Prop}
    (text : ∀ s, J [] (Writing.text s))
    (bind : ∀ {xs ys : List Predicate} {x y : Writing Unit}, J xs x → J ys y →
      J (xs ++ ys) (x >>= fun _ => y))
    (leaf : ∀ p : Predicate, p.isLeaf = true → J [p] (p.compile d t)) (p : Predicate) :
    J p.leaves (p.compile d t) := by
  have grouped : ∀ (needed : Bool) {xs : List Predicate} {x : Writing Unit}, J xs x →
      J xs (writeGrouped needed x) := by
    intro needed xs x h
    cases needed with
    | true =>
      have closed := bind h (text ")")
      rw [List.append_nil] at closed
      exact bind (text "(") closed
    | false => exact h
  induction p with
  | logical op left right ihl ihr =>
    rw [compile]
    exact bind (grouped _ ihl) (bind (text _) (grouped _ ihr))
  | _ => exact leaf _ rfl

/-- From `w` on, a part of a condition has ended as its leaves are visited, and has bound what they
bind. -/
inductive Follows (d : Dialect) (t : Table) (leaves : List Predicate) (w : Writer) :
    Except StatementError Unit × Writer → Prop
  | passed {v : Writer} {values : List Value}
      (visited : Visited d t w.entries w.calls leaves values (.ok v.calls))
      (numbers : w.Numbers v values) : Follows d t leaves w (.ok (), v)
  | failed {v : Writer} {e : StatementError} {values : List Value}
      (visited : Visited d t w.entries w.calls leaves values (.error e))
      (numbers : w.Numbers v values) : Follows d t leaves w (.error e, v)

namespace Follows

variable {w : Writer} {xs ys : List Predicate} {x y : Writing Unit}

theorem text (s : String) : Follows d t [] w (w.exec (Writing.text s)) :=
  .passed .done (.of_eq rfl)

/-- Behind leaves that have passed, more leaves are visited. -/
theorem trans {v : Writer} {r : Except StatementError Unit × Writer}
    (first : Follows d t xs w (.ok (), v)) (second : Follows d t ys v r) :
    Follows d t (xs ++ ys) w r := by
  cases first with
  | @passed _ values visited numbers =>
    -- the second part starts behind what the first has bound
    have entries : v.entries = w.entries ++ numbered w.entries.length values := by
      rw [numbers, w.bound_eq_length]
    cases second with
    | passed visited' numbers' =>
      exact .passed (visited.append (entries ▸ visited')) (numbers.trans numbers')
    | failed visited' numbers' =>
      exact .failed (visited.append (entries ▸ visited')) (numbers.trans numbers')

theorem bind (first : Follows d t xs w (w.exec x))
    (second : ∀ v : Writer, Follows d t ys v (v.exec y)) :
    Follows d t (xs ++ ys) w (w.exec (x >>= fun _ => y)) := by
  rw [Writer.exec_bind]
  revert first
  generalize w.exec x = r
  intro first
  rcases r with ⟨e | ⟨⟩, v⟩
  · cases first with
    | failed visited numbers => exact .failed (visited.stopped ys) numbers
  · exact first.trans (second v)

/-- A leaf that comes to an error has bound nothing. -/
theorem refused {v : Writer} {e : StatementError} (yields : Yields d t w.calls leaf (.error e))
    (same : v.entries = w.entries) : Follows d t [leaf] w (.error e, v) :=
  .failed (.fail (.refused yields)) (.of_eq same)

/-- A leaf that comes to values binds them one by one. -/
theorem enumerated {values : List Value} {after : CallLog}
    {r : Except StatementError Unit × Writer}
    (yields : Yields d t w.calls leaf (.ok (values, after)))
    (ended : Writer.Enumerated { w with calls := after } values r) : Follows d t [leaf] w r := by
  cases ended with
  | bound numbers calls free =>
    refine .passed (List.append_nil values ▸ .pass yields free ?_) numbers
    rw [calls]
    exact .done
  | taken inside taken free numbers calls =>
    rw [Writer.bound_eq_length]
    exact .failed (.fail (.duplicate yields inside taken free)) numbers

end Follows

namespace Follows

variable {w : Writer} {leaves : List Predicate} {r : Except StatementError Unit × Writer}

theorem eq_of_firstFailure (h : Follows d t leaves w r) {e : StatementError} {bound : List Value}
    (first : FirstFailure d t w.entries w.calls leaves e bound) :
    r.1 = .error e ∧ w.Numbers r.2 bound := by
  rw [firstFailure_iff] at first
  cases h with
  | passed visited => exact nomatch (visited.unique first).2
  | failed visited numbers =>
    obtain ⟨rfl, ending⟩ := visited.unique first
    cases ending
    exact ⟨rfl, numbers⟩

theorem exists_firstFailure (h : Follows d t leaves w r) {e : StatementError}
    (failed : r.1 = .error e) : ∃ bound, FirstFailure d t w.entries w.calls leaves e bound := by
  cases h with
  | passed => cases failed
  | failed visited =>
    cases failed
    exact ⟨_, firstFailure_iff.2 visited⟩

end Follows

/-- A leaf that is about a mapped member has no fault. -/
theorem Refers.sound {member : String} {operand : Option Predicate} {c : Column}
    (h : Refers leaf member operand) (mapped : t.mappedColumn member = .ok c)
    (e : StatementError) : ¬Faulty t leaf e := by
  rw [h.faulty_iff, ← Table.mappedColumn_eq_error_iff, mapped]
  exact nofun

theorem comparison_follows (op : Comparison) (left right : Predicate) (w : Writer) :
    Follows d t [comparison op left right] w (w.exec ((comparison op left right).compile d t)) := by
  rw [compile]
  cases hside : columnSide? op left right with
  | none =>
    obtain ⟨neither, nor⟩ := columnSide?_eq_none_iff.1 hside
    exact .refused (.faulty (.columnless neither nor)) rfl
  | some found =>
    obtain ⟨side, member, operand⟩ := found
    have refers : Refers (.comparison op left right) member (some operand) :=
      refers_comparison_iff.2 ⟨side, operand, hside, rfl⟩
    dsimp only
    cases mapped : t.mappedColumn member with
    | error e =>
      exact .refused (.faulty (.unusable refers (Table.mappedColumn_eq_error_iff.1 mapped))) rfl
    | ok c =>
      have sound := refers.sound mapped
      show Follows d t _ w (w.exec (Writing.asking operand.evaluate >>= _))
      rw [Writer.exec_bind, Writer.exec_asking]
      rcases answered : w.calls.answer operand.evaluate with ⟨e | value, after⟩
      · have failed : (w.calls.answer operand.evaluate).1 = .error e := congrArg Prod.fst answered
        obtain ⟨reason, rfl⟩ := operand.evaluate_eq_error w.calls e failed
        exact .refused (.valueless sound refers failed) rfl
      · refine .enumerated (.values sound ?_) (writeComparison_enumerates d c side value _)
        rw [answer_boundValues_compared hside, answered]

theorem membership_follows (member : String) (list : List Value) (w : Writer) :
    Follows d t [membership member list] w (w.exec ((membership member list).compile d t)) := by
  have refers := Refers.list member list
  rw [compile]
  cases mapped : t.mappedColumn member with
  | error e =>
    exact .refused (.faulty (.unusable refers (Table.mappedColumn_eq_error_iff.1 mapped))) rfl
  | ok c =>
    refine .enumerated (.values (refers.sound mapped) ?_) (writeMembership_enumerates d c list w)
    rw [boundValues, chunks_eq, List.map_map]
    rfl

theorem truth_follows (b : Bool) (w : Writer) :
    Follows d t [literal (.bool b)] w (w.exec ((literal (.bool b)).compile d t)) := by
  have sound : ∀ e, ¬Faulty t (literal (.bool b)) e := by
    rintro e (none | _ | ⟨refers, -⟩)
    · cases none
    · cases refers
  have computed : w.calls.answer ((literal (.bool b)).boundValues d.chunkSize) =
      (.ok [], w.calls) := rfl
  cases b with
  | true => exact .enumerated (.values sound computed) (Enumerates.text "1 = 1" w)
  | false => exact .enumerated (.values sound computed) (Enumerates.text "1 = 0" w)

theorem leaf_follows (isLeaf : leaf.isLeaf = true) (w : Writer) :
    Follows d t [leaf] w (w.exec (leaf.compile d t)) := by
  cases leaf with
  | logical op left right => cases isLeaf
  | comparison op left right => exact comparison_follows op left right w
  | membership member list => exact membership_follows member list w
  | literal value =>
    cases value with
    | bool b => exact truth_follows b w
    | _ => exact .refused (.faulty (.formless rfl)) rfl
  | column | computed | element => exact .refused (.faulty (.formless rfl)) rfl

/-- A condition is written as its leaves are visited. -/
theorem compile_follows (d : Dialect) (t : Table) (p : Predicate) (w : Writer) :
    Follows d t p.leaves w (w.exec (p.compile d t)) :=
  compile_of_leaves (J := fun leaves x => ∀ w : Writer, Follows d t leaves w (w.exec x))
    (fun s _ => .text s) (fun first second w => (first w).bind second)
    (fun _ isLeaf => leaf_follows isLeaf) p w

end

/-- The law of failures. A condition is written if none of its leaves fails. Otherwise the error is
that of the first leaf that fails, and what has been bound is what the leaves before it bind, and of
the leaf itself the values before the name that is taken. However it ends, the text and the entries
that were there stand in front. -/
theorem compile_firstFailure (d : Dialect) (t : Table) (p : Predicate) (w : Writer) :
    ((w.exec (p.compile d t)).1 = .ok () ↔
      ∀ e bound, ¬FirstFailure d t w.entries w.calls p.leaves e bound) ∧
    (∀ e, (w.exec (p.compile d t)).1 = .error e ↔
      ∃ bound, FirstFailure d t w.entries w.calls p.leaves e bound) ∧
    (∀ e bound, FirstFailure d t w.entries w.calls p.leaves e bound →
      (w.exec (p.compile d t)).2.entries = w.entries ++ numbered w.bound bound) ∧
    (∃ s, (w.exec (p.compile d t)).2.text = w.text ++ s) ∧
    ∃ new, (w.exec (p.compile d t)).2.entries = w.entries ++ new := by
  have follows := compile_follows d t p w
  have grown : w.Extends (w.exec (p.compile d t)).2 := compile_ensures d t p w
  obtain ⟨text, new, entries, -⟩ := grown
  refine ⟨⟨fun written e bound first => ?_, fun none => ?_⟩, fun e => ⟨?_, ?_⟩, ?_, text, new,
    entries⟩
  · have failed := (follows.eq_of_firstFailure first).1
    rw [written] at failed
    cases failed
  · cases outcome : (w.exec (p.compile d t)).1 with
    | ok a => rfl
    | error e =>
      obtain ⟨bound, first⟩ := follows.exists_firstFailure outcome
      exact absurd first (none e bound)
  · exact follows.exists_firstFailure
  · rintro ⟨bound, first⟩
    exact (follows.eq_of_firstFailure first).1
  · intro e bound first
    exact (follows.eq_of_firstFailure first).2

/-- A name that is taken between the two parts of a list: the first part stays bound. -/
theorem compile_firstFailure_among :
    let seeded : Parameters Value :=
      Parameters.empty.push "p3" (.int 7) (Parameters.index_eq_none_iff.2 List.not_mem_nil)
    let w : Writer := { parameters := some seeded }
    let levels : List Value := [.int 1, .int 2, .int 3]
    (w.exec ((adriftAmong levels).compile pairwise Account.table)).1 =
      .error (.duplicateParameter "p3") ∧
    (w.exec ((adriftAmong levels).compile pairwise Account.table)).2.entries =
      [("p3", .int 7), ("p2", .list [.int 1, .int 2])] := by
  intro seeded w levels
  have adrift : Yields pairwise Account.table []
      (.comparison .eq (.column "owner") (.literal .null)) (.ok ([], [])) :=
    .values (Refers.sound (.left rfl) Account.mappedColumn_owner) rfl
  have two : levels.length ⌈/⌉ pairwise.chunkSize = 2 := by decide
  have parts : Yields pairwise Account.table [] (.membership "level" levels)
      (.ok ([.list [.int 1, .int 2], .list [.int 3]], [])) := by
    refine .values (Refers.sound (.list _ _) Account.mappedColumn_level) ?_
    rw [boundValues, two]
    rfl
  have first : FirstFailure pairwise Account.table w.entries w.calls (adriftAmong levels).leaves
      (.duplicateParameter (positional 3)) ([] ++ [.list [.int 1, .int 2]]) := by
    refine .intro rfl (.pass adrift (fun j none => absurd none j.not_lt_zero) .done) ?_
    exact .duplicate (j := 1) parts (by decide) (by decide +kernel) (by decide +kernel)
  obtain ⟨-, failure, bound, -⟩ :=
    compile_firstFailure pairwise Account.table (adriftAmong levels) w
  have one : w.bound = 1 := rfl
  refine ⟨(failure _).2 ⟨_, first⟩, (bound _ _ first).trans ?_⟩
  rw [one]
  rfl

end Predicate

end BoundSql
