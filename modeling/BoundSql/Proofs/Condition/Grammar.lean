import BoundSql.Proofs.Condition.Token
import BoundSql.Proofs.Condition.Truth

/-!
# The grammar of conditions

Conditions in SQL are read by the standard grammar: `and` binds tighter than `or`, a chain of one
connective groups to the left, and parentheses group as they stand. `Derives` is that grammar, with
one rule for a single operand and one for a longer chain at each connective. It is unambiguous
(`Derives.unique`), because a machine that keeps what is still open reads back whatever is derived
(`Derives.runs`).

`Reads` is the reading of a whole text, and `Spells` the one of a text in front of others, from
which texts of conditions are put together. Two chains of one connective that are joined by it are
read as one chain, which groups otherwise than the two did but means the same (`Spells.chain`).
-/

namespace BoundSql.Condition

/-- What a condition is put together from. -/
inductive Item
  | atom (a : Atom)
  | connective (op : Connective)
  | opening
  | closing
deriving DecidableEq, Repr

/-- Gather tokens to atomic conditions, if they stand as atomic conditions are written. -/
def items? : List Token → Option (List Item)
  | [] => some []
  | .column c :: .sign op :: .placeholder p :: rest =>
    (items? rest).map (.atom (.compared c op p) :: ·)
  | .column c :: .is :: .null :: rest => (items? rest).map (.atom (.isNull c) :: ·)
  | .column c :: .is :: .not :: .null :: rest => (items? rest).map (.atom (.isNotNull c) :: ·)
  | .column c :: .among :: .placeholder p :: rest => (items? rest).map (.atom (.among c p) :: ·)
  | .one :: .sign .eq :: .one :: rest => (items? rest).map (.atom (.constant true) :: ·)
  | .one :: .sign .eq :: .zero :: rest => (items? rest).map (.atom (.constant false) :: ·)
  | .connective op :: rest => (items? rest).map (.connective op :: ·)
  | .opening :: rest => (items? rest).map (.opening :: ·)
  | .closing :: rest => (items? rest).map (.closing :: ·)
  | _ => none

theorem items?_append {ts : List Token} {xs : List Item} (h : items? ts = some xs)
    (us : List Token) : items? (ts ++ us) = (items? us).map (xs ++ ·) := by
  fun_induction items? ts generalizing xs with
  | case1 =>
    cases h
    exact Option.map_id'.symm
  | case11 => cases h
  | _ =>
    rename_i ih
    obtain ⟨ys, hys, rfl⟩ := Option.map_eq_some_iff.1 h
    simp only [List.cons_append, items?, ih hys, Option.map_map]
    rfl

/-- How loosely a part of a condition holds together. -/
inductive Rank
  | primary
  | joined (op : Connective)
deriving DecidableEq, Repr

/-- The rank of a connective's operands. -/
def Rank.operand : Connective → Rank
  | .and => .primary
  | .or => .joined .and

/-- The standard grammar. -/
inductive Derives : Rank → List Item → Condition → Prop
  | atom (a : Atom) : Derives .primary [.atom a] (.atom a)
  | group {xs : List Item} {c : Condition} (h : Derives (.joined .or) xs c) :
      Derives .primary (.opening :: (xs ++ [.closing])) c
  | single (op : Connective) {xs : List Item} {c : Condition} (h : Derives (.operand op) xs c) :
      Derives (.joined op) xs c
  | join (op : Connective) {xs ys : List Item} {c k : Condition} (first : Derives (.joined op) xs c)
      (last : Derives (.operand op) ys k) :
      Derives (.joined op) (xs ++ .connective op :: ys) (.joined op c k)

/-! ## A machine that reads -/

/-- What is open at one depth of parentheses: the chain of `or` that the next operand will be joined
to, and behind it the chain of `and`. -/
structure Frame where
  disjuncts : Option Condition
  conjuncts : Option Condition

/-- A chain with one more operand. -/
def extend (op : Connective) : Option Condition → Condition → Condition
  | none, c => c
  | some chain, c => .joined op chain c

/-- The chain of `and` with its last operand. -/
def Frame.conjunction (f : Frame) (c : Condition) : Condition :=
  extend .and f.conjuncts c

/-- All that is open, with its last operand. -/
def Frame.disjunction (f : Frame) (c : Condition) : Condition :=
  extend .or f.disjuncts (f.conjunction c)

/-- Read items with some parentheses open. `held` is the operand read last; without one, an operand
has to come next. -/
def read? (outer : List Frame) (f : Frame) (held : Option Condition) :
    List Item → Option Condition
  | [] =>
    match outer, held with
    | [], some c => some (f.disjunction c)
    | _, _ => none
  | x :: rest =>
    match x, held, outer with
    | .atom a, none, _ => read? outer f (some (.atom a)) rest
    | .opening, none, _ => read? (f :: outer) ⟨none, none⟩ none rest
    | .connective .and, some c, _ => read? outer ⟨f.disjuncts, some (f.conjunction c)⟩ none rest
    | .connective .or, some c, _ => read? outer ⟨some (f.disjunction c), none⟩ none rest
    | .closing, some c, g :: outer => read? outer g (some (f.disjunction c)) rest
    | _, _, _ => none

/-- Reading the items, the machine comes to hold the condition, as its rank says: a primary one as
it is, a chain as the open one with its last operand. -/
def Runs (xs : List Item) (c : Condition) : Rank → Prop
  | .primary => ∀ outer f rest, read? outer f none (xs ++ rest) = read? outer f (some c) rest
  | .joined .and => ∃ conjuncts last, extend .and conjuncts last = c ∧
      ∀ outer disjuncts rest, read? outer ⟨disjuncts, none⟩ none (xs ++ rest) =
        read? outer ⟨disjuncts, conjuncts⟩ (some last) rest
  | .joined .or => ∃ f last, Frame.disjunction f last = c ∧
      ∀ outer rest, read? outer ⟨none, none⟩ none (xs ++ rest) = read? outer f (some last) rest

theorem Derives.runs {rank : Rank} {xs : List Item} {c : Condition} (h : Derives rank xs c) :
    Runs xs c rank := by
  induction h with
  | atom a => exact fun _ _ _ => rfl
  | @group xs c h ih =>
    obtain ⟨f, last, rfl, runs⟩ := ih
    intro outer g rest
    rw [List.cons_append, List.append_assoc]
    exact runs (g :: outer) (.closing :: rest)
  | single op h ih =>
    cases op with
    | and => exact ⟨none, _, rfl, fun outer disjuncts rest => ih outer _ rest⟩
    | or =>
      obtain ⟨conjuncts, last, rfl, runs⟩ := ih
      exact ⟨⟨none, conjuncts⟩, last, rfl, fun outer rest => runs outer none rest⟩
  | @join op xs ys c k first last ihFirst ihLast =>
    cases op with
    | and =>
      obtain ⟨conjuncts, held, rfl, runs⟩ := ihFirst
      refine ⟨some (extend .and conjuncts held), k, rfl, fun outer disjuncts rest => ?_⟩
      rw [List.append_assoc, runs, List.cons_append]
      exact ihLast outer _ rest
    | or =>
      obtain ⟨f, held, rfl, runs⟩ := ihFirst
      obtain ⟨conjuncts, held', rfl, runs'⟩ := ihLast
      refine ⟨⟨some (f.disjunction held), conjuncts⟩, held', rfl, fun outer rest => ?_⟩
      rw [List.append_assoc, runs, List.cons_append]
      exact runs' outer _ rest

/-- The grammar is unambiguous. -/
theorem Derives.unique {xs : List Item} {c c' : Condition} (h : Derives (.joined .or) xs c)
    (h' : Derives (.joined .or) xs c') : c = c' := by
  have read : ∀ {c}, Derives (.joined .or) xs c → read? [] ⟨none, none⟩ none xs = some c := by
    intro c h
    obtain ⟨f, last, rfl, runs⟩ := h.runs
    have whole := runs [] []
    rwa [List.append_nil] at whole
  exact Option.some.inj ((read h).symm.trans (read h'))

example : ((tokens? .sqlite "1 = 1 or \"a\" is null and \"b\" in @p1".toList).bind items?).bind
    (read? [] ⟨none, none⟩ none) =
      some (.joined .or (.atom (.constant true))
        (.joined .and (.atom (.isNull "a")) (.atom (.among "b" "p1")))) := by
  decide +kernel

/-! ## Chains -/

/-- What is primary stands at every rank. -/
theorem Derives.of_primary {xs : List Item} {c : Condition} (h : Derives .primary xs c)
    (rank : Rank) : Derives rank xs c := by
  cases rank with
  | primary => exact h
  | joined op =>
    cases op with
    | and => exact .single .and h
    | or => exact .single .or (.single .and h)

/-- Everything stands as a condition of its own. -/
theorem Derives.to_or {rank : Rank} {xs : List Item} {c : Condition} (h : Derives rank xs c) :
    Derives (.joined .or) xs c := by
  cases rank with
  | primary => exact h.of_primary _
  | joined op =>
    cases op with
    | and => exact .single .or h
    | or => exact h

/-- Two chains of one connective, joined by it, are a chain. It groups to the left all through, so
it is not the two conditions joined, but it means the same. -/
theorem Derives.chain {op : Connective} {xs ys : List Item} {c k : Condition}
    (first : Derives (.joined op) xs c) (last : Derives (.joined op) ys k) :
    ∃ whole, Derives (.joined op) (xs ++ .connective op :: ys) whole ∧
      ∀ σ look, whole.truth σ look = (Condition.joined op c k).truth σ look := by
  -- taken apart from its end, the second chain hands its operands over one by one
  generalize hrank : Rank.joined op = rank at last
  induction last with
  | atom | group => cases hrank
  | single op' h =>
    cases hrank
    exact ⟨_, .join op first h, fun _ _ => rfl⟩
  | @join op' ys zs k m front back ihFront =>
    cases hrank
    obtain ⟨whole, derived, same⟩ := ihFront rfl
    refine ⟨.joined op whole m, ?_, fun σ look => ?_⟩
    · rw [← List.cons_append, ← List.append_assoc]
      exact .join op derived back
    · rw [← truth_assoc, truth, same, ← truth]

/-! ## Reading texts -/

/-- A whole text reads as a condition. -/
def Reads (d : Dialect) (s : String) (c : Condition) : Prop :=
  ∃ ts xs, tokens? d s.toList = some ts ∧ items? ts = some xs ∧ Derives (.joined .or) xs c

/-- A text in front of others reads as a part of a condition, if it is not followed by what would go
on with its last word. -/
def Spells (d : Dialect) (rank : Rank) (s : String) (c : Condition) : Prop :=
  ∃ ts xs, Lexes d Ends s ts ∧ items? ts = some xs ∧ Derives rank xs c

/-- A text reads in one way at most. -/
theorem Reads.unique {d : Dialect} {s : String} {c c' : Condition} (h : Reads d s c)
    (h' : Reads d s c') : c = c' := by
  obtain ⟨ts, xs, lexed, gathered, derived⟩ := h
  obtain ⟨ts', xs', lexed', gathered', derived'⟩ := h'
  cases lexed.symm.trans lexed'
  cases gathered.symm.trans gathered'
  exact derived.unique derived'

namespace Spells

variable {d : Dialect} {rank : Rank} {s u : String} {c k : Condition}

theorem reads (h : Spells d rank s c) : Reads d s c := by
  obtain ⟨ts, xs, lexed, gathered, derived⟩ := h
  have alone := lexed [] nofun
  rw [List.append_nil, tokens?, Option.map_some, List.append_nil] at alone
  exact ⟨ts, xs, alone, gathered, derived.to_or⟩

theorem of_primary (h : Spells d .primary s c) (rank : Rank) : Spells d rank s c := by
  obtain ⟨ts, xs, lexed, gathered, derived⟩ := h
  exact ⟨ts, xs, lexed, gathered, derived.of_primary rank⟩

theorem group (legible : d.Legible) (h : Spells d rank s c) :
    Spells d .primary ("(" ++ (s ++ ")")) c := by
  obtain ⟨ts, xs, lexed, gathered, derived⟩ := h
  have closed : Lexes d Ends (s ++ ")") (ts ++ [.closing]) :=
    lexed.append ((Lexes.closing legible).weaken fun _ _ => trivial) fun _ _ => ends_cons rfl _
  refine ⟨_, _, (Lexes.opening legible).append_left closed, ?_, .group derived.to_or⟩
  rw [List.singleton_append, items?, items?_append gathered]
  rfl

/-- Two texts of chains, with their connective in between, read as what means the same as the two
conditions joined. -/
theorem chain (legible : d.Legible) {op : Connective} (hs : Spells d (.joined op) s c)
    (hu : Spells d (.joined op) u k) :
    ∃ whole, Spells d (.joined op) (s ++ (op.sql ++ u)) whole ∧
      ∀ σ look, whole.truth σ look = (Condition.joined op c k).truth σ look := by
  obtain ⟨ts, xs, lexed, gathered, derived⟩ := hs
  obtain ⟨us, ys, lexed', gathered', derived'⟩ := hu
  obtain ⟨whole, all, same⟩ := derived.chain derived'
  have tail : Lexes d Ends (op.sql ++ u) ([.connective op] ++ us) :=
    (Lexes.connective legible op).append_left lexed'
  refine ⟨whole, ⟨_, _, lexed.append tail fun _ _ => ?_, ?_, all⟩, same⟩
  · rw [String.toList_append]
    cases op <;> exact ends_cons rfl _
  · rw [items?_append gathered, List.singleton_append, items?, gathered']
    rfl

/-! ### Atomic conditions -/

theorem atom (a : Atom) {ts : List Token} (lexed : Lexes d Ends s ts)
    (gathered : items? ts = some [.atom a]) : Spells d .primary s (.atom a) :=
  ⟨ts, _, lexed, gathered, .atom a⟩

theorem constant (legible : d.Legible) (b : Bool) :
    Spells d .primary (if b then "1 = 1" else "1 = 0") (.atom (.constant b)) := by
  cases b with
  | true => exact .atom _ (Lexes.constant legible (.word legible "1" rfl)) rfl
  | false => exact .atom _ (Lexes.constant legible (.word legible "0" rfl)) rfl

section

variable {column name : String} (legible : d.Legible) (hcolumn : d.brackets.closing ∉ column.toList)

include legible hcolumn

theorem compared (op : Comparison) (hname : name.toList.all isWordChar = true) :
    Spells d .primary (d.identifier column ++ (op.sql ++ d.placeholder name))
      (.atom (.compared column op name)) :=
  .atom _ ((Lexes.column d hcolumn).append_left
    ((Lexes.sign legible op).append_left (.placeholder legible hname))) rfl

theorem among (hname : name.toList.all isWordChar = true) :
    Spells d .primary (d.identifier column ++ (" in " ++ d.placeholder name))
      (.atom (.among column name)) :=
  .atom _ ((Lexes.column d hcolumn).append_left
    ((Lexes.among legible).append_left (.placeholder legible hname))) rfl

theorem isNull : Spells d .primary (d.identifier column ++ " is null") (.atom (.isNull column)) :=
  .atom _ ((Lexes.column d hcolumn).append_left (.isNull legible)) rfl

theorem isNotNull :
    Spells d .primary (d.identifier column ++ " is not null") (.atom (.isNotNull column)) :=
  .atom _ ((Lexes.column d hcolumn).append_left (.isNotNull legible)) rfl

end

end Spells

end BoundSql.Condition
