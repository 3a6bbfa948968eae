import BoundSql.Proofs.Noninterference

/-!
# Conditions regrouped

Conditions that are joined by one connective may be nested in many ways: from the left, from the
right, or as any other binary tree over them. `Predicate.compile_regrouped` says that no writer can
tell: the whole tree that the chain stands in is written by the same acts, wherever it stands in it.
So text and parameters are the same, and the same error comes at the same act when one of the
conditions fails.

A chain is written as its conditions in a row (`Predicate.writeGrouped_join`), because a connective
is not put between parentheses under itself. What stands around a chain only asks for a few things
about it, and nestings agree in them (`Predicate.Interchangeable`).
-/

namespace BoundSql

/-- Two rows with the text between them are one row. -/
theorem Writing.separated_append {α : Type} {between : String} {write : α → Writing Unit}
    {xs ys : List α} (hxs : xs ≠ []) (hys : ys ≠ []) :
    Writing.separated between write (xs ++ ys) = (do
      Writing.separated between write xs
      Writing.text between
      Writing.separated between write ys) := by
  fun_induction Writing.separated between write xs with
  | case1 => exact absurd rfl hxs
  | case2 item =>
    obtain ⟨next, rest, rfl⟩ := List.exists_cons_of_ne_nil hys
    rfl
  | case3 item next rest ih =>
    show (write item >>= fun _ => Writing.text between >>= fun _ =>
      Writing.separated between write (next :: rest ++ ys)) = _
    rw [ih (List.cons_ne_nil next rest)]
    simp only [bind_assoc]

namespace Predicate

/-! ## Nestings -/

/-- A binary tree over conditions. -/
inductive Nesting
  | item (p : Predicate)
  | pair (left right : Nesting)

namespace Nesting

/-- The conditions, from left to right. -/
def items : Nesting → List Predicate
  | .item p => [p]
  | .pair left right => left.items ++ right.items

/-- The conditions joined by a connective, nested as in the tree. -/
def join (op : Connective) : Nesting → Predicate
  | .item p => p
  | .pair left right => .logical op (left.join op) (right.join op)

theorem items_ne_nil (g : Nesting) : g.items ≠ [] := by
  induction g with
  | item p => exact List.cons_ne_nil p []
  | pair left right ihl ihr => exact List.append_ne_nil_of_left_ne_nil ihl right.items

/-- There is nothing to nest in one condition. -/
theorem eq_item_of_items {g : Nesting} {p : Predicate} (h : g.items = [p]) : g = .item p := by
  cases g with
  | item q =>
    rw [items, List.singleton_inj] at h
    rw [h]
  | pair left right =>
    have count := congrArg List.length h
    have first := List.length_pos_iff.2 left.items_ne_nil
    have second := List.length_pos_iff.2 right.items_ne_nil
    rw [items, List.length_append, List.length_singleton] at count
    omega

/-- Joining more conditions from the left is one of the nestings. -/
theorem exists_join_eq_joinLeft (op : Connective) (g : Nesting) (rest : List Predicate) :
    ∃ g' : Nesting, g'.items = g.items ++ rest ∧ g'.join op = joinLeft op (g.join op) rest := by
  induction rest generalizing g with
  | nil => exact ⟨g, (List.append_nil _).symm, rfl⟩
  | cons next rest ih =>
    obtain ⟨g', same, joined⟩ := ih (.pair g (.item next))
    refine ⟨g', ?_, joined⟩
    rw [same, items, items, List.append_assoc, List.singleton_append]

/-- So is joining them from the right. -/
theorem exists_join_eq_joinRight (op : Connective) (first : Predicate) (rest : List Predicate) :
    ∃ g : Nesting, g.items = first :: rest ∧ g.join op = joinRight op first rest := by
  induction rest generalizing first with
  | nil => exact ⟨.item first, rfl, rfl⟩
  | cons next rest ih =>
    obtain ⟨g, same, joined⟩ := ih next
    refine ⟨.pair (.item first) g, ?_, ?_⟩
    · rw [items, items, same, List.singleton_append]
    · rw [join, join, joined, joinRight]

end Nesting

/-! ## Chains are flat -/

section

variable {d : Dialect} {t : Table}

/-- Write conditions in a row with a connective between them, each between parentheses if it is
joined by the other connective. -/
def writeChain (d : Dialect) (t : Table) (op : Connective) : List Predicate → Writing Unit :=
  Writing.separated op.sql fun p => writeGrouped (p.grouped op) (p.compile d t)

theorem grouped_join_pair (op : Connective) (left right : Nesting) :
    ((Nesting.pair left right).join op).grouped op = false :=
  bne_self_eq_false op

/-- Under its own connective a chain is written as its conditions in a row, whatever its nesting. -/
theorem writeGrouped_join (op : Connective) (g : Nesting) :
    writeGrouped ((g.join op).grouped op) ((g.join op).compile d t) =
      writeChain d t op g.items := by
  induction g with
  | item p => rfl
  | pair left right ihl ihr =>
    rw [grouped_join_pair, writeGrouped, if_neg Bool.false_ne_true, Nesting.join, compile, ihl, ihr,
      Nesting.items]
    exact (Writing.separated_append left.items_ne_nil right.items_ne_nil).symm

theorem compile_join_pair (op : Connective) (left right : Nesting) :
    ((Nesting.pair left right).join op).compile d t =
      writeChain d t op (Nesting.pair left right).items := by
  rw [← writeGrouped_join, grouped_join_pair]
  rfl

end

/-! ## What stands around a chain -/

/-- A place in a predicate: the path to it, with all that stands beside the path. -/
inductive Place
  | here
  | joinedLeft (op : Connective) (place : Place) (right : Predicate)
  | joinedRight (op : Connective) (left : Predicate) (place : Place)
  | comparedLeft (op : Comparison) (place : Place) (right : Predicate)
  | comparedRight (op : Comparison) (left : Predicate) (place : Place)
  | elementOf (place : Place) (index : Nat)

/-- The predicate with a node put at the place. -/
def Place.fill : Place → Predicate → Predicate
  | .here, p => p
  | .joinedLeft op place right, p => .logical op (place.fill p) right
  | .joinedRight op left place, p => .logical op left (place.fill p)
  | .comparedLeft op place right, p => .comparison op (place.fill p) right
  | .comparedRight op left place, p => .comparison op left (place.fill p)
  | .elementOf place index, p => .element (place.fill p) index

/-- Nothing that is written around one of the nodes would be written otherwise around the other:
they are written alike, and agree in all that a node above them asks for. -/
structure Interchangeable (d : Dialect) (t : Table) (p q : Predicate) : Prop
    extends SameSide p q where
  compile : p.compile d t = q.compile d t
  grouped : ∀ op, p.grouped op = q.grouped op
  evaluate : p.evaluate = q.evaluate

namespace Interchangeable

variable {d : Dialect} {t : Table} {p q : Predicate}

theorem refl (p : Predicate) : Interchangeable d t p p :=
  ⟨⟨rfl, rfl⟩, rfl, fun _ => rfl, rfl⟩

theorem comparedLeft (h : Interchangeable d t p q) (op : Comparison) (right : Predicate) :
    Interchangeable d t (.comparison op p right) (.comparison op q right) := by
  refine ⟨⟨rfl, rfl⟩, ?_, fun _ => rfl, rfl⟩
  rw [Predicate.compile, Predicate.compile, columnSide?_eq, columnSide?_eq, h.column, h.kind]
  cases q.columnName? <;> cases right.columnName? <;> simp only [h.evaluate]

theorem comparedRight (h : Interchangeable d t p q) (op : Comparison) (left : Predicate) :
    Interchangeable d t (.comparison op left p) (.comparison op left q) := by
  refine ⟨⟨rfl, rfl⟩, ?_, fun _ => rfl, rfl⟩
  rw [Predicate.compile, Predicate.compile, columnSide?_eq, columnSide?_eq, h.column, h.kind]
  cases left.columnName? <;> cases q.columnName? <;> simp only [h.evaluate]

/-- Interchangeable nodes are so with all that stands around them. -/
theorem fill (h : Interchangeable d t p q) (place : Place) :
    Interchangeable d t (place.fill p) (place.fill q) := by
  induction place with
  | here => exact h
  | joinedLeft op place right ih =>
    refine ⟨⟨rfl, rfl⟩, ?_, fun _ => rfl, rfl⟩
    rw [Place.fill, Place.fill, Predicate.compile, Predicate.compile, ih.grouped, ih.compile]
  | joinedRight op left place ih =>
    refine ⟨⟨rfl, rfl⟩, ?_, fun _ => rfl, rfl⟩
    rw [Place.fill, Place.fill, Predicate.compile, Predicate.compile, ih.grouped, ih.compile]
  | comparedLeft op place right ih => exact ih.comparedLeft op right
  | comparedRight op left place ih => exact ih.comparedRight op left
  | elementOf place index ih =>
    refine ⟨⟨rfl, rfl⟩, rfl, fun _ => rfl, ?_⟩
    rw [Place.fill, Place.fill, Predicate.evaluate, Predicate.evaluate, ih.evaluate]

end Interchangeable

/-- Nestings of the same conditions are interchangeable. -/
theorem Nesting.interchangeable (d : Dialect) (t : Table) (op : Connective) {g g' : Nesting}
    (same : g.items = g'.items) : Interchangeable d t (g.join op) (g'.join op) := by
  cases g with
  | item p =>
    rw [eq_item_of_items same.symm]
    exact .refl _
  | pair left right =>
    cases g' with
    | item p =>
      rw [eq_item_of_items same]
      exact .refl _
    | pair left' right' =>
      refine ⟨⟨rfl, rfl⟩, ?_, fun _ => rfl, rfl⟩
      rw [compile_join_pair, compile_join_pair, same]

/-- The nesting of a chain does not show. Two trees that join the same conditions by one connective,
at one place of any predicate, are written alike to every statement: with the same outcome, the same
text and the same parameters, and the same calls and reports on the way, also when writing fails
half way. Joining from the left and joining from the right are two of these trees. -/
theorem compile_regrouped (d : Dialect) (t : Table) (op : Connective) (g g' : Nesting)
    (same : g.items = g'.items) (place : Place) (w : Writer) :
    w.exec ((place.fill (g.join op)).compile d t) = w.exec ((place.fill (g'.join op)).compile d t) ∧
    ∀ first rest, g.items = first :: rest →
      w.exec ((place.fill (joinLeft op first rest)).compile d t) =
          w.exec ((place.fill (g.join op)).compile d t) ∧
        w.exec ((place.fill (joinRight op first rest)).compile d t) =
          w.exec ((place.fill (g.join op)).compile d t) := by
  have alike : ∀ {g₁ g₂ : Nesting}, g₁.items = g₂.items →
      w.exec ((place.fill (g₁.join op)).compile d t) =
        w.exec ((place.fill (g₂.join op)).compile d t) := by
    intro g₁ g₂ same
    rw [((Nesting.interchangeable d t op same).fill place).compile]
  refine ⟨alike same, fun first rest listed => ?_⟩
  obtain ⟨fromLeft, items, joined⟩ := Nesting.exists_join_eq_joinLeft op (.item first) rest
  obtain ⟨fromRight, items', joined'⟩ := Nesting.exists_join_eq_joinRight op first rest
  have left := alike (items.trans listed.symm)
  have right := alike (items'.trans listed.symm)
  rw [joined] at left
  rw [joined'] at right
  exact ⟨left, right⟩

/-- The third of four conditions is about a member that the table does not have; one of the others
is a choice. -/
theorem compile_regrouped_colour :
    let above : Predicate := .comparison .gt (.column "level") (.literal (.int 1))
    let adrift : Predicate := .comparison .eq (.column "owner") (.literal .null)
    let choice : Predicate := .logical .or above adrift
    let colour : Predicate := .comparison .eq (.column "colour") (.literal (.text "red"))
    let g : Nesting :=
      .pair (.pair (.item adrift) (.item choice)) (.pair (.item colour) (.item above))
    let g' : Nesting :=
      .pair (.item adrift) (.pair (.pair (.item choice) (.item colour)) (.item above))
    let place : Place := .joinedRight .or adrift .here
    g.items = g'.items ∧
      Writer.exec {} ((place.fill (g.join .and)).compile .sqlite Account.table) =
        Writer.exec {} ((place.fill (g'.join .and)).compile .sqlite Account.table) ∧
      Writer.exec {} ((place.fill (joinLeft .and adrift [choice, colour, above])).compile .sqlite
          Account.table) =
        Writer.exec {} ((place.fill (joinRight .and adrift [choice, colour, above])).compile .sqlite
          Account.table) := by
  intro above adrift choice colour g g' place
  obtain ⟨nested, folds⟩ :=
    compile_regrouped .sqlite Account.table .and g g' rfl place {}
  obtain ⟨left, right⟩ := folds adrift [choice, colour, above] rfl
  exact ⟨rfl, nested, left.trans right.symm⟩

end Predicate

end BoundSql
