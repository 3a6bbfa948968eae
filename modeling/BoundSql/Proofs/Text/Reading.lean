import BoundSql.Text.Reading

/-!
# What readers find

The answer of a reader carries a proof that its rest is shorter, and so its type names the text that
was read. `Reading.found` leaves the proof out: the finding and the rest, which can be compared over
different texts. Each way of putting readers together has its equation here.
-/

namespace BoundSql.Text

/-- Characters of a kind are taken off a text exactly, if what follows them is of another kind. -/
theorem takeWhile_dropWhile_append {p : Char → Bool} {front rest : List Char}
    (all : ∀ c ∈ front, p c = true) (stop : ∀ c ∈ rest.head?, p c = false) :
    (front ++ rest).takeWhile p = front ∧ (front ++ rest).dropWhile p = rest := by
  rw [List.takeWhile_append_of_pos all, List.dropWhile_append_of_pos all]
  cases rest with
  | nil => exact ⟨List.append_nil front, rfl⟩
  | cons c rest =>
    have other : ¬ p c = true := by rw [stop c rfl]; nofun
    rw [List.takeWhile_cons_of_neg other, List.dropWhile_cons_of_neg other]
    exact ⟨List.append_nil front, rfl⟩

namespace Reading

variable {α β : Type} {c : Char} {cs rest : List Char}

/-- What was found, and the rest of the text. -/
def found (r : Reading α cs) : Option (α × List Char) :=
  Option.map (fun f => (f.1, f.2.1)) r

/-- A run of characters ends at the first that does not belong to it. -/
@[simp] theorem found_run (p : Char → Bool) :
    (run p : Reading (List Char) (c :: rest)).found =
      some (c :: rest.takeWhile p, rest.dropWhile p) :=
  rfl

/-- What is made of a reading changes nothing about what is left. -/
@[simp] theorem found_map (f : α → β) (r : Reading α cs) :
    (r.map f).found = r.found.map (Prod.map f id) := by
  cases r <;> rfl

@[simp] theorem found_filterMap (f : α → Option β) (r : Reading α cs) :
    (r.filterMap f).found = r.found.bind fun p => (f p.1).map fun b => (b, p.2) := by
  cases r with
  | none => rfl
  | some found =>
    simp only [filterMap, Reading.found, Option.bind_some, Option.map_some, Option.map_map]
    rfl

/-- What is read behind a character leaves less than the whole. -/
@[simp] theorem found_behind (r : Reading α rest) :
    (r.behind : Reading α (c :: rest)).found = r.found := by
  cases r <;> rfl

@[simp] theorem found_behindAll (head : List Char) (r : Reading α rest) :
    (r.behindAll head).found = r.found := by
  induction head with
  | nil => rfl
  | cons c head ih => exact (found_behind _).trans ih

end Reading

end BoundSql.Text
