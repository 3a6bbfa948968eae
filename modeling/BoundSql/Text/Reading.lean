/-!
# Reading at the head of a text

A reader takes something off the head of a list of characters. Its answer carries the rest together
with the proof that it is shorter, so a reader that goes on with the rest ends. Readers are put
together from the functions of this module, which do the counting once and for all.
-/

namespace BoundSql.Text

theorem length_dropWhile_le (p : Char → Bool) (cs : List Char) :
    (cs.dropWhile p).length ≤ cs.length :=
  (List.dropWhile_sublist p).length_le

/-- What is left of a text: no longer than the text. -/
abbrev Rest (cs : List Char) :=
  { rest : List Char // rest.length ≤ cs.length }

/-- What was found at the head of a text, with the rest of the text, which is shorter. -/
abbrev Reading (α : Type) (cs : List Char) :=
  Option (α × { rest : List Char // rest.length < cs.length })

namespace Rest

variable {cs : List Char}

def whole (cs : List Char) : Rest cs :=
  ⟨cs, Nat.le_refl _⟩

/-- The rest without its first character. -/
def tail (r : Rest cs) : Rest cs :=
  ⟨r.1.tail, Nat.le_trans (List.tail_sublist r.1).length_le r.2⟩

/-- The rest without its leading characters of a kind. -/
def dropWhile (p : Char → Bool) (r : Rest cs) : Rest cs :=
  ⟨r.1.dropWhile p, Nat.le_trans (length_dropWhile_le p r.1) r.2⟩

/-- The rest without its first character, if that is of a kind. -/
def tail? (p : Char → Bool) (r : Rest cs) : Option (Rest cs) :=
  if r.1.head?.any p then some r.tail else none

end Rest

namespace Reading

variable {α β : Type} {c : Char} {cs rest : List Char}

/-- Behind the first character, with a rest of what follows it. -/
def upTo (a : α) (r : Rest rest) : Reading α (c :: rest) :=
  some (a, ⟨r.1, Nat.lt_succ_of_le r.2⟩)

def first (a : α) : Reading α (c :: rest) :=
  upTo a (.whole rest)

/-- The first character and those of a kind behind it. -/
def run (p : Char → Bool) : Reading (List Char) (c :: rest) :=
  upTo (c :: rest.takeWhile p) ((Rest.whole rest).dropWhile p)

def map (f : α → β) (r : Reading α cs) : Reading β cs :=
  Option.map (fun found => (f found.1, found.2)) r

/-- What `f` makes of a finding, if it makes something of it. -/
def filterMap (f : α → Option β) (r : Reading α cs) : Reading β cs :=
  Option.bind r fun found => (f found.1).map fun b => (b, found.2)

def or (r s : Reading α cs) : Reading α cs :=
  Option.or r s

/-- A finding in what is left of a text. -/
def beyond (h : rest.length < cs.length) (r : Reading α rest) : Reading α cs :=
  Option.map (fun found => (found.1, ⟨found.2.1, Nat.lt_trans found.2.2 h⟩)) r

def behind (r : Reading α rest) : Reading α (c :: rest) :=
  beyond (Nat.lt_succ_self _) r

def behindAll : (head : List Char) → Reading α rest → Reading α (head ++ rest)
  | [], r => r
  | _ :: head, r => (behindAll head r).behind

/-- A finding behind the leading characters of a kind. -/
def past (p : Char → Bool) (r : Reading α (cs.dropWhile p)) : Reading α cs :=
  Option.map
    (fun found => (found.1, ⟨found.2.1, Nat.lt_of_lt_of_le found.2.2 (length_dropWhile_le p cs)⟩)) r

/-- The same finding, with the characters of a kind behind it. -/
def skip (p : Char → Bool) (r : Reading α cs) : Reading α cs :=
  Option.map
    (fun found =>
      (found.1, ⟨found.2.1.dropWhile p, Nat.lt_of_le_of_lt (length_dropWhile_le p _) found.2.2⟩)) r

end Reading

/-- A given character, read as `a`. -/
def readChar {α : Type} (c : Char) (a : α) : (cs : List Char) → Reading α cs
  | [] => none
  | d :: _ => if d = c then .first a else none

end BoundSql.Text
