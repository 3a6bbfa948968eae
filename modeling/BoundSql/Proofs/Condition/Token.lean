import BoundSql.Dialect
import BoundSql.Predicate
import BoundSql.Proofs.Text.Reading
import BoundSql.Writer

/-!
# The tokens of a condition

The text of a condition is read as tokens: names of columns between a dialect's brackets,
placeholders behind its prefix, the few words and signs that conditions are made of, and
parentheses. A word or a placeholder ends where its letters and digits end, so it is read alone only
if nothing of the kind follows (`Ends`).

`Lexes` says that a text is read as some tokens, whatever text of a kind follows. It is closed under
appending; what is proved here is that the pieces of conditions lex, each under its dialect's
brackets and prefix, which must not be characters of the words and signs themselves
(`Dialect.Legible`). A column's name may hold any character but the closing bracket.
-/

namespace BoundSql

namespace Condition

/-- What the text of a condition consists of. -/
inductive Token
  | column (name : String)
  | placeholder (name : String)
  | sign (op : Comparison)
  | connective (op : Connective)
  | is
  | not
  | null
  | among
  | one
  | zero
  | opening
  | closing
deriving DecidableEq, Repr

/-- The token of a word. -/
def wordToken? (word : String) : Option Token :=
  match word with
  | "and" => some (.connective .and)
  | "or" => some (.connective .or)
  | "is" => some .is
  | "not" => some .not
  | "null" => some .null
  | "in" => some .among
  | "1" => some .one
  | "0" => some .zero
  | _ => none

/-- A character of words and of the names of placeholders. -/
def isWordChar (c : Char) : Bool :=
  c.isAlphanum || c == '_'

/-- A character that conditions have outside of names: of a word, a sign or parenthesis, a space. -/
def isPlainChar (c : Char) : Bool :=
  isWordChar c || " ()=<>".toList.contains c

end Condition

/-- The brackets and the prefix are no characters of words and signs, and can be told apart. -/
structure Dialect.Legible (d : Dialect) : Prop where
  opening : Condition.isPlainChar d.brackets.opening = false
  bindPrefix : Condition.isPlainChar d.bindPrefix = false
  distinct : d.bindPrefix ≠ d.brackets.opening

/-- Brackets and a prefix that built-in dialects have can be told from all other signs. -/
theorem Dialect.legible_of_builtIn {d : Dialect}
    (hbrackets : d.brackets ∈ builtIn.map Dialect.brackets)
    (hbind : d.bindPrefix ∈ builtIn.map Dialect.bindPrefix) : d.Legible := by
  have opening : ∀ e ∈ builtIn, Condition.isPlainChar e.brackets.opening = false := by decide
  have bindPrefix : ∀ e ∈ builtIn, Condition.isPlainChar e.bindPrefix = false := by decide
  have distinct : ∀ e ∈ builtIn, ∀ f ∈ builtIn, f.bindPrefix ≠ e.brackets.opening := by decide
  obtain ⟨e, he, hbrackets⟩ := List.mem_map.1 hbrackets
  obtain ⟨f, hf, hbind⟩ := List.mem_map.1 hbind
  refine ⟨?_, hbind ▸ bindPrefix f hf, ?_⟩
  · rw [← hbrackets]
    exact opening e he
  · rw [← hbrackets, ← hbind]
    exact distinct e he f hf

namespace Condition

open Text (Rest Reading takeWhile_dropWhile_append)

/-- Read the sign, the parenthesis or the space at the head of a text; a space is no token. -/
def readSign? (c : Char) (rest : List Char) : Reading (Option Token) (c :: rest) :=
  match c, rest with
  | ' ', _ => .first none
  | '(', _ => .first (some .opening)
  | ')', _ => .first (some .closing)
  | '=', _ => .first (some (.sign .eq))
  | '<', '>' :: _ => (Reading.first (some (.sign .ne))).behind
  | '<', '=' :: _ => (Reading.first (some (.sign .le))).behind
  | '<', _ => .first (some (.sign .lt))
  | '>', '=' :: _ => (Reading.first (some (.sign .ge))).behind
  | '>', _ => .first (some (.sign .gt))
  | _, _ => none

/-- Read the token at the head of a text. -/
def readToken? (d : Dialect) (c : Char) (rest : List Char) : Reading (Option Token) (c :: rest) :=
  if c = d.brackets.opening then
    let name := String.ofList (rest.takeWhile (· != d.brackets.closing))
    let behind := (Rest.whole rest).dropWhile (· != d.brackets.closing)
    (behind.tail? (· == d.brackets.closing)).bind (Reading.upTo (some (.column name)))
  else if c = d.bindPrefix then
    .upTo (some (.placeholder (String.ofList (rest.takeWhile isWordChar))))
      ((Rest.whole rest).dropWhile isWordChar)
  else if isWordChar c then
    (Reading.run isWordChar).filterMap fun word => (wordToken? (String.ofList word)).map some
  else readSign? c rest

/-- The tokens of a text, if it consists of tokens. -/
def tokens? (d : Dialect) : List Char → Option (List Token)
  | [] => some []
  | c :: rest => do
    let (token, behind) ← readToken? d c rest
    let tokens ← tokens? d behind.1
    pure (token.toList ++ tokens)
termination_by cs => cs.length
decreasing_by exact behind.2

/-! ## Reading one token -/

section

variable {d : Dialect} {c : Char} {cs : List Char} {token : Option Token}

theorem tokens?_cons {rest : { rest : List Char // rest.length < (c :: cs).length }}
    (h : readToken? d c cs = some (token, rest)) :
    tokens? d (c :: cs) = (tokens? d rest.1).map (token.toList ++ ·) := by
  rw [tokens?, h]
  cases htokens : tokens? d rest.1 with
  | none => simp only [Option.bind_eq_bind, Option.bind_some, htokens, Option.bind_none,
      Option.map_none]
  | some tokens => simp only [Option.bind_eq_bind, Option.bind_some, htokens, Option.pure_def,
      Option.map_some]

theorem ne_of_isPlainChar {c c' : Char} (h : isPlainChar c = true) (h' : isPlainChar c' = false) :
    c ≠ c' := by
  rintro rfl
  rw [h] at h'
  cases h'

/-- What starts no word, name or placeholder is a sign. -/
theorem readToken?_plain (legible : d.Legible) (plain : isPlainChar c = true)
    (noWord : isWordChar c = false) (cs : List Char) : readToken? d c cs = readSign? c cs := by
  rw [readToken?, if_neg (ne_of_isPlainChar plain legible.opening),
    if_neg (ne_of_isPlainChar plain legible.bindPrefix), if_neg (by rw [noWord]; nofun)]

/-- Space between tokens is no token. -/
theorem tokens?_space (legible : d.Legible) (cs : List Char) :
    tokens? d (' ' :: cs) = tokens? d cs := by
  rw [tokens?_cons ((readToken?_plain legible rfl rfl cs).trans rfl)]
  exact Option.map_id'

/-- A sign is a token by itself. -/
theorem tokens?_sign (legible : d.Legible) {rest : List Char} {token : Token}
    (plain : isPlainChar c = true) (noWord : isWordChar c = false)
    (h : ∃ lt, readSign? c cs = some (some token, ⟨rest, lt⟩)) :
    tokens? d (c :: cs) = (tokens? d rest).map ([token] ++ ·) := by
  obtain ⟨_, h⟩ := h
  exact tokens?_cons ((readToken?_plain legible plain noWord cs).trans h)

end

/-! ## Reading pieces of text -/

/-- Nothing that a word goes on with stands at the head of a text. -/
def Ends (rest : List Char) : Prop :=
  ∀ c ∈ rest.head?, isWordChar c = false

/-- A text is read as some tokens, whatever follows, if it follows as `follow` says. -/
def Lexes (d : Dialect) (follow : List Char → Prop) (s : String) (ts : List Token) : Prop :=
  ∀ rest, follow rest → tokens? d (s.toList ++ rest) = (tokens? d rest).map (ts ++ ·)

theorem ends_cons {c : Char} (h : isWordChar c = false) (rest : List Char) : Ends (c :: rest) := by
  rintro _ ⟨⟩
  exact h

/-- A keyword has letters only, and one at least. -/
theorem exists_cons_of_wordToken? {w : String} {t : Token} (h : wordToken? w = some t) :
    ∃ c cs, w.toList = c :: cs ∧ (c :: cs).all isWordChar = true := by
  unfold wordToken? at h
  split at h
  case h_9 => cases h
  all_goals exact ⟨_, _, rfl, rfl⟩

namespace Lexes

variable {d : Dialect} {follow before : List Char → Prop} {s u : String} {ts us : List Token}

/-- One text behind another, if the second may follow the first. -/
theorem append (hs : Lexes d before s ts) (hu : Lexes d follow u us)
    (h : ∀ rest, follow rest → before (u.toList ++ rest)) : Lexes d follow (s ++ u) (ts ++ us) := by
  intro rest hrest
  rw [String.toList_append, List.append_assoc, hs _ (h rest hrest), hu rest hrest, Option.map_map]
  exact congrArg (Option.map · _) (funext fun tokens => (List.append_assoc ts us tokens).symm)

theorem weaken (hs : Lexes d before s ts) (h : ∀ rest, follow rest → before rest) :
    Lexes d follow s ts :=
  fun rest hrest => hs rest (h rest hrest)

/-- A text that needs no end lexes in front of every other. -/
theorem append_left (hs : Lexes d (fun _ => True) s ts) (hu : Lexes d follow u us) :
    Lexes d follow (s ++ u) (ts ++ us) :=
  hs.append hu fun _ _ => trivial

theorem space (legible : d.Legible) : Lexes d (fun _ => True) " " [] := by
  intro rest _
  show tokens? d (' ' :: rest) = _
  rw [tokens?_space legible]
  exact Option.map_id'.symm

theorem opening (legible : d.Legible) : Lexes d (fun _ => True) "(" [.opening] := by
  intro rest _
  show tokens? d ('(' :: rest) = _
  exact tokens?_sign legible rfl rfl ⟨_, rfl⟩

theorem closing (legible : d.Legible) : Lexes d (fun _ => True) ")" [.closing] := by
  intro rest _
  show tokens? d (')' :: rest) = _
  exact tokens?_sign legible rfl rfl ⟨_, rfl⟩

/-- A sign stands between spaces, so the longer ones are not taken for the shorter. -/
theorem sign (legible : d.Legible) (op : Comparison) :
    Lexes d (fun _ => True) op.sql [.sign op] := by
  intro rest _
  have core : ∃ c cs, op.sql.toList ++ rest = ' ' :: c :: (cs ++ ' ' :: rest) ∧
      tokens? d (c :: (cs ++ ' ' :: rest)) =
        (tokens? d (' ' :: rest)).map ([.sign op] ++ ·) := by
    cases op with
    | eq => exact ⟨'=', [], rfl, tokens?_sign legible rfl rfl ⟨_, rfl⟩⟩
    | ne => exact ⟨'<', ['>'], rfl, tokens?_sign legible rfl rfl ⟨_, rfl⟩⟩
    | lt => exact ⟨'<', [], rfl, tokens?_sign legible rfl rfl ⟨_, rfl⟩⟩
    | le => exact ⟨'<', ['='], rfl, tokens?_sign legible rfl rfl ⟨_, rfl⟩⟩
    | gt => exact ⟨'>', [], rfl, tokens?_sign legible rfl rfl ⟨_, rfl⟩⟩
    | ge => exact ⟨'>', ['='], rfl, tokens?_sign legible rfl rfl ⟨_, rfl⟩⟩
  obtain ⟨c, cs, text, read⟩ := core
  rw [text, tokens?_space legible, read, tokens?_space legible]

/-- A keyword is one token, if no letter follows. -/
theorem word (legible : d.Legible) (w : String) {t : Token} (ht : wordToken? w = some t) :
    Lexes d Ends w [t] := by
  intro rest hrest
  obtain ⟨c, cs, hw, all⟩ := exists_cons_of_wordToken? ht
  obtain ⟨hc, hcs⟩ := Bool.and_eq_true_iff.1 all
  obtain ⟨taken, left⟩ := takeWhile_dropWhile_append (List.all_eq_true.1 hcs) hrest
  have plain : isPlainChar c = true := by rw [isPlainChar, hc, Bool.true_or]
  have found : readToken? d c (cs ++ rest) =
      some (some t, ⟨rest, by rw [List.length_cons, List.length_append]; omega⟩) := by
    rw [readToken?, if_neg (ne_of_isPlainChar plain legible.opening),
      if_neg (ne_of_isPlainChar plain legible.bindPrefix), if_pos hc]
    have named : wordToken? (String.ofList (c :: cs)) = some t := by
      rw [← hw, String.ofList_toList, ht]
    simp only [Reading.run, Reading.upTo, Reading.filterMap, Option.bind_some, taken, named,
      Option.map_some, Rest.dropWhile, Rest.whole, left]
  rw [hw, List.cons_append, tokens?_cons found]
  rfl

/-- A placeholder is one token, if its name has letters only and none follows. -/
theorem placeholder (legible : d.Legible) {name : String}
    (all : name.toList.all isWordChar = true) :
    Lexes d Ends (d.placeholder name) [.placeholder name] := by
  intro rest hrest
  obtain ⟨taken, left⟩ := takeWhile_dropWhile_append (List.all_eq_true.1 all) hrest
  have found : readToken? d d.bindPrefix (name.toList ++ rest) =
      some (some (.placeholder name),
        ⟨rest, by rw [List.length_cons, List.length_append]; omega⟩) := by
    rw [readToken?, if_neg legible.distinct, if_pos rfl]
    simp only [Reading.upTo, taken, String.ofList_toList, Rest.dropWhile, Rest.whole, left]
  have text : (d.placeholder name).toList = d.bindPrefix :: name.toList := by
    rw [Dialect.placeholder, String.toList_append, Char.toString, String.toList_singleton]
    rfl
  rw [text, List.cons_append, tokens?_cons found]
  rfl

/-- A name in brackets is one token, unless it contains the closing bracket. -/
theorem column (d : Dialect) {name : String} (h : d.brackets.closing ∉ name.toList) :
    Lexes d (fun _ => True) (d.identifier name) [.column name] := by
  intro rest _
  have inside : ∀ c ∈ name.toList, (c != d.brackets.closing) = true := by
    intro c hc
    rw [bne_iff_ne]
    rintro rfl
    exact h hc
  have stop : ∀ c ∈ (d.brackets.closing :: rest).head?, (c != d.brackets.closing) = false := by
    rintro c ⟨⟩
    exact bne_self_eq_false _
  obtain ⟨taken, left⟩ := takeWhile_dropWhile_append inside stop
  have found : readToken? d d.brackets.opening (name.toList ++ d.brackets.closing :: rest) =
      some (some (.column name),
        ⟨rest, by rw [List.length_cons, List.length_append, List.length_cons]; omega⟩) := by
    rw [readToken?, if_pos rfl]
    simp only [Rest.dropWhile, Rest.whole, Rest.tail?, Rest.tail, Reading.upTo, taken, left,
      List.head?_cons, Option.any_some, beq_self_eq_true, if_true, Option.bind_some,
      String.ofList_toList, List.tail_cons]
  have text : (d.identifier name).toList =
      d.brackets.opening :: (name.toList ++ [d.brackets.closing]) := by
    rw [Dialect.identifier, String.toList_push, String.toList_append, Char.toString,
      String.toList_singleton]
    rfl
  rw [text, List.cons_append, List.append_assoc, List.singleton_append, tokens?_cons found]
  rfl

/-! ### The words of conditions -/

/-- A word between two spaces needs no end. -/
theorem spaced (legible : d.Legible) {w : String} {t : Token} (hw : Lexes d Ends w [t]) :
    Lexes d (fun _ => True) (" " ++ w ++ " ") [t] :=
  (append_left (space legible) hw).append (space legible) fun _ _ => ends_cons rfl _

theorem connective (legible : d.Legible) (op : Connective) :
    Lexes d (fun _ => True) op.sql [.connective op] := by
  cases op with
  | and => exact spaced legible (word legible "and" rfl)
  | or => exact spaced legible (word legible "or" rfl)

theorem among (legible : d.Legible) : Lexes d (fun _ => True) " in " [.among] :=
  spaced legible (word legible "in" rfl)

theorem isNull (legible : d.Legible) : Lexes d Ends " is null" [.is, .null] :=
  append_left (spaced legible (word legible "is" rfl))
    (word legible "null" rfl)

theorem isNotNull (legible : d.Legible) : Lexes d Ends " is not null" [.is, .not, .null] :=
  append_left (spaced legible (word legible "is" rfl)) <|
    (word legible "not" rfl).append
      (append_left (space legible) (word legible "null" rfl))
      fun _ _ => ends_cons rfl _

/-- One compared with a digit is how a constant is written. -/
theorem constant (legible : d.Legible) {w : String} {t : Token} (hw : Lexes d Ends w [t]) :
    Lexes d Ends ("1" ++ Comparison.eq.sql ++ w) [.one, .sign .eq, t] :=
  ((word legible "1" rfl).append (sign legible .eq) fun _ _ => ends_cons rfl _)
    |>.append_left hw

end Lexes

/-- The names that are given by position have letters and digits only. -/
theorem positional_isWordChar (n : Nat) :
    (Writing.positional n).toList.all isWordChar = true := by
  have digits : ∀ c ∈ Nat.toDigits 10 n, isWordChar c = true := by
    intro c hc
    have digit := Nat.isDigit_of_mem_toDigits (by decide) (by decide) hc
    rw [isWordChar, Char.isAlphanum, digit, Bool.or_true, Bool.true_or]
  rw [List.all_eq_true, Writing.positional, String.toList_append]
  intro c hc
  rcases List.mem_append.1 hc with hc | hc
  · rw [List.mem_singleton.1 (hc : c ∈ ['p'])]
    rfl
  · exact digits c (by rwa [← Nat.toList_repr])

end Condition

end BoundSql
