import BoundSql.Proofs.Json.Document
import BoundSql.Proofs.Json.Number

/-!
# Documents as they are written

The writer chooses one spelling of a document: no space, and an escape only where the grammar asks
for one. `source` is the document as it is spelled then, and the text is read back as this document
(`read?_chars`). What the parts of it stand for is what was written: a string for the same text, an
integer for the same integer.
-/

namespace BoundSql.Json

/-! ## Strings -/

/-- A character as it is written: a code where it is a control character without a letter. -/
def Piece.ofChar (c : Char) : Piece :=
  if c.toNat < 32 ∧ c.toNat ∉ [8, 9, 10, 12, 13] then .code c.toNat else .char c

/-- A text, character by character. -/
def piecesOf (s : String) : List Piece :=
  s.toList.map Piece.ofChar

/-- A digit of an escape spells its value. -/
theorem hexDigit_spelled {n : Nat} (small : n < 16) : HexDigit (hexDigit n) n := by
  have all : ∀ n < 16, "0123456789abcdef".toList[n]? = some (hexDigit n) := by decide
  exact .inl (all n small)

/-- Most characters stand for themselves, or have an escape of their own. -/
theorem Piece.ofChar_eq_char {c : Char} (plain : 32 ≤ c.toNat ∨ c.toNat ∈ [8, 9, 10, 12, 13]) :
    Piece.ofChar c = .char c := by
  rw [Piece.ofChar, if_neg]
  rintro ⟨control, unlettered⟩
  rcases plain with printable | lettered
  · omega
  · exact unlettered lettered

/-- A control character that has a letter. -/
theorem Piece.ofChar_lettered {c letter : Char} {n : Nat} (code : c.toNat = n)
    (some : n ∈ [8, 9, 10, 12, 13]) (listed : (letter, Char.ofNat n) ∈ escapes) :
    (Piece.ofChar c).Spelled ['\\', letter] := by
  rw [← code, Char.ofNat_toNat] at listed
  rw [Piece.ofChar_eq_char (.inr (code ▸ some))]
  exact .escape listed

/-- A control character that has no letter. -/
theorem Piece.code_spelled {n : Nat} (small : n < 65536) :
    (Piece.code n).Spelled ('\\' :: 'u' :: hexCode n) := by
  have parts : n = ((n / 4096 % 16 * 16 + n / 256 % 16) * 16 + n / 16 % 16) * 16 + n % 16 := by
    omega
  have digit (k : Nat) : HexDigit (hexDigit (k % 16)) (k % 16) :=
    hexDigit_spelled (Nat.mod_lt k (by decide))
  have spelled := Piece.Spelled.code (digit (n / 4096)) (digit (n / 256)) (digit (n / 16)) (digit n)
  rwa [← parts] at spelled

/-- Every character is written as the piece that it is. -/
theorem Piece.ofChar_spelled (c : Char) : (Piece.ofChar c).Spelled (escape c) := by
  unfold escape
  split
  · next quote => subst quote; exact .escape (by decide)
  split
  · next backslash => subst backslash; exact .escape (by decide)
  split
  · next noQuote noBackslash printable =>
    rw [Piece.ofChar_eq_char (.inl printable)]
    exact .plain printable noQuote noBackslash
  split
  · next code => exact Piece.ofChar_lettered code (by decide) (by decide)
  split
  · next code => exact Piece.ofChar_lettered code (by decide) (by decide)
  split
  · next code => exact Piece.ofChar_lettered code (by decide) (by decide)
  split
  · next code => exact Piece.ofChar_lettered code (by decide) (by decide)
  split
  · next code => exact Piece.ofChar_lettered code (by decide) (by decide)
  · next control _ _ _ _ _ =>
    rw [Piece.ofChar, if_pos ⟨Nat.not_le.1 control, by simp [*]⟩]
    exact Piece.code_spelled (by omega)

theorem piecesOf_spelled (cs : List Char) :
    PiecesSpelled (cs.map Piece.ofChar) (cs.flatMap escape) := by
  induction cs with
  | nil => exact .nil
  | cons c rest ih => exact .cons (Piece.ofChar_spelled c) ih

/-- A text in quotes is a string of the grammar. -/
theorem quoted_spelled (s : String) : (Token.string (piecesOf s)).Spelled (quoted s) :=
  .string (piecesOf_spelled s.toList)

/-- A code that is no half of a pair stands for a character by itself. -/
theorem decode?_code {n : Nat} (leading : isLeadingCode n = false)
    (trailing : isTrailingCode n = false) (rest : List Piece) :
    decode? (.code n :: rest) = (decode? rest).map (Char.ofNat n :: ·) := by
  cases rest with
  | nil => simp [decode?, leading, trailing]
  | cons piece rest => cases piece <;> simp [decode?, leading, trailing]

/-- A text is what its written form stands for. -/
theorem decode?_piecesOf (s : String) : decode? (piecesOf s) = some s.toList := by
  unfold piecesOf
  induction s.toList with
  | nil => rfl
  | cons c rest ih =>
    rw [List.map_cons, Piece.ofChar]
    split
    · next control =>
      have leading : isLeadingCode c.toNat = false := by
        rw [isLeadingCode, Bool.and_eq_false_iff, decide_eq_false_iff_not]
        exact .inl (by omega)
      have trailing : isTrailingCode c.toNat = false := by
        rw [isTrailingCode, Bool.and_eq_false_iff, decide_eq_false_iff_not]
        exact .inl (by omega)
      rw [decode?_code leading trailing, ih, Option.map_some, Char.ofNat_toNat]
    · rw [decode?, ih, Option.map_some]

/-! ## Documents -/

mutual

/-- A document as it is spelled when it is written. -/
def source : Json → Source
  | .null => .null
  | .bool b => .bool b
  | .int n => .number (.ofInt n)
  | .float x => (numeral? (floatChars x)).elim .null .number
  | .string s => .string (piecesOf s)
  | .array items => .array (itemSources items)
  | .object members => .object (memberSources members)

def itemSources : List Json → List Source
  | [] => []
  | item :: rest => item.source :: itemSources rest

def memberSources : List (String × Json) → List (List Piece × Source)
  | [] => []
  | (name, value) :: rest => (piecesOf name, value.source) :: memberSources rest

end

mutual

/-- A document is written as the grammar spells it. -/
theorem source_spelled (doc : Json) : doc.source.Spelled doc.chars :=
  match doc with
  | .null => .single .null
  | .bool true => .single .truth
  | .bool false => .single .falsity
  | .int n => .single (.number (Numeral.ofInt_spelled n))
  | .float x => by
    rw [source, chars]
    cases finite : x.isFinite with
    | true =>
      obtain ⟨n, spelled⟩ := exists_spelled_floatChars finite
      rw [numeral?_eq_some_iff.2 spelled]
      exact .single (.number spelled)
    | false =>
      rw [floatChars_of_not_finite finite]
      exact .single .null
  | .string s => .single (quoted_spelled s)
  | .array items => by
    have inner := (itemSources_spelled items).append (.single .closeBracket)
    exact (Spaced.single .openBracket).append inner
  | .object members => by
    have inner := (memberSources_spelled members).append (.single .closeBrace)
    exact (Spaced.single .openBrace).append inner

theorem itemSources_spelled (items : List Json) :
    Spaced (itemTokens (itemSources items)) (itemChars items) :=
  match items with
  | [] => .nil Blank.nil
  | [item] => item.source_spelled
  | item :: next :: rest =>
    item.source_spelled.append ((Spaced.single .comma).append (itemSources_spelled (next :: rest)))

theorem memberSources_spelled (members : List (String × Json)) :
    Spaced (memberTokens (memberSources members)) (memberChars members) :=
  match members with
  | [] => .nil Blank.nil
  | [(name, value)] =>
    (Spaced.single (quoted_spelled name)).append
      ((Spaced.single .colon).append value.source_spelled)
  | (name, value) :: next :: rest => by
    have later := value.source_spelled.append
      ((Spaced.single .comma).append (memberSources_spelled (next :: rest)))
    have behindName := (Spaced.single .colon).append later
    rw [memberChars, List.append_assoc]
    exact (Spaced.single (quoted_spelled name)).append behindName

end

/-- What is written is read back. -/
theorem read?_chars (doc : Json) : Source.read? doc.chars = some doc.source :=
  Source.read?_eq_some_iff.2 doc.source_spelled

end BoundSql.Json
