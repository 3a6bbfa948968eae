import Mathlib.Data.List.Chain
import BoundSql.Json.Token
import BoundSql.Proofs.Text.Reading

/-!
# The grammar of JSON tokens

Which texts spell a token, laid down apart from the reader: strings piece by piece, numbers part by
part, and tokens one after the other with white space between them. The reader is exact for it. It
finds the spelled token at the head of a text, whatever follows, except that a number must not be
followed by a character that a number may hold; and it finds nothing else. So the tokens of a text
are those that the text spells, if no two numbers follow each other (`tokens?_eq_some_iff`). In a
document they never do.
-/

namespace BoundSql.Json

open Text (Reading takeWhile_dropWhile_append)

/-! ## Strings -/

/-- A hexadecimal digit in either case, and its value. -/
def HexDigit (c : Char) (n : Nat) : Prop :=
  "0123456789abcdef".toList[n]? = some c ∨ "0123456789ABCDEF".toList[n]? = some c

/-- The letters behind a backslash that stand for one character. -/
def escapes : List (Char × Char) :=
  [ ('"', '"'), ('\\', '\\'), ('/', '/'), ('b', '\x08'), ('f', '\x0c'), ('n', '\n'), ('r', '\r'),
    ('t', '\t') ]

inductive Piece.Spelled : Piece → List Char → Prop
  | plain {c : Char} (printable : 32 ≤ c.toNat) (noQuote : c ≠ '"') (noBackslash : c ≠ '\\') :
      Spelled (.char c) [c]
  | escape {letter c : Char} (listed : (letter, c) ∈ escapes) : Spelled (.char c) ['\\', letter]
  | code {a b c d : Char} {i j k l : Nat} (first : HexDigit a i) (second : HexDigit b j)
      (third : HexDigit c k) (fourth : HexDigit d l) :
      Spelled (.code (((i * 16 + j) * 16 + k) * 16 + l)) ['\\', 'u', a, b, c, d]

/-- The pieces of a string, one after the other, as they stand between its quotes. -/
inductive PiecesSpelled : List Piece → List Char → Prop
  | nil : PiecesSpelled [] []
  | cons {piece : Piece} {text : List Char} {pieces : List Piece} {texts : List Char}
      (head : piece.Spelled text) (tail : PiecesSpelled pieces texts) :
      PiecesSpelled (piece :: pieces) (text ++ texts)

/-! ## Numbers -/

/-- One or more digits. -/
def Digits (cs : List Char) : Prop :=
  cs ≠ [] ∧ ∀ c ∈ cs, c.isDigit = true

/-- An exponent behind its letter. -/
def Exponent (cs : List Char) : Prop :=
  Digits cs ∨ ∃ sign digits, cs = sign :: digits ∧ (sign = '+' ∨ sign = '-') ∧ Digits digits

/-- A number whose parts are written as they have to be: before the point a zero stands alone. -/
structure Numeral.Sound (n : Numeral) : Prop where
  whole : Digits n.whole
  leading : n.whole.head? = some '0' → n.whole = ['0']
  fraction : ∀ digits, n.fraction = some digits → Digits digits
  exponent : ∀ cs, n.exponent = some cs → Exponent cs

/-- The text of a number without its sign; `mark` is the letter in front of an exponent. -/
def Numeral.magnitude (mark : Char) (n : Numeral) : List Char :=
  n.whole ++ (n.fraction.elim [] ('.' :: ·) ++ n.exponent.elim [] (mark :: ·))

def Numeral.Spelled (n : Numeral) (cs : List Char) : Prop :=
  n.Sound ∧ ∃ mark, (mark = 'e' ∨ mark = 'E') ∧
    cs = (if n.negative then ['-'] else []) ++ n.magnitude mark

/-! ## Tokens -/

inductive Token.Spelled : Token → List Char → Prop
  | openBracket : Spelled .openBracket ['[']
  | closeBracket : Spelled .closeBracket [']']
  | openBrace : Spelled .openBrace ['\x7b']
  | closeBrace : Spelled .closeBrace ['\x7d']
  | colon : Spelled .colon [':']
  | comma : Spelled .comma [',']
  | null : Spelled .null ['n', 'u', 'l', 'l']
  | truth : Spelled (.bool true) ['t', 'r', 'u', 'e']
  | falsity : Spelled (.bool false) ['f', 'a', 'l', 's', 'e']
  | number {n : Numeral} {text : List Char} (spelled : n.Spelled text) : Spelled (.number n) text
  | string {pieces : List Piece} {text : List Char} (spelled : PiecesSpelled pieces text) :
      Spelled (.string pieces) ('"' :: text ++ ['"'])

/-- White space between tokens. -/
def Blank (cs : List Char) : Prop :=
  ∀ c ∈ cs, c = ' ' ∨ c = '\t' ∨ c = '\n' ∨ c = '\r'

/-- Tokens one after the other, with white space around them. -/
inductive Spaced : List Token → List Char → Prop
  | nil {space : List Char} (blank : Blank space) : Spaced [] space
  | cons {space text texts : List Char} {token : Token} {tokens : List Token}
      (blank : Blank space) (head : token.Spelled text) (tail : Spaced tokens texts) :
      Spaced (token :: tokens) (space ++ text ++ texts)

/-! ## Reading strings -/

theorem hexValue?_eq_some_iff {c : Char} {n : Nat} : hexValue? c = some n ↔ HexDigit c n := by
  constructor
  · have decimal : ∀ k < 10, "0123456789abcdef".toList[k]? = some (Char.ofNat (48 + k)) := by decide
    have lower : ∀ k < 6, "0123456789abcdef".toList[10 + k]? = some (Char.ofNat (97 + k)) := by
      decide
    have upper : ∀ k < 6, "0123456789ABCDEF".toList[10 + k]? = some (Char.ofNat (65 + k)) := by
      decide
    have same (base k : Nat) (h : c.toNat = base + k) : Char.ofNat (base + k) = c := by
      rw [← h, Char.ofNat_toNat]
    simp only [hexValue?, Char.le_def, UInt32.le_iff_toNat_le]
    show (if 48 ≤ c.toNat ∧ c.toNat ≤ 57 then _ else if 97 ≤ c.toNat ∧ c.toNat ≤ 102 then _
      else if 65 ≤ c.toNat ∧ c.toNat ≤ 70 then _ else _) = _ → _
    intro value
    split at value
    · cases value
      refine .inl ?_
      rw [decimal _ (by omega), same 48 _ (by omega)]
    split at value
    · cases value
      refine .inl ?_
      rw [show c.toNat - 87 = 10 + (c.toNat - 97) by omega, lower _ (by omega),
        same 97 _ (by omega)]
    split at value
    · cases value
      refine .inr ?_
      rw [show c.toNat - 55 = 10 + (c.toNat - 65) by omega, upper _ (by omega),
        same 65 _ (by omega)]
    · cases value
  · have values (digits : List Char) (short : digits.length ≤ 16)
        (all : ∀ k < 16, digits[k]?.bind hexValue? = some k) (digit : digits[n]? = some c) :
        hexValue? c = some n := by
      have inside := (List.getElem?_eq_some_iff.1 digit).1
      have value := all n (by omega)
      rwa [digit, Option.bind_some] at value
    rintro (lower | upper)
    · exact values _ (by decide) (by decide) lower
    · exact values _ (by decide) (by decide) upper

theorem simpleEscape?_eq_some_iff {letter c : Char} :
    simpleEscape? letter = some c ↔ (letter, c) ∈ escapes := by
  constructor
  · intro value
    unfold simpleEscape? at value
    split at value
    · next same =>
      cases value
      rcases same with rfl | rfl | rfl <;> decide
    repeat' split at value
    all_goals cases value
    all_goals subst letter; decide
  · have all : ∀ entry ∈ escapes, simpleEscape? entry.1 = some entry.2 := by decide
    exact all (letter, c)

theorem hexCode?_eq_some_iff {a b c d : Char} {n : Nat} : hexCode? a b c d = some n ↔
    ∃ i j k l, HexDigit a i ∧ HexDigit b j ∧ HexDigit c k ∧ HexDigit d l ∧
      n = ((i * 16 + j) * 16 + k) * 16 + l := by
  simp only [← hexValue?_eq_some_iff]
  unfold hexCode?
  constructor
  · intro value
    split at value
    · next i j k l first second third fourth =>
      cases value
      exact ⟨i, j, k, l, first, second, third, fourth, rfl⟩
    · cases value
  · rintro ⟨i, j, k, l, first, second, third, fourth, rfl⟩
    rw [first, second, third, fourth]

section Pieces

variable {cs rest : List Char} {piece : Piece} {pieces : List Piece}

/-- A spelled piece is read off the head of a string. -/
theorem found_readPieces_append {text : List Char} (spelled : piece.Spelled text)
    (cs : List Char) : (readPieces (text ++ cs)).found =
      (readPieces cs).found.map (Prod.map (piece :: ·) id) := by
  cases spelled with
  | @plain c printable noQuote noBackslash =>
    have readable : ¬ (c = '\\' ∨ c.toNat < 32) := by
      rintro (rfl | low)
      · exact noBackslash rfl
      · omega
    rw [List.singleton_append, readPieces, if_neg readable, Reading.found_behind,
      Reading.found_map]
    · exact noQuote
    · exact fun _ _ _ _ _ same _ => noBackslash same
    · exact fun _ _ same _ => noBackslash same
  | @escape letter c listed =>
    have value := simpleEscape?_eq_some_iff.2 listed
    have noCode : letter ≠ 'u' := by
      rintro rfl
      cases value
    rw [List.cons_append, List.singleton_append, readPieces, value]
    · exact (Reading.found_behindAll _ _).trans (Reading.found_map _ _)
    · exact fun _ _ _ _ _ same _ => noCode same
  | code first second third fourth =>
    have value := hexCode?_eq_some_iff.2 ⟨_, _, _, _, first, second, third, fourth, rfl⟩
    simp only [List.cons_append, List.nil_append, readPieces, value]
    exact (Reading.found_behindAll _ _).trans (Reading.found_map _ _)

theorem found_readPieces (spelled : PiecesSpelled pieces cs) (rest : List Char) :
    (readPieces (cs ++ '"' :: rest)).found = some (pieces, rest) := by
  induction spelled with
  | nil => rfl
  | cons head tail ih =>
    rw [List.append_assoc, found_readPieces_append head, ih]
    rfl

/-- What is read as a string spells its pieces in front of a quote. -/
theorem spelled_of_readPieces (found : (readPieces cs).found = some (pieces, rest)) :
    ∃ text, cs = text ++ '"' :: rest ∧ PiecesSpelled pieces text := by
  fun_induction readPieces cs generalizing pieces with
  | case1 => cases found
  | case2 rest' =>
    cases found
    exact ⟨[], rfl, .nil⟩
  | case3 a b c d rest' n value ih =>
    rw [Reading.found_behindAll, Reading.found_map, Option.map_eq_some_iff] at found
    obtain ⟨⟨pieces', rest''⟩, found', same⟩ := found
    cases same
    obtain ⟨text, rfl, tail⟩ := ih found'
    obtain ⟨i, j, k, l, first, second, third, fourth, rfl⟩ := hexCode?_eq_some_iff.1 value
    exact ⟨_, rfl, .cons (.code first second third fourth) tail⟩
  | case4 => cases found
  | case5 letter rest' _ c value ih =>
    rw [Reading.found_behindAll, Reading.found_map, Option.map_eq_some_iff] at found
    obtain ⟨⟨pieces', rest''⟩, found', same⟩ := found
    cases same
    obtain ⟨text, rfl, tail⟩ := ih found'
    exact ⟨_, rfl, .cons (.escape (simpleEscape?_eq_some_iff.1 value)) tail⟩
  | case6 => cases found
  | case7 => cases found
  | case8 c rest' noQuote _ _ readable ih =>
    rw [Reading.found_behind, Reading.found_map, Option.map_eq_some_iff] at found
    obtain ⟨⟨pieces', rest''⟩, found', same⟩ := found
    cases same
    obtain ⟨text, rfl, tail⟩ := ih found'
    rw [not_or, Nat.not_lt] at readable
    exact ⟨_, rfl, .cons (.plain readable.2 noQuote readable.1) tail⟩

end Pieces

/-! ## Reading numbers -/

theorem digits_iff {cs : List Char} :
    (!cs.isEmpty && cs.all Char.isDigit) = true ↔ Digits cs := by
  simp [Digits]

theorem exponent?_eq_some_iff {cs e : List Char} :
    exponent? cs = some e ↔ e = cs ∧ Exponent cs := by
  cases cs with
  | nil => simp [exponent?, Exponent, Digits]
  | cons c rest =>
    unfold exponent?
    dsimp only
    by_cases sign : c = '+' ∨ c = '-'
    · have noDigit : ¬ Digits (c :: rest) := by
        rintro ⟨-, all⟩
        have digit := all c List.mem_cons_self
        rcases sign with rfl | rfl <;> cases digit
      have behind : Exponent (c :: rest) ↔ Digits rest := by
        rw [Exponent, or_iff_right noDigit]
        constructor
        · rintro ⟨_, _, ⟨⟩, -, digits⟩
          exact digits
        · exact fun digits => ⟨c, rest, rfl, sign, digits⟩
      rw [if_pos sign, Option.ite_none_right_eq_some, digits_iff, behind, Option.some.injEq,
        and_comm, eq_comm]
    · have plain : Exponent (c :: rest) ↔ Digits (c :: rest) := by
        rw [Exponent, or_iff_left]
        rintro ⟨_, _, ⟨⟩, signed, -⟩
        exact sign signed
      rw [if_neg sign, Option.ite_none_right_eq_some, digits_iff, plain, Option.some.injEq,
        and_comm, eq_comm]

/-- Digits in front of the point. -/
theorem isWhole_iff {cs : List Char} :
    isWhole cs = true ↔ cs ≠ [] ∧ (cs.head? = some '0' → cs = ['0']) := by
  unfold isWhole
  split
  · simp
  · simp
  · next c rest alone =>
    have several : c = '0' → rest ≠ [] := fun zero none => alone zero none
    simp only [bne_iff_ne, ne_eq, reduceCtorEq, not_false_eq_true, true_and, List.head?_cons,
      Option.some.injEq, List.cons.injEq]
    exact ⟨fun other zero => absurd zero other, fun rule zero => several zero (rule zero).2⟩

theorem withExponent?_eq_some_iff {negative : Bool} {whole : List Char}
    {fraction : Option (List Char)} {cs : List Char} {n : Numeral} :
    withExponent? negative whole fraction cs = some n ↔ ∃ exponent,
      n = ⟨negative, whole, fraction, exponent⟩ ∧ (∀ e, exponent = some e → Exponent e) ∧
        ∃ mark, (mark = 'e' ∨ mark = 'E') ∧ cs = exponent.elim [] (mark :: ·) := by
  cases cs with
  | nil =>
    rw [withExponent?]
    constructor
    · intro read
      cases read
      refine ⟨none, rfl, ?_, 'e', .inl rfl, rfl⟩
      intro e some
      cases some
    · rintro ⟨exponent, rfl, -, mark, -, text⟩
      cases exponent with
      | none => rfl
      | some e => cases text
  | cons c rest =>
    rw [withExponent?]
    constructor
    · intro read
      split at read
      · next mark =>
        obtain ⟨e, accepted, rfl⟩ := Option.map_eq_some_iff.1 read
        obtain ⟨rfl, sound⟩ := exponent?_eq_some_iff.1 accepted
        exact ⟨some e, rfl, fun _ same => Option.some.inj same ▸ sound, c, mark, rfl⟩
      · cases read
    · rintro ⟨exponent, rfl, sound, mark, letter, text⟩
      cases exponent with
      | none => cases text
      | some e =>
        cases text
        rw [if_pos letter, exponent?_eq_some_iff.2 ⟨rfl, sound _ rfl⟩, Option.map_some]

theorem digits_takeWhile {cs : List Char} (some : cs.takeWhile Char.isDigit ≠ []) :
    Digits (cs.takeWhile Char.isDigit) :=
  ⟨some, List.all_eq_true.1 List.all_takeWhile⟩

/-- The text of a number whose parts are sound is read as this number. -/
theorem magnitude?_magnitude {n : Numeral} (sound : n.Sound) {mark : Char}
    (letter : mark = 'e' ∨ mark = 'E') : magnitude? n.negative (n.magnitude mark) = some n := by
  obtain ⟨⟨some, whole⟩, leading, fraction, exponent⟩ := sound
  obtain ⟨negative, wholeDigits, fractionDigits, exponentPart⟩ := n
  dsimp only at some whole leading fraction exponent
  have ending : ∀ c ∈ (exponentPart.elim [] (mark :: ·)).head?, c.isDigit = false := by
    cases exponentPart with
    | none => nofun
    | some e => rintro _ ⟨⟩; rcases letter with rfl | rfl <;> rfl
  have read (f : Option (List Char)) := withExponent?_eq_some_iff.2
    ⟨exponentPart, Eq.refl (Numeral.mk negative wholeDigits f exponentPart), exponent, mark,
      letter, rfl⟩
  unfold magnitude? Numeral.magnitude
  cases fractionDigits with
  | none =>
    obtain ⟨taken, left⟩ := takeWhile_dropWhile_append whole ending
    simp only [Option.elim_none, List.nil_append, taken, left, isWhole_iff.2 ⟨some, leading⟩,
      if_true]
    split
    · next point =>
      cases exponentPart with
      | none => cases point
      | some e =>
        cases point
        rcases letter with ⟨⟨⟩⟩ | ⟨⟨⟩⟩
    · exact read none
  | some digits =>
    obtain ⟨present, all⟩ := fraction digits rfl
    have point : ∀ c ∈ ('.' :: (digits ++ exponentPart.elim [] (mark :: ·))).head?,
        c.isDigit = false := by
      rintro _ ⟨⟩
      rfl
    obtain ⟨taken, left⟩ := takeWhile_dropWhile_append whole point
    obtain ⟨taken', left'⟩ := takeWhile_dropWhile_append all ending
    simp only [Option.elim_some, List.cons_append, taken, left, isWhole_iff.2 ⟨some, leading⟩,
      if_true, taken', left', List.isEmpty_iff, present, if_false]
    exact read (.some digits)

theorem magnitude?_eq_some_iff {negative : Bool} {cs : List Char} {n : Numeral} :
    magnitude? negative cs = some n ↔ n.negative = negative ∧ n.Sound ∧
      ∃ mark, (mark = 'e' ∨ mark = 'E') ∧ cs = n.magnitude mark := by
  constructor
  · intro read
    unfold magnitude? at read
    dsimp only at read
    have parts : cs.takeWhile Char.isDigit ++ cs.dropWhile Char.isDigit = cs :=
      List.takeWhile_append_dropWhile
    split at read
    case isFalse => cases read
    case isTrue accepted =>
    obtain ⟨some, leading⟩ := isWhole_iff.1 accepted
    have whole := digits_takeWhile some
    split at read
    · next rest point =>
      split at read
      case isTrue => cases read
      case isFalse there =>
      obtain ⟨exponent, rfl, sound, mark, letter, text⟩ := withExponent?_eq_some_iff.1 read
      have fraction := digits_takeWhile (mt List.isEmpty_iff.2 there)
      refine ⟨rfl, ⟨whole, leading, ?_, sound⟩, mark, letter, ?_⟩
      · rintro _ ⟨⟩
        exact fraction
      · rw [Numeral.magnitude, Option.elim_some, ← text, List.cons_append,
          List.takeWhile_append_dropWhile, ← point, parts]
    · next rest noPoint =>
      obtain ⟨exponent, rfl, sound, mark, letter, text⟩ := withExponent?_eq_some_iff.1 read
      refine ⟨rfl, ⟨whole, leading, nofun, sound⟩, mark, letter, ?_⟩
      rw [Numeral.magnitude, Option.elim_none, List.nil_append, ← text, parts]
  · rintro ⟨rfl, sound, mark, letter, rfl⟩
    exact magnitude?_magnitude sound letter

theorem magnitude_ne_minus {n : Numeral} {mark : Char} (sound : n.Sound) (rest : List Char) :
    n.magnitude mark ≠ '-' :: rest := by
  intro text
  obtain ⟨some, all⟩ := sound.whole
  unfold Numeral.magnitude at text
  cases parts : n.whole with
  | nil => exact some parts
  | cons c cs =>
    rw [parts, List.cons_append] at text
    cases text
    cases all '-' (by rw [parts]; exact List.mem_cons_self)

theorem numeral?_eq_some_iff {cs : List Char} {n : Numeral} :
    numeral? cs = some n ↔ n.Spelled cs := by
  unfold numeral? Numeral.Spelled
  split
  · next rest =>
    rw [magnitude?_eq_some_iff]
    constructor
    · rintro ⟨negative, sound, mark, letter, rfl⟩
      exact ⟨sound, mark, letter, by rw [negative]; rfl⟩
    · rintro ⟨sound, mark, letter, text⟩
      split at text
      · next negative =>
        cases text
        exact ⟨negative, sound, mark, letter, rfl⟩
      · exact absurd text.symm (magnitude_ne_minus sound rest)
  · next noMinus =>
    rw [magnitude?_eq_some_iff]
    constructor
    · rintro ⟨negative, sound, mark, letter, rfl⟩
      exact ⟨sound, mark, letter, by rw [negative]; rfl⟩
    · rintro ⟨sound, mark, letter, text⟩
      split at text
      · exact absurd text (noMinus _)
      · next positive => exact ⟨Bool.eq_false_iff.2 positive, sound, mark, letter, text⟩

/-- A number is a run of characters that numbers consist of, and starts with one. -/
theorem Numeral.Spelled.run {n : Numeral} {cs : List Char} (spelled : n.Spelled cs) :
    cs ≠ [] ∧ ∀ c ∈ cs, isNumeralChar c = true := by
  have digit {c : Char} (h : c.isDigit = true) : isNumeralChar c = true := by
    simp only [isNumeralChar, h, Bool.true_or]
  have digits {ds : List Char} (h : Digits ds) : ∀ c ∈ ds, isNumeralChar c = true :=
    fun c mem => digit (h.2 c mem)
  obtain ⟨sound, mark, letter, rfl⟩ := spelled
  obtain ⟨negative, whole, fraction, exponent⟩ := n
  obtain ⟨wholeDigits, -, fractionDigits, exponentPart⟩ := sound
  constructor
  · intro none
    exact wholeDigits.1 (List.append_eq_nil_iff.1 (List.append_eq_nil_iff.1 none).2).1
  · simp only [Numeral.magnitude, List.forall_mem_append]
    refine ⟨?_, digits wholeDigits, ?_, ?_⟩
    · cases negative with
      | false => nofun
      | true => exact List.forall_mem_singleton.2 rfl
    · cases fraction with
      | none => nofun
      | some ds => exact List.forall_mem_cons.2 ⟨rfl, digits (fractionDigits ds rfl)⟩
    · cases exponent with
      | none => nofun
      | some e =>
        refine List.forall_mem_cons.2 ⟨by rcases letter with rfl | rfl <;> rfl, ?_⟩
        rcases exponentPart e rfl with unsigned | ⟨sign, ds, rfl, signed, after⟩
        · exact digits unsigned
        · exact List.forall_mem_cons.2 ⟨by rcases signed with rfl | rfl <;> rfl, digits after⟩

/-! ## Reading tokens -/

/-- A token that must not be followed by one of its kind without something between them. -/
def Token.isNumber : Token → Bool
  | .number _ => true
  | _ => false

theorem found_readToken_number {n : Numeral} {text rest : List Char} (spelled : n.Spelled text)
    (stop : ∀ c ∈ rest.head?, isNumeralChar c = false) :
    (readToken (text ++ rest)).found = some (.number n, rest) := by
  obtain ⟨some, all⟩ := spelled.run
  cases text with
  | nil => exact absurd rfl some
  | cons c cs =>
    obtain ⟨taken, left⟩ := takeWhile_dropWhile_append
      (fun c' mem => all c' (List.mem_cons_of_mem c mem)) stop
    have first : isNumeralChar c = true := all c List.mem_cons_self
    have value := numeral?_eq_some_iff.2 spelled
    rw [List.cons_append, readToken]
    · rw [Reading.found_filterMap, Reading.found_run, taken, left, Option.bind_some, value]
      rfl
    all_goals
      intros
      subst c
      cases first

/-- A spelled token is read off the head of a text. -/
theorem found_readToken {token : Token} {text rest : List Char} (spelled : token.Spelled text)
    (stop : token.isNumber = true → ∀ c ∈ rest.head?, isNumeralChar c = false) :
    (readToken (text ++ rest)).found = some (token, rest) := by
  cases spelled with
  | number spelled => exact found_readToken_number spelled (stop rfl)
  | string spelled =>
    rw [List.cons_append, List.cons_append, List.append_assoc, readToken, Reading.found_behind,
      Reading.found_map]
    exact congrArg (Option.map _) (found_readPieces spelled rest)
  | _ => rfl

/-- What is read as a token spells it. -/
theorem spelled_of_readToken {token : Token} {cs rest : List Char}
    (found : (readToken cs).found = some (token, rest)) :
    ∃ text, cs = text ++ rest ∧ token.Spelled text := by
  fun_cases readToken cs with
  | case1 => cases found; exact ⟨_, rfl, .openBracket⟩
  | case2 => cases found; exact ⟨_, rfl, .closeBracket⟩
  | case3 => cases found; exact ⟨_, rfl, .openBrace⟩
  | case4 => cases found; exact ⟨_, rfl, .closeBrace⟩
  | case5 => cases found; exact ⟨_, rfl, .colon⟩
  | case6 => cases found; exact ⟨_, rfl, .comma⟩
  | case7 => cases found; exact ⟨['n', 'u', 'l', 'l'], rfl, .null⟩
  | case8 => cases found; exact ⟨['t', 'r', 'u', 'e'], rfl, .truth⟩
  | case9 => cases found; exact ⟨['f', 'a', 'l', 's', 'e'], rfl, .falsity⟩
  | case10 cs =>
    rw [readToken, Reading.found_behind, Reading.found_map, Option.map_eq_some_iff] at found
    obtain ⟨⟨pieces, _⟩, read, same⟩ := found
    cases same
    obtain ⟨text, rfl, spelled⟩ := spelled_of_readPieces read
    exact ⟨'"' :: text ++ ['"'], by simp, .string spelled⟩
  | case11 c cs =>
    rw [readToken] at found
    · rw [Reading.found_filterMap, Reading.found_run, Option.bind_some, Option.map_map,
        Option.map_eq_some_iff] at found
      obtain ⟨n, value, same⟩ := found
      cases same
      refine ⟨c :: cs.takeWhile isNumeralChar, ?_, .number (numeral?_eq_some_iff.1 value)⟩
      rw [List.cons_append, List.takeWhile_append_dropWhile]
    all_goals assumption
  | case12 => cases found

/-- A token starts with a character of its own: no white space, and one of a number only if it is
a number. -/
theorem Token.Spelled.head {token : Token} {text : List Char} (spelled : token.Spelled text) :
    ∃ c cs, text = c :: cs ∧ isSpace c = false ∧ isNumeralChar c = token.isNumber := by
  cases spelled with
  | number spelled =>
    obtain ⟨some, all⟩ := spelled.run
    obtain ⟨c, cs, rfl⟩ := List.exists_cons_of_ne_nil some
    have first := all c List.mem_cons_self
    refine ⟨c, cs, rfl, ?_, first⟩
    rw [Bool.eq_false_iff]
    intro space
    simp only [isSpace, Bool.or_eq_true, beq_iff_eq] at space
    rcases space with ((rfl | rfl) | rfl) | rfl <;> cases first
  | _ => exact ⟨_, _, rfl, rfl, rfl⟩

/-! ## Reading texts -/

theorem isSpace_iff {c : Char} :
    isSpace c = true ↔ c = ' ' ∨ c = '\t' ∨ c = '\n' ∨ c = '\r' := by
  simp only [isSpace, Bool.or_eq_true, beq_iff_eq, or_assoc]

theorem Blank.nil : Blank [] :=
  List.forall_mem_nil _

theorem Spaced.space {space cs : List Char} {ts : List Token} (blank : Blank space)
    (spaced : Spaced ts cs) : Spaced ts (space ++ cs) := by
  cases spaced with
  | nil blank' => exact .nil (List.forall_mem_append.2 ⟨blank, blank'⟩)
  | cons blank' head tail =>
    rw [← List.append_assoc, ← List.append_assoc]
    exact .cons (List.forall_mem_append.2 ⟨blank, blank'⟩) head tail

theorem Spaced.append {cs ds : List Char} {ts us : List Token} (first : Spaced ts cs)
    (second : Spaced us ds) : Spaced (ts ++ us) (cs ++ ds) := by
  induction first with
  | nil blank => exact second.space blank
  | cons blank head _ ih =>
    rw [List.append_assoc _ _ ds]
    exact .cons blank head ih

/-- One token without white space. -/
theorem Spaced.single {token : Token} {text : List Char} (spelled : token.Spelled text) :
    Spaced [token] text := by
  have spaced := Spaced.cons Blank.nil spelled (.nil Blank.nil)
  rwa [List.nil_append, List.append_nil] at spaced

/-- Behind a number stands nothing that belongs to it, if no number follows. -/
theorem Spaced.stop {cs : List Char} {ts : List Token} (spaced : Spaced ts cs)
    (other : ∀ t ∈ ts.head?, t.isNumber = false) : ∀ c ∈ cs.head?, isNumeralChar c = false := by
  have space {c : Char} {cs : List Char} (blank : Blank (c :: cs)) : isNumeralChar c = false := by
    rcases blank c List.mem_cons_self with rfl | rfl | rfl | rfl <;> rfl
  cases spaced with
  | @nil cs blank =>
    cases cs with
    | nil => nofun
    | cons c cs => rintro _ ⟨⟩; exact space blank
  | @cons before text texts token tokens blank head tail =>
    obtain ⟨c, cs, rfl, -, kind⟩ := head.head
    cases before with
    | nil => rintro _ ⟨⟩; exact kind.trans (other token rfl)
    | cons c' cs' => rintro _ ⟨⟩; exact space blank

theorem tokens?_space {space : List Char} (blank : Blank space) (cs : List Char) :
    tokens? (space ++ cs) = tokens? cs := by
  induction space with
  | nil => rfl
  | cons c rest ih =>
    obtain ⟨first, blank⟩ := List.forall_mem_cons.1 blank
    rw [List.cons_append, tokens?, if_pos (isSpace_iff.2 first), ih blank]

theorem tokens?_token {c : Char} {cs : List Char} (start : isSpace c = false) :
    tokens? (c :: cs) = (readToken (c :: cs)).found.bind fun p => (tokens? p.2).map (p.1 :: ·) := by
  rw [tokens?, if_neg (Bool.eq_false_iff.1 start)]
  cases readToken (c :: cs) <;> rfl

/-- No two numbers follow each other. -/
def Apart (ts : List Token) : Prop :=
  ts.IsChain fun t u => t.isNumber = true → u.isNumber = false

theorem tokens?_of_spaced {cs : List Char} {ts : List Token} (spaced : Spaced ts cs)
    (apart : Apart ts) : tokens? cs = some ts := by
  induction spaced with
  | @nil space blank =>
    have none := tokens?_space blank []
    rwa [List.append_nil, tokens?] at none
  | @cons space text texts token tokens blank head tail ih =>
    obtain ⟨follows, apart⟩ := List.isChain_cons.1 apart
    obtain ⟨c, cs, rfl, start, -⟩ := head.head
    have read := found_readToken head fun number =>
      tail.stop fun u next => follows u next number
    rw [List.append_assoc, tokens?_space blank]
    rw [List.cons_append] at read ⊢
    rw [tokens?_token start, read, Option.bind_some, ih apart, Option.map_some]

theorem spaced_of_tokens? {cs : List Char} {ts : List Token} (read : tokens? cs = some ts) :
    Spaced ts cs := by
  fun_induction tokens? cs generalizing ts with
  | case1 => cases read; exact .nil Blank.nil
  | case2 c rest space ih =>
    have blank : Blank [c] := List.forall_mem_singleton.2 (isSpace_iff.1 space)
    exact (ih read).space blank
  | case3 c rest _ token after shorter found ih =>
    obtain ⟨ts, later, rfl⟩ := Option.map_eq_some_iff.1 read
    obtain ⟨text, whole, spelled⟩ := spelled_of_readToken (congrArg Reading.found found)
    rw [whole]
    exact (Spaced.single spelled).append (ih later)
  | case4 => cases read

/-- The tokens of a text are those that it spells, if no two numbers follow each other. -/
theorem tokens?_eq_some_iff {cs : List Char} {ts : List Token} (apart : Apart ts) :
    tokens? cs = some ts ↔ Spaced ts cs :=
  ⟨spaced_of_tokens?, fun spaced => tokens?_of_spaced spaced apart⟩

end BoundSql.Json
