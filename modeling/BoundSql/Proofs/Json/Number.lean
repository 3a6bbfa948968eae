import BoundSql.Proofs.Json.Token

/-!
# Numbers as they are written

The text of an integer spells a number that stands for this integer. The text of a finite binary64
number spells a number as well, in each of its layouts: the digits are those of a positive number,
so none in front of the point is a leading zero, and there is one where the grammar asks for one.
What is no finite number is written as no number.
-/

namespace BoundSql

namespace Decimal

/-! ## The shortest digits are no zero -/

/-- Dropping zeros at the end leaves a positive number. -/
theorem trimmed_pos {d : Decimal} (pos : 0 < d.digits) : 0 < d.trimmed.digits := by
  fun_induction trimmed d with
  | case1 d zero => omega
  | case2 d some divisible ih => exact ih (by dsimp only; omega)
  | case3 => exact pos

theorem tenTo_pos (n : Nat) : 0 < tenTo n := by
  induction n with
  | zero => exact Nat.one_pos
  | succ n ih => rw [tenTo]; omega

/-- Zero reads back as no positive number. -/
theorem readsBack_zero {m : Nat} (pos : 0 < m) (q : Int) (edge : Bool) (s : Int) :
    readsBack m q edge s 0 = false := by
  have low : 0 < overBinary s (q - 2) (4 * m - if edge then 1 else 2) := by
    refine Nat.mul_pos ?_ (tenTo_pos _)
    rw [Nat.shiftLeft_eq]
    refine Nat.mul_pos ?_ (Nat.two_pow_pos _)
    split <;> omega
  have point : overDecimal s (q - 2) 0 = 0 := by
    rw [overDecimal, Nat.zero_mul, Nat.zero_shiftLeft]
  unfold readsBack
  dsimp only
  rw [point]
  split
  · rw [Bool.and_eq_false_iff, decide_eq_false_iff_not]
    exact .inl (by omega)
  · rw [Bool.and_eq_false_iff, decide_eq_false_iff_not]
    exact .inl (by omega)

/-- What is found on a grid of decimals reads back as the number. -/
theorem readsBack_of_onGrid? {m : Nat} {q : Int} {edge : Bool} {s : Int} {c : Nat}
    (found : onGrid? m q edge s = some c) : readsBack m q edge s c = true := by
  unfold onGrid? at found
  dsimp only at found
  split at found
  · next below above =>
    cases found
    split
    · exact below
    · exact above
  · next below _ => cases found; exact below
  · next _ above => cases found; exact above
  · cases found

/-- The shortest digits of a positive number are not zero, on whichever grid they are found. -/
theorem shortest_pos {m : Nat} (pos : 0 < m) (q : Int) (edge : Bool) :
    0 < (shortest m q edge).digits := by
  refine trimmed_pos ?_
  cases found : (List.range 17).findSome? fun (n : Nat) =>
      (onGrid? m q edge (leadingExponent m q - n)).map fun c =>
        (⟨c, leadingExponent m q - n⟩ : Decimal) with
  | none => exact pos
  | some d =>
    obtain ⟨n, -, there⟩ := List.exists_of_findSome?_eq_some found
    obtain ⟨c, onGrid, rfl⟩ := Option.map_eq_some_iff.1 there
    show 0 < c
    rw [Nat.pos_iff_ne_zero]
    rintro rfl
    have back := readsBack_of_onGrid? onGrid
    rw [readsBack_zero pos] at back
    cases back

end Decimal

namespace Json

/-! ## Integers -/

/-- The digits of a natural number are decimal digits, and there is one at least. -/
theorem digits_toDigits (n : Nat) : Digits (Nat.toDigits 10 n) :=
  ⟨Nat.toDigits_ne_nil, fun _ mem =>
    Nat.isDigit_of_mem_toDigits (by decide) (Nat.le_refl 10) mem⟩

/-- The digits of a number stand for it. -/
theorem ofDigits_toDigits (n : Nat) : ofDigits (Nat.toDigits 10 n) = n :=
  Nat.ofDigitChars_ten_toDigits

/-- The digits of a positive number start with no zero. -/
theorem head?_toDigits {n : Nat} (pos : 0 < n) : (Nat.toDigits 10 n).head? ≠ some '0' := by
  induction n using Nat.strongRecOn with
  | ind n ih =>
    rw [Nat.toDigits_eq_if (by decide)]
    split
    · next small =>
      have all : ∀ k < 10, 0 < k → [k.digitChar].head? ≠ some '0' := by decide
      exact all n small pos
    · next large =>
      rw [List.head?_append_of_ne_nil _ Nat.toDigits_ne_nil]
      exact ih (n / 10) (by omega) (by omega)

/-- Only zero itself is written with a zero in front. -/
theorem toDigits_leading {n : Nat} (zero : (Nat.toDigits 10 n).head? = some '0') :
    Nat.toDigits 10 n = ['0'] := by
  cases n with
  | zero => exact Nat.toDigits_zero 10
  | succ n => exact absurd zero (head?_toDigits n.succ_pos)

/-- An integer as it is written. -/
def Numeral.ofInt (n : Int) : Numeral where
  negative := decide (n < 0)
  whole := Nat.toDigits 10 n.natAbs
  fraction := none
  exponent := none

/-- The text of an integer spells it as the grammar has it. -/
theorem Numeral.ofInt_spelled (n : Int) : (ofInt n).Spelled (intChars n) := by
  refine ⟨⟨digits_toDigits _, toDigits_leading, nofun, nofun⟩, 'e', .inl rfl, ?_⟩
  unfold intChars
  by_cases negative : n < 0
  · simp [negative, ofInt, magnitude]
  · simp [negative, ofInt, magnitude]

/-- An integer that is read back from its text is the same. -/
theorem Numeral.integer?_ofInt (n : Int) : (ofInt n).integer? = some n := by
  unfold integer?
  simp only [ofInt, ofDigits_toDigits, Option.isNone_none, Bool.and_self, if_true,
    decide_eq_true_eq]
  split <;> rw [Option.some.injEq] <;> omega

/-- Read back as a natural number, a natural number is the same too. -/
theorem Numeral.natural?_ofInt (n : Nat) : (ofInt n).natural? = some n := by
  have positive : ¬ (n : Int) < 0 := by omega
  unfold natural?
  simp only [ofInt, positive, decide_false, Int.natAbs_natCast, ofDigits_toDigits]
  rfl

/-! ## Binary64 numbers -/

/-- A text that spells a number without a sign. -/
def Unsigned (cs : List Char) : Prop :=
  ∃ n : Numeral, n.negative = false ∧ n.Spelled cs

/-- More digits behind some digits. -/
theorem Digits.append {cs ds : List Char} (first : Digits cs)
    (second : ∀ c ∈ ds, c.isDigit = true) : Digits (cs ++ ds) :=
  ⟨List.append_ne_nil_of_left_ne_nil first.1 ds, List.forall_mem_append.2 ⟨first.2, second⟩⟩

theorem isDigit_replicate_zero (n : Nat) : ∀ c ∈ List.replicate n '0', c.isDigit = true := by
  intro c mem
  rw [List.eq_of_mem_replicate mem]
  rfl

namespace Unsigned

/-- Sound parts without a sign. -/
theorem of_sound {n : Numeral} (sound : n.Sound) (positive : n.negative = false) :
    Unsigned (n.magnitude 'e') :=
  ⟨n, positive, sound, 'e', .inl rfl, by rw [positive]; rfl⟩

variable {ds : List Char}

/-- Digits, padded with zeros up to the point, and one zero behind it. -/
theorem integral (digits : Digits ds) (leading : ds.head? ≠ some '0') (zeros : Nat) :
    Unsigned (ds ++ List.replicate zeros '0' ++ ['.', '0']) := by
  have sound : (Numeral.mk false (ds ++ List.replicate zeros '0') (some ['0']) none).Sound := by
    refine ⟨digits.append (isDigit_replicate_zero zeros), fun zero => ?_, ?_, nofun⟩
    · rw [List.head?_append_of_ne_nil _ digits.1] at zero
      exact absurd zero leading
    · rintro _ ⟨⟩
      exact ⟨nofun, List.forall_mem_singleton.2 rfl⟩
  exact of_sound sound rfl

/-- Digits with the point among them. -/
theorem divided (digits : Digits ds) (leading : ds.head? ≠ some '0') {k : Nat} (some : k ≠ 0)
    (more : k < ds.length) : Unsigned (ds.take k ++ '.' :: ds.drop k) := by
  have sound : (Numeral.mk false (ds.take k) (.some (ds.drop k)) none).Sound := by
    refine ⟨⟨?_, fun c mem => digits.2 c (List.mem_of_mem_take mem)⟩, fun zero => ?_, ?_, nofun⟩
    · rw [ne_eq, List.take_eq_nil_iff, not_or]
      exact ⟨some, digits.1⟩
    · rw [List.head?_take, if_neg some] at zero
      exact absurd zero leading
    · rintro _ ⟨⟩
      exact ⟨List.drop_eq_nil_iff.not.2 (Nat.not_le.2 more),
        fun c mem => digits.2 c (List.mem_of_mem_drop mem)⟩
  have spelled := of_sound sound rfl
  rwa [Numeral.magnitude, Option.elim_some, Option.elim_none, List.append_nil] at spelled

/-- A number below one: a zero, the point, and the digits behind more zeros. -/
theorem belowOne (digits : Digits ds) (zeros : Nat) :
    Unsigned ('0' :: '.' :: List.replicate zeros '0' ++ ds) := by
  have sound : (Numeral.mk false ['0'] (some (List.replicate zeros '0' ++ ds)) none).Sound := by
    refine ⟨⟨nofun, List.forall_mem_singleton.2 rfl⟩, fun _ => rfl, ?_, nofun⟩
    rintro _ ⟨⟩
    exact ⟨List.append_ne_nil_of_right_ne_nil _ digits.1,
      List.forall_mem_append.2 ⟨isDigit_replicate_zero zeros, digits.2⟩⟩
  have spelled := of_sound sound rfl
  rwa [Numeral.magnitude, Option.elim_some, Option.elim_none, List.append_nil] at spelled

/-- One digit, the others behind a point if there are any, and an exponent. -/
theorem scientific (digits : Digits ds) (leading : ds.head? ≠ some '0') {sign : Char}
    (signed : sign = '+' ∨ sign = '-') (e : Nat) :
    Unsigned (ds.take 1 ++ (if ds.length = 1 then [] else '.' :: ds.drop 1) ++ ['e', sign] ++
      Nat.toDigits 10 e) := by
  have exponent : Exponent (sign :: Nat.toDigits 10 e) :=
    .inr ⟨sign, _, rfl, signed, digits_toDigits e⟩
  have first : Digits (ds.take 1) := by
    refine ⟨?_, fun c mem => digits.2 c (List.mem_of_mem_take mem)⟩
    rw [ne_eq, List.take_eq_nil_iff, not_or]
    exact ⟨Nat.one_ne_zero, digits.1⟩
  have noZero (zero : (ds.take 1).head? = some '0') : ds.take 1 = ['0'] := by
    rw [List.head?_take, if_neg Nat.one_ne_zero] at zero
    exact absurd zero leading
  by_cases alone : ds.length = 1
  · have sound : (Numeral.mk false (ds.take 1) none (some (sign :: Nat.toDigits 10 e))).Sound :=
      ⟨first, noZero, nofun, fun _ same => Option.some.inj same ▸ exponent⟩
    have spelled := of_sound sound rfl
    rw [if_pos alone, List.append_nil, List.append_assoc]
    exact spelled
  · have several : 1 < ds.length := by
      have some := List.length_eq_zero_iff.not.2 digits.1
      omega
    have rest : Digits (ds.drop 1) :=
      ⟨List.drop_eq_nil_iff.not.2 (Nat.not_le.2 several),
        fun c mem => digits.2 c (List.mem_of_mem_drop mem)⟩
    have sound : (Numeral.mk false (ds.take 1) (some (ds.drop 1))
        (some (sign :: Nat.toDigits 10 e))).Sound :=
      ⟨first, noZero, fun _ same => Option.some.inj same ▸ rest,
        fun _ same => Option.some.inj same ▸ exponent⟩
    have spelled := of_sound sound rfl
    rw [if_neg alone, List.append_assoc, List.append_assoc]
    exact spelled

end Unsigned

/-- The text of a positive number in any of its layouts. -/
theorem FloatLayout.unsigned_chars {d : Decimal} (pos : 0 < d.digits) :
    Unsigned (floatLayout.chars d) := by
  have digits := digits_toDigits d.digits
  have leading := head?_toDigits pos
  have some : (Nat.toDigits 10 d.digits).length ≠ 0 :=
    List.length_eq_zero_iff.not.2 Nat.toDigits_ne_nil
  unfold FloatLayout.chars
  dsimp only
  split
  · split
    · exact .integral digits leading _
    · next fractional =>
      split
      · exact .divided digits leading (by omega) (by omega)
      · exact .belowOne digits _
  · by_cases above : 0 ≤ d.exponent + (Nat.toDigits 10 d.digits).length - 1
    · rw [if_pos above]
      exact .scientific digits leading (.inl rfl) _
    · rw [if_neg above]
      exact .scientific digits leading (.inr rfl) _

/-- A number that is not zero has a positive significand, whether its leading bit is stored or not.
-/
theorem significand_pos {x : Binary64} (some : x.isZero = false) : 0 < x.significand := by
  unfold Binary64.significand
  split
  · next least =>
    rw [Binary64.isZero, least, beq_self_eq_true, Bool.true_and, beq_eq_false_iff_ne] at some
    omega
  · exact Nat.add_pos_right _ (by decide)

/-- A sign in front of a text without one. -/
theorem Unsigned.minus {cs : List Char} (unsigned : Unsigned cs) :
    ∃ n : Numeral, n.Spelled ('-' :: cs) := by
  obtain ⟨n, positive, ⟨whole, leading, fraction, exponent⟩, mark, letter, rfl⟩ := unsigned
  refine ⟨{ n with negative := true }, ⟨whole, leading, fraction, exponent⟩, mark, letter, ?_⟩
  rw [positive]
  rfl

/-- A finite number is written as a number. -/
theorem exists_spelled_floatChars {x : Binary64} (finite : x.isFinite = true) :
    ∃ n : Numeral, n.Spelled (floatChars x) := by
  have unsigned :
      Unsigned (if x.isZero then ['0', '.', '0'] else floatLayout.chars x.shortest) := by
    split
    · have zero : Digits ['0'] := ⟨nofun, List.forall_mem_singleton.2 rfl⟩
      exact .belowOne zero 0
    · next some =>
      exact FloatLayout.unsigned_chars
        (Decimal.shortest_pos (significand_pos (Bool.eq_false_iff.2 some)) _ _)
  have signed : floatChars x = (if x.negative then ['-'] else []) ++
      if x.isZero then ['0', '.', '0'] else floatLayout.chars x.shortest := by
    unfold floatChars
    rw [finite, Bool.not_true, if_neg Bool.false_ne_true, apply_ite ((_ : List Char) ++ ·)]
  rw [signed]
  split
  · exact unsigned.minus
  · obtain ⟨n, -, spelled⟩ := unsigned
    exact ⟨n, spelled⟩

/-- An infinity, and what is not a number, is written as null. -/
theorem floatChars_of_not_finite {x : Binary64} (infinite : x.isFinite = false) :
    floatChars x = ['n', 'u', 'l', 'l'] := by
  rw [floatChars, infinite, Bool.not_false, if_pos rfl]

end Json

end BoundSql
