import BoundSql.Text.Cut

/-!
# What a cut leaves

What is left of a text behind a cut is a front part of it. On the way back from an offset the scan
meets the last position up to there (`le_scanBack`), so the part in front of it is the longest that
fits (`Longest`), and a character that follows it does not fit any more.

A text is cut back to a length exactly if it is longer than that and the length falls inside one of
its characters (`truncate?_eq_none_iff`). A text that has only grown is cut back to what it was
(`truncate?_append`), and `truncate?_eq_some_iff` says that this is the only way to get it back.
-/

namespace BoundSql.Text

variable {s : String} {offset : Nat}

/-! ## Positions -/

theorem front_append (p : s.Pos) : ∃ rest, s = front p ++ rest :=
  ⟨_, p.splits.eq_append⟩

theorem utf8ByteSize_front (p : s.Pos) : (front p).utf8ByteSize = p.offset.byteIdx := by
  rw [p.splits.offset_eq_rawEndPos, String.byteIdx_rawEndPos]
  rfl

/-- Each front part of a text ends at a position. -/
theorem exists_pos {t : String} (stands : ∃ rest, s = t ++ rest) :
    ∃ p : s.Pos, front p = t ∧ p.offset.byteIdx = t.utf8ByteSize := by
  obtain ⟨rest, split⟩ := stands
  have splits := String.Pos.splits_ofEqAppend split
  refine ⟨_, splits.copy_sliceTo_eq, ?_⟩
  rw [splits.offset_eq_rawEndPos, String.byteIdx_rawEndPos]

/-- A part in front of an earlier position is a front part of the other. -/
theorem front_append_of_le {p q : s.Pos} (le : p.offset.byteIdx ≤ q.offset.byteIdx) :
    ∃ more, front q = front p ++ more := by
  obtain ⟨more, split, -⟩ := (p.splits.le_iff_exists_eq_append q.splits).1 le
  exact ⟨more, split⟩

theorem eq_empty_or_cons (s : String) : s = "" ∨ ∃ c rest, s = String.singleton c ++ rest := by
  by_cases empty : s.startPos = s.endPos
  · exact .inl (String.startPos_eq_endPos_iff.1 empty)
  · exact .inr ⟨_, String.eq_singleton_append empty⟩

/-! ## The scan -/

theorem scanBack_le (s : String) (offset : Nat) : (scanBack s offset).offset.byteIdx ≤ offset := by
  induction offset with
  | zero => exact Nat.le_refl 0
  | succ offset ih =>
    unfold scanBack
    split
    · exact Nat.le_refl _
    · exact Nat.le_succ_of_le ih

/-- No position up to the offset lies behind the one that the scan meets. -/
theorem le_scanBack {p : s.Pos} (le : p.offset.byteIdx ≤ offset) :
    p.offset.byteIdx ≤ (scanBack s offset).offset.byteIdx := by
  induction offset with
  | zero => exact Nat.le_trans le (Nat.zero_le _)
  | succ offset ih =>
    unfold scanBack
    split
    · exact le
    · next inside =>
      rcases Nat.lt_or_eq_of_le le with earlier | same
      · exact ih (Nat.le_of_lt_succ earlier)
      · exact absurd (same ▸ p.isValid) inside

/-! ## The longest part that fits -/

/-- Of the front parts of a text that have at most `budget` bytes, `kept` is the longest. -/
structure Longest (budget : Nat) (s kept : String) : Prop where
  stands : ∃ rest, s = kept ++ rest
  fits : kept.utf8ByteSize ≤ budget
  longest : ∀ front rest, s = front ++ rest → front.utf8ByteSize ≤ budget →
    ∃ more, kept = front ++ more

theorem longest_self (fits : s.utf8ByteSize ≤ offset) : Longest offset s s :=
  ⟨⟨"", String.append_empty.symm⟩, fits, fun _ rest split _ => ⟨rest, split⟩⟩

theorem scanBack_longest (s : String) (offset : Nat) :
    Longest offset s (front (scanBack s offset)) where
  stands := front_append _
  fits := by
    rw [utf8ByteSize_front]
    exact scanBack_le s offset
  longest := by
    intro t rest split fits
    obtain ⟨p, rfl, size⟩ := exists_pos ⟨rest, split⟩
    exact front_append_of_le (le_scanBack (size.symm ▸ fits))

namespace Longest

variable {budget : Nat} {kept : String}

/-- A front part that uses up the budget is what is kept. -/
theorem eq_of_append {t rest : String} (h : Longest t.utf8ByteSize (t ++ rest) kept) :
    kept = t := by
  obtain ⟨more, longer⟩ := h.longest t rest rfl (Nat.le_refl _)
  have fits := h.fits
  rw [longer, String.utf8ByteSize_append] at fits
  have none : more = "" := String.utf8ByteSize_eq_zero_iff.1 (by omega)
  rw [longer, none, String.append_empty]

/-- The character behind what is kept does not fit any more. -/
theorem lt_of_next (h : Longest budget s kept) {c : Char} {rest : String}
    (split : s = kept ++ (String.singleton c ++ rest)) :
    budget < kept.utf8ByteSize + c.utf8Size := by
  refine Nat.lt_of_not_le fun fits => ?_
  obtain ⟨more, longer⟩ := h.longest (kept ++ String.singleton c) rest
    (by rw [split, String.append_assoc])
    (by rwa [String.utf8ByteSize_append, String.utf8ByteSize_singleton])
  have size := congrArg String.utf8ByteSize longer
  rw [String.utf8ByteSize_append, String.utf8ByteSize_append, String.utf8ByteSize_singleton] at size
  have := c.utf8Size_pos
  omega

/-- A character has four bytes at most, so no more than three of the budget are left over. -/
theorem le_add_three (h : Longest budget s kept) (inside : budget ≤ s.utf8ByteSize) :
    budget ≤ kept.utf8ByteSize + 3 := by
  obtain ⟨rest, stands⟩ := h.stands
  rcases eq_empty_or_cons rest with rfl | ⟨c, rest, rfl⟩
  · rw [stands, String.append_empty] at inside
    exact Nat.le_add_right_of_le inside
  · have next := h.lt_of_next stands
    have := c.utf8Size_le_four
    omega

end Longest

/-- A text that is within the limit is not scanned, and is its own longest part. -/
theorem cut_longest (limit : Nat) (s : String) : Longest limit s (cut limit s) := by
  unfold cut
  split
  · next fits => exact longest_self fits
  · exact scanBack_longest s limit

theorem dropLastBytes_longest (n : Nat) (s : String) :
    Longest (s.utf8ByteSize - n) s (dropLastBytes n s) :=
  scanBack_longest s _

/-- What is dropped may be made of whole characters. -/
theorem dropLastBytes_append (s t : String) : dropLastBytes t.utf8ByteSize (s ++ t) = s := by
  have longest := dropLastBytes_longest t.utf8ByteSize (s ++ t)
  rw [String.utf8ByteSize_append, Nat.add_sub_cancel] at longest
  exact longest.eq_of_append

/-! ## Back to a length -/

/-- The offset lies inside a character of the text. -/
def Inside (s : String) (offset : Nat) : Prop :=
  ∃ before c rest, s = before ++ (String.singleton c ++ rest) ∧
    before.utf8ByteSize < offset ∧ offset < before.utf8ByteSize + c.utf8Size

/-- The offsets that are no positions are those inside a character and those behind the end. -/
theorem not_isValid_iff :
    ¬String.Pos.Raw.IsValid s ⟨offset⟩ ↔ s.utf8ByteSize < offset ∨ Inside s offset := by
  constructor
  · intro invalid
    refine Nat.lt_or_ge s.utf8ByteSize offset |>.imp id fun within => ?_
    have longest := scanBack_longest s offset
    obtain ⟨rest, split⟩ := longest.stands
    have apart : (front (scanBack s offset)).utf8ByteSize ≠ offset := by
      rw [utf8ByteSize_front]
      intro same
      have here : (scanBack s offset).offset = ⟨offset⟩ := String.Pos.Raw.ext same
      exact invalid (here ▸ (scanBack s offset).isValid)
    have before := Nat.lt_of_le_of_ne longest.fits apart
    rcases eq_empty_or_cons rest with rfl | ⟨c, rest, rfl⟩
    · rw [String.append_empty] at split
      rw [← split] at before
      omega
    · exact ⟨_, c, rest, split, before, longest.lt_of_next split⟩
  · rintro (beyond | ⟨before, c, rest, rfl, behind, inside⟩) valid
    · exact absurd valid.le_utf8ByteSize (Nat.not_le_of_lt beyond)
    · simp only [String.Pos.Raw.isValid_append, String.Pos.Raw.isValid_singleton,
        String.Pos.Raw.le_iff, String.byteIdx_rawEndPos, String.Pos.Raw.byteIdx_sub_string,
        String.Pos.Raw.ext_iff, String.Pos.Raw.byteIdx_zero, String.utf8ByteSize_singleton] at valid
      have := fun h : String.Pos.Raw.IsValid before ⟨offset⟩ => h.le_utf8ByteSize
      rcases valid with valid | ⟨-, (same | same) | ⟨le, -⟩⟩
      · exact absurd (this valid) (Nat.not_le_of_lt behind)
      all_goals omega

/-- A text cannot be cut back to a length that falls inside one of its characters, and to any other
it can. -/
theorem truncate?_eq_none_iff : truncate? offset s = none ↔ Inside s offset := by
  unfold truncate?
  split
  · next beyond =>
    refine iff_of_false nofun ?_
    rintro ⟨before, c, rest, rfl, -, inside⟩
    rw [String.utf8ByteSize_append, String.utf8ByteSize_append, String.utf8ByteSize_singleton]
      at beyond
    omega
  · next within =>
    have invalid : ¬String.Pos.Raw.IsValid s ⟨offset⟩ ↔ _ := not_isValid_iff
    rw [or_iff_right within] at invalid
    split
    · next valid => exact iff_of_false nofun fun inside => invalid.2 inside valid
    · next inside => exact iff_of_true rfl (invalid.1 inside)

/-- What a text is cut back to is its longest front part of this length. -/
theorem longest_of_truncate? {kept : String} (h : truncate? offset s = some kept) :
    Longest offset s kept := by
  unfold truncate? at h
  split at h
  · next shorter =>
    cases h
    exact longest_self (Nat.le_of_lt shorter)
  · split at h
    · next valid =>
      cases h
      refine ⟨front_append _, Nat.le_of_eq (utf8ByteSize_front _), fun t rest split fits => ?_⟩
      obtain ⟨p, rfl, size⟩ := exists_pos ⟨rest, split⟩
      exact front_append_of_le (size.symm ▸ fits)
    · cases h

/-- A text that has grown is cut back to what it was. -/
theorem truncate?_append (s t : String) : truncate? s.utf8ByteSize (s ++ t) = some s := by
  cases cut : truncate? s.utf8ByteSize (s ++ t) with
  | some kept => rw [(longest_of_truncate? cut).eq_of_append]
  | none =>
    have valid : String.Pos.Raw.IsValid (s ++ t) ⟨s.utf8ByteSize⟩ :=
      String.Pos.Raw.isValid_append.2 (.inl String.Pos.Raw.isValid_rawEndPos)
    exact absurd valid (not_isValid_iff.2 (.inr (truncate?_eq_none_iff.1 cut)))

/-- To a length the texts are cut back that stand in front, and no others. -/
theorem truncate?_eq_some_iff {t : String} :
    truncate? s.utf8ByteSize t = some s ↔ ∃ rest, t = s ++ rest := by
  constructor
  · exact fun cut => (longest_of_truncate? cut).stands
  · rintro ⟨rest, rfl⟩
    exact truncate?_append s rest

end BoundSql.Text
