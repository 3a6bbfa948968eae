import BoundSql.Proofs.Execution

/-!
# Trims and excerpts

Text is cut short in two places: a writer takes bytes away from the end of a statement, and a trace
shows a long statement up to its limit. Both count bytes, and neither leaves half a character: from
the offset in question they go back to the next position (`Text.CutAt`).

`Writer.trim_excerpt_cutAt` says what is left in both cases, for all texts. A trim changes nothing
else. A text within the limit of a trace is shown as it is, and any other is shortened and gets
three dots. The outcome alone does not always tell which it was: the dots may stand in for three
dots that were cut off (`Trace.excerpt_dotted`).
-/

namespace BoundSql

namespace Text

variable {limit : Nat} {s kept : String}

/-- Three dots behind what is kept make the text again exactly when they are what was cut off. -/
theorem Longest.append_dots_eq_iff (h : Longest limit s kept) :
    kept ++ "..." = s ↔ ∃ front, limit = front.utf8ByteSize ∧ s = front ++ "..." := by
  constructor
  · rintro rfl
    -- with room for one more byte, the first of the dots would have been kept
    have split : kept ++ "..." = kept ++ (String.singleton '.' ++ "..") := rfl
    have next : limit < kept.utf8ByteSize + 1 := h.lt_of_next split
    exact ⟨kept, Nat.le_antisymm (Nat.le_of_lt_succ next) h.fits, rfl⟩
  · rintro ⟨front, rfl, rfl⟩
    rw [h.eq_of_append]

/-- `kept` is what a cut of `s` at an offset leaves: the longest front part up to there, which is at
most three bytes shorter, and ends where the way back from the offset does. -/
structure CutAt (offset : Nat) (s kept : String) : Prop where
  longest : Longest offset s kept
  near : offset ≤ kept.utf8ByteSize + 3
  /-- The scan stops behind what is kept, -/
  stops : (scanBack s offset).offset.byteIdx = kept.utf8ByteSize
  /-- and each offset that it passes lies inside a character. -/
  passes : ∀ passed, kept.utf8ByteSize < passed → passed ≤ offset → Inside s passed
  /-- The bytes of what is kept are the first ones of the text, and valid by themselves. -/
  encoded : s.toByteArray.extract 0 kept.utf8ByteSize = kept.toByteArray
  valid : (s.toByteArray.extract 0 kept.utf8ByteSize).IsValidUTF8

theorem scanBack_cutAt {offset : Nat} (inside : offset ≤ s.utf8ByteSize) :
    CutAt offset s (front (scanBack s offset)) := by
  have longest := scanBack_longest s offset
  have encoded := (scanBack s offset).splits.toByteArray_left_eq
  have stops := utf8ByteSize_front (scanBack s offset)
  refine ⟨longest, longest.le_add_three inside, stops.symm, fun passed behind within => ?_, ?_, ?_⟩
  · have none : ¬String.Pos.Raw.IsValid s ⟨passed⟩ := fun valid =>
      Nat.not_le_of_lt (stops ▸ behind) (le_scanBack (p := ⟨⟨passed⟩, valid⟩) within)
    exact (not_isValid_iff.1 none).resolve_left (Nat.not_lt_of_le (Nat.le_trans within inside))
  · rw [stops]
    exact encoded.symm
  · rw [stops]
    exact (scanBack s offset).isValid.isValidUTF8_extract_zero

theorem cut_cutAt (exceeds : limit < s.utf8ByteSize) : CutAt limit s (cut limit s) := by
  rw [cut, if_neg (Nat.not_le_of_lt exceeds)]
  exact scanBack_cutAt (Nat.le_of_lt exceeds)

end Text

namespace Trace

variable {t : Trace} {sql : String}

/-- The text is within the limit of the trace, if that has one. -/
def Fits (t : Trace) (sql : String) : Prop :=
  t.maxLength = none ∨ ∃ limit, t.maxLength = some limit ∧ sql.utf8ByteSize ≤ limit

theorem not_fits_iff :
    ¬t.Fits sql ↔ ∃ limit, t.maxLength = some limit ∧ limit < sql.utf8ByteSize := by
  unfold Fits
  cases t.maxLength <;> simp

theorem excerpt_of_fits (fits : t.Fits sql) : t.excerpt sql = sql := by
  unfold excerpt
  rcases fits with unlimited | ⟨limit, limited, fits⟩
  · rw [unlimited]
  · rw [limited]
    exact if_neg (Nat.not_lt_of_le fits)

theorem excerpt_of_exceeds {limit : Nat} (limited : t.maxLength = some limit)
    (exceeds : limit < sql.utf8ByteSize) : t.excerpt sql = Text.cut limit sql ++ "..." := by
  unfold excerpt
  rw [limited]
  exact if_pos exceeds

/-- A text that is shortened is shown as itself only if it ends in three dots just behind the
limit. -/
theorem excerpt_eq_self_iff :
    t.excerpt sql = sql ↔
      t.Fits sql ∨ ∃ front, t.maxLength = some front.utf8ByteSize ∧ sql = front ++ "..." := by
  by_cases fits : t.Fits sql
  · exact ⟨fun _ => .inl fits, fun _ => excerpt_of_fits fits⟩
  · obtain ⟨limit, limited, exceeds⟩ := not_fits_iff.1 fits
    rw [excerpt_of_exceeds limited exceeds, (Text.cut_longest limit sql).append_dots_eq_iff]
    constructor
    · rintro ⟨front, rfl, dotted⟩
      exact .inr ⟨front, limited, dotted⟩
    · rintro (fits' | ⟨front, limited', dotted⟩)
      · exact absurd fits' fits
      · exact ⟨front, Option.some.inj (limited.symm.trans limited'), dotted⟩

end Trace

namespace Writer

/-- The law of texts that are cut short. A trim by some bytes leaves what a cut by as many leaves,
which takes at most three bytes more, and it touches nothing but the text. A trace shows a text
within its limit as it is, and otherwise what a cut at the limit leaves, with three dots behind. So
what it shows is the text itself if that fits, and also if the dots are just what was cut off. -/
theorem trim_excerpt_cutAt (w : Writer) (n : Nat) (t : Trace) (sql : String) :
    (∃ kept, w.exec (Writing.trim n) = (.ok (), { w with text := kept }) ∧
      Text.CutAt (w.text.utf8ByteSize - n) w.text kept ∧
      w.text.utf8ByteSize ≤ kept.utf8ByteSize + n + 3) ∧
    (t.Fits sql → t.excerpt sql = sql) ∧
    (¬t.Fits sql → ∃ limit kept, t.maxLength = some limit ∧ limit < sql.utf8ByteSize ∧
      t.excerpt sql = kept ++ "..." ∧ Text.CutAt limit sql kept) ∧
    (t.excerpt sql = sql ↔
      t.Fits sql ∨ ∃ front, t.maxLength = some front.utf8ByteSize ∧ sql = front ++ "...") := by
  have trimmed : Text.CutAt (w.text.utf8ByteSize - n) w.text (Text.dropLastBytes n w.text) :=
    Text.scanBack_cutAt (Nat.sub_le _ _)
  refine ⟨⟨_, w.exec_trim n, trimmed, ?_⟩, Trace.excerpt_of_fits, fun exceeds => ?_,
    Trace.excerpt_eq_self_iff⟩
  · have near := trimmed.near
    omega
  · obtain ⟨limit, limited, exceeds⟩ := Trace.not_fits_iff.1 exceeds
    exact ⟨limit, _, limited, exceeds, Trace.excerpt_of_exceeds limited exceeds,
      Text.cut_cutAt exceeds⟩

end Writer

/-- A text that ends in three dots just behind the limit is shown as it is, although it is longer
than the limit. -/
theorem Trace.excerpt_dotted :
    let t : Trace := { maxLength := some 3 }
    ¬(t.excerpt "abc..." = "abc..." ↔ t.Fits "abc...") := by
  intro t same
  have shown : t.excerpt "abc..." = "abc..." := by decide +kernel
  exact not_fits_iff.2 ⟨3, rfl, by decide⟩ (same.1 shown)

/-- The limit falls inside a character of three bytes, which is left out. -/
example : ({ maxLength := some 2 } : Trace).excerpt "[姓]" = "[..." := by
  decide +kernel

end BoundSql
