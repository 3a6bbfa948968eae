import BoundSql.Proofs.Isolation

/-!
# What a command looks at

Every command appends, and of what stands there already it only looks at two things: whether there
is any text, for a separator, and which names are bound, for the next name and for duplicates.
`Command.write_local` says so with two statements that agree in these, and in nothing else: a
command adds the same text and the same entries to both, and ends with the same success or the same
failure. Neither the values that are bound nor the text in front can be told from what it does.

The relation that carries the proof is `Writer.Gained`: two statements that have each gained the
same on top of where they started.
-/

namespace BoundSql

namespace Writer

/-- The second pair of statements is the first one, with one text and the same entries added to
both. -/
def Gained (w v w' v' : Writer) : Prop :=
  ∃ s new, (w'.text = w.text ++ s ∧ w'.entries = w.entries ++ new) ∧
    v'.text = v.text ++ s ∧ v'.entries = v.entries ++ new

namespace Gained

variable {w v w' v' : Writer}

theorem start (w v : Writer) : Gained w v w v :=
  ⟨"", [], ⟨String.append_empty.symm, (List.append_nil _).symm⟩, String.append_empty.symm,
    (List.append_nil _).symm⟩

theorem names_eq (h : Gained w v w' v') (names : w.names = v.names) : w'.names = v'.names := by
  obtain ⟨s, new, ⟨-, entries⟩, -, entries'⟩ := h
  rw [Writer.names, Writer.names, entries, entries', List.map_append, List.map_append]
  exact congrArg (· ++ _) names

/-- The same text added to both. -/
theorem write (h : Gained w v w' v') {u u' : Writer} (s : String)
    (text : u.text = w'.text ++ s) (text' : u'.text = v'.text ++ s)
    (entries : u.entries = w'.entries) (entries' : u'.entries = v'.entries) :
    Gained w v u u' := by
  obtain ⟨front, new, ⟨before, had⟩, before', had'⟩ := h
  refine ⟨front ++ s, new, ⟨?_, entries.trans had⟩, ?_, entries'.trans had'⟩
  · rw [text, before, String.append_assoc]
  · rw [text', before', String.append_assoc]

/-- Single acts keep the relation, from statements with the same names that both or neither have
text. -/
theorem parallel (d : Dialect) (names : w.names = v.names)
    (empty : w.text.isEmpty = v.text.isEmpty) : Parallel Eq d d (Gained w v) where
  chunkSize := rfl
  isEmpty := by
    rintro w' v' ⟨s, new, ⟨text, -⟩, text', -⟩
    rw [text, text']
    rw [Bool.eq_iff_iff, String.isEmpty_iff, String.isEmpty_iff] at empty ⊢
    rw [String.append_eq_empty_iff, String.append_eq_empty_iff, empty]
  bound h := by
    have count := congrArg List.length (h.names_eq names)
    rw [Writer.names, Writer.names, List.length_map, List.length_map] at count
    rw [bound_eq_length, bound_eq_length, count]
  text h s := h.write s rfl rfl rfl rfl
  identifier h name := h.write _ rfl rfl rfl rfl
  tableName h t := h.write _ rfl rfl rfl rfl
  report h event := h.write "" String.append_empty.symm String.append_empty.symm rfl rfl
  null := rfl
  list same := by
    rw [List.forall₂_eq_eq_eq] at same
    rw [same]
  bind name a b hab w' v' h := by
    subst hab
    by_cases taken : name ∈ w'.names
    · rw [exec_bindName_of_mem w' d a taken,
        exec_bindName_of_mem v' d a (h.names_eq names ▸ taken)]
      exact ⟨rfl, h⟩
    · obtain ⟨p, hp, first⟩ := exec_bindName_of_not_mem w' d a taken
      obtain ⟨q, hq, second⟩ := exec_bindName_of_not_mem v' d a (h.names_eq names ▸ taken)
      obtain ⟨s, new, ⟨text, entries⟩, text', entries'⟩ := h
      rw [first, second]
      refine ⟨rfl, s ++ d.placeholder name, new ++ [(name, a)], ⟨?_, ?_⟩, ?_, ?_⟩
      · rw [text, String.append_assoc]
      · rw [entries_some, hp, entries, List.append_assoc]
      · rw [text', String.append_assoc]
      · rw [entries_some, hq, entries', List.append_assoc]

end Gained

end Writer

namespace Command

/-- Commands are append-only and local. From two statements with the same names bound, of which both
or neither have text, a steady command has one outcome, appends one text and binds the same entries
on top of what each of them has, whether it succeeds or not. That what was there stays in front, and
that a command which binds nothing leaves the collection as it was, needs no steadiness. -/
theorem write_local (d : Dialect) (t : Table) (c : Command) (w : Writer) :
    w.Extends (w.exec (c.write d t)).2 ∧
    ∀ v : Writer, c.Steady → w.names = v.names → w.text.isEmpty = v.text.isEmpty →
      ∃ outcome s new,
        (∃ w', w.exec (c.write d t) = (outcome, w') ∧ w'.text = w.text ++ s ∧
          w'.entries = w.entries ++ new) ∧
        ∃ v', v.exec (c.write d t) = (outcome, v') ∧ v'.text = v.text ++ s ∧
          v'.entries = v.entries ++ new := by
  refine ⟨c.write_ensures d t w, fun v steady names empty => ?_⟩
  have written : Writing.Alongside (w.Gained v) (c.write d t) (c.write d t) :=
    steady.write_alongside (Writer.Gained.parallel d names empty)
      (fun h _ _ => h.write "" String.append_empty.symm String.append_empty.symm rfl rfl) t
  obtain ⟨outcome, s, new, here, there⟩ := written.same (Writer.Gained.start w v)
  exact ⟨_, s, new, ⟨_, rfl, here⟩, (v.exec (c.write d t)).2, Prod.ext outcome.symm rfl, there⟩

end Command

end BoundSql
