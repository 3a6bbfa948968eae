import BoundSql.Proofs.Chunks
import BoundSql.Proofs.Condition.Grammar
import BoundSql.Proofs.Growth

/-!
# What is written is what was meant

The text that a predicate is compiled to is read back by the grammar of conditions, in exactly one
way, and what is read has the truth of the tree, whatever the database finds of atomic conditions
(`Predicate.compile_meaning`). So the parentheses that are written are enough for every nesting, and
the ones that are left out were not needed.

The induction is over the tree. Its statement is about the part of the text that one subtree appends
(`Writer.Appends`): at which rank it stands, and that its placeholders stand for the right values
under everything that is bound by then or later.
-/

namespace BoundSql

open Condition (Rank Spells Reads isWordChar positional_isWordChar)

namespace Writer

/-- The value bound to a name. -/
def value? (w : Writer) (name : String) : Option Value :=
  w.parameters.bind fun p => p.get? name

/-- All that is bound in a statement is found under its name. -/
def Agrees (look : String → Option Value) (w : Writer) : Prop :=
  ∀ entry ∈ w.entries, look entry.1 = some entry.2

theorem agrees_value? (w : Writer) : w.Agrees w.value? := by
  rintro ⟨name, value⟩ bound
  unfold entries at bound
  unfold value?
  cases hp : w.parameters with
  | none =>
    rw [hp] at bound
    cases bound
  | some p =>
    rw [hp] at bound
    exact Parameters.get?_eq_some_iff.2 bound

theorem Agrees.of_bindsOn {look : String → Option Value} {w v : Writer} (h : v.Agrees look)
    (grown : w.BindsOn v) : w.Agrees look := by
  obtain ⟨new, entries, -⟩ := grown
  intro entry bound
  exact h entry (by rw [entries]; exact List.mem_append_left new bound)

/-- From `w` to `w'`, the text of a condition of a rank has been appended, and the condition has
this truth. -/
def Appends (d : Dialect) (rank : Rank) (w w' : Writer) (truth : Assignment → Truth) : Prop :=
  ∃ s c, w'.text = w.text ++ s ∧ Spells d rank s c ∧
    ∀ σ look, w'.Agrees look → c.truth σ look = some (truth σ)

namespace Appends

variable {d : Dialect} {rank : Rank} {w w' : Writer} {truth : Assignment → Truth}

theorem of_primary (h : Appends d .primary w w' truth) (rank : Rank) :
    Appends d rank w w' truth := by
  obtain ⟨s, c, text, spells, means⟩ := h
  exact ⟨s, c, text, spells.of_primary rank, means⟩

/-- Parentheses around a condition make it primary. -/
theorem group (legible : d.Legible)
    (h : Appends d rank { w with text := w.text ++ "(" } w' truth) :
    Appends d .primary w { w' with text := w'.text ++ ")" } truth := by
  obtain ⟨s, c, text, spells, means⟩ := h
  refine ⟨_, c, ?_, spells.group legible, means⟩
  rw [text, String.append_assoc, String.append_assoc]

/-- Two conditions of a connective's rank, with the connective in between, are one. -/
theorem chain (legible : d.Legible) {op : Connective} {v : Writer}
    {first second : Assignment → Truth}
    (hleft : Appends d (.joined op) w v first)
    (hright : Appends d (.joined op) { v with text := v.text ++ op.sql } w' second)
    (grown : BindsOn { v with text := v.text ++ op.sql } w') :
    Appends d (.joined op) w w' fun σ => op.truth (first σ) (second σ) := by
  obtain ⟨s, c, text, spells, means⟩ := hleft
  obtain ⟨u, k, text', spells', means'⟩ := hright
  obtain ⟨whole, spelled, same⟩ := spells.chain legible spells'
  refine ⟨_, whole, ?_, spelled, fun σ look agrees => ?_⟩
  · rw [text', text, String.append_assoc, String.append_assoc]
  · rw [same, Condition.truth, means σ look (agrees.of_bindsOn grown), means' σ look agrees]
    rfl

end Appends

/-- The next name is a word, and a value bound under it is among the parameters. -/
theorem exec_bindNext_word {d : Dialect} {value : Value} {w w' : Writer}
    (h : w.exec (Writing.bindNext d value) = (.ok (), w')) :
    ∃ name, name.toList.all isWordChar = true ∧ w'.text = w.text ++ d.placeholder name ∧
      (name, value) ∈ w'.entries ∧ w'.calls = w.calls := by
  obtain ⟨text, entries, calls⟩ := exec_bindNext_eq_ok h
  refine ⟨_, positional_isWordChar _, text, ?_, calls⟩
  rw [entries]
  exact List.mem_append_right _ (List.mem_singleton.2 rfl)

end Writer

theorem Table.mem_of_mappedColumn {t : Table} {member : String} {c : Column}
    (h : t.mappedColumn member = .ok c) : c ∈ t.mappedColumns := by
  obtain ⟨mem, -, mapped⟩ := mappedColumn_eq_ok_iff.1 h
  exact List.mem_filter.2 ⟨mem, mapped⟩

namespace Predicate

open Writer (Appends)

/-- The rank at which a predicate is written. -/
def rank : Predicate → Rank
  | .logical op .. => .joined op
  | _ => .primary

theorem rank_of_not_grouped {p : Predicate} {op : Connective} (h : p.grouped op = false) :
    p.rank = .primary ∨ p.rank = .joined op := by
  cases p with
  | logical inner left right =>
    rw [grouped, bne_eq_false_iff_eq] at h
    exact .inr (congrArg Rank.joined h)
  | _ => exact .inl rfl

section

variable {d : Dialect} (legible : d.Legible) {c : Column}
variable (hcolumn : d.brackets.closing ∉ c.name.toList) {w w' : Writer}

include legible hcolumn

theorem writeComparison_appends {op : Comparison} {value : Value}
    (h : w.exec (writeComparison d c op value) = (.ok (), w')) :
    Appends d .primary w w' (fun σ => σ.leaf c.name op value) ∧ w'.calls = w.calls := by
  rw [writeComparison_eq, Writer.exec_identifier_bind] at h
  cases tests : op.testsNull value with
  | true =>
    rw [tests, if_pos rfl] at h
    cases h
    refine ⟨?_, rfl⟩
    have leaf : ∀ σ : Assignment, σ.leaf c.name op value =
        if op = .eq then σ.isNull c.name else σ.isNotNull c.name := by
      intro σ
      rw [σ.leaf_eq, tests, if_pos rfl]
    cases op with
    | eq => exact ⟨_, _, String.append_assoc, .isNull legible hcolumn,
        fun σ look _ => congrArg some (leaf σ).symm⟩
    | ne => exact ⟨_, _, String.append_assoc, .isNotNull legible hcolumn,
        fun σ look _ => congrArg some (leaf σ).symm⟩
    | _ => cases tests
  | false =>
    rw [tests, if_neg Bool.false_ne_true, Writer.exec_text_bind] at h
    obtain ⟨name, hname, text, bound, calls⟩ := Writer.exec_bindNext_word h
    refine ⟨⟨_, _, ?_, .compared legible hcolumn op hname, fun σ look agrees => ?_⟩, calls⟩
    · rw [text, String.append_assoc, String.append_assoc]
    · have leaf := σ.leaf_eq c.name op value
      rw [tests, if_neg Bool.false_ne_true] at leaf
      rw [Condition.truth, Atom.truth, agrees _ bound]
      exact congrArg some leaf.symm

theorem writeInTest_appends {values : List Value}
    (h : w.exec (writeInTest d c values) = (.ok (), w')) :
    Appends d .primary w w' (fun σ => σ.among c.name values) ∧ w'.calls = w.calls := by
  rw [writeInTest, Writer.exec_identifier_bind, Writer.exec_text_bind] at h
  obtain ⟨name, hname, text, bound, calls⟩ := Writer.exec_bindNext_word h
  refine ⟨⟨_, _, ?_, .among legible hcolumn hname, fun σ look agrees => ?_⟩, calls⟩
  · rw [text, String.append_assoc, String.append_assoc]
  · rw [Condition.truth, Atom.truth, agrees _ bound]
    rfl

/-- The tests of a split membership test together ask for all values. -/
theorem separated_appends {parts : List (List Value)} (some_part : parts ≠ [])
    (h : w.exec (Writing.separated Connective.or.sql (writeInTest d c) parts) = (.ok (), w')) :
    Appends d (.joined .or) w w' (fun σ => σ.among c.name parts.flatten) ∧ w'.calls = w.calls := by
  fun_induction Writing.separated Connective.or.sql (writeInTest d c) parts generalizing w with
  | case1 => exact absurd rfl some_part
  | case2 part =>
    obtain ⟨appends, calls⟩ := writeInTest_appends legible hcolumn h
    rw [List.flatten_singleton]
    exact ⟨appends.of_primary _, calls⟩
  | case3 part next rest ih =>
    obtain ⟨_, v, hpart, h⟩ := w.exec_bind_eq_ok h
    rw [Writer.exec_text_bind] at h
    obtain ⟨first, calls⟩ := writeInTest_appends legible hcolumn hpart
    obtain ⟨others, calls'⟩ := ih (List.cons_ne_nil _ _) h
    have grown : Writing.Ensures Writer.BindsOn
        (Writing.separated Connective.or.sql (writeInTest d c) (next :: rest)) :=
      .separated (writeInTest_ensures d c) _
    refine ⟨?_, calls'.trans calls⟩
    have both := (first.of_primary (.joined .or)).chain legible others (grown.of_exec h)
    have split : (fun σ : Assignment => σ.among c.name (part :: next :: rest).flatten) =
        fun σ =>
          Connective.or.truth (σ.among c.name part) (σ.among c.name (next :: rest).flatten) := by
      funext σ
      rw [List.flatten_cons, σ.among_append]
      rfl
    rw [split]
    exact both

theorem writeMembership_appends {values : List Value}
    (h : w.exec (writeMembership d c values) = (.ok (), w')) :
    Appends d .primary w w' (fun σ => σ.among c.name values) ∧ w'.calls = w.calls := by
  have whole := flatten_chunks d.chunkSize d.chunkSize_pos values
  rw [writeMembership_eq] at h
  split at h
  · next none =>
    rw [none, List.flatten_nil] at whole
    subst whole
    cases h
    exact ⟨⟨_, _, rfl, .constant legible false, fun σ _ _ => congrArg some (σ.among_nil _).symm⟩,
      rfl⟩
  · next part one =>
    rw [one, List.flatten_singleton] at whole
    subst whole
    exact writeInTest_appends legible hcolumn h
  · next many _ =>
    rw [Writer.exec_report_bind, Writer.exec_text_bind] at h
    obtain ⟨_, u, hparts, h⟩ := Writer.exec_bind_eq_ok _ h
    cases h
    obtain ⟨appends, calls⟩ := separated_appends legible hcolumn many hparts
    rw [whole] at appends
    exact ⟨appends.group legible, calls⟩

end

/-- From `w` to `w'`, a predicate has been written as a condition of a rank: its operands have been
evaluated, and what is read is true as the tree is. -/
def Means (d : Dialect) (t : Table) (p : Predicate) (rank : Rank) (w w' : Writer) : Prop :=
  ∃ truth : Assignment → Truth,
    (∀ σ, w.calls.answer (p.truth t σ) = (.ok (truth σ), w'.calls)) ∧ Appends d rank w w' truth

/-- Under a connective, the parentheses that are written are enough for the grammar. -/
theorem writeGrouped_means {d : Dialect} (legible : d.Legible) {t : Table} {p : Predicate}
    {op : Connective} {w w' : Writer}
    (ih : ∀ {w w'}, w.exec (p.compile d t) = (.ok (), w') → p.Means d t p.rank w w')
    (h : w.exec (writeGrouped (p.grouped op) (p.compile d t)) = (.ok (), w')) :
    p.Means d t (.joined op) w w' := by
  cases grouped : p.grouped op with
  | true =>
    rw [grouped, writeGrouped, if_pos rfl, Writer.exec_text_bind] at h
    obtain ⟨_, u, hbody, h⟩ := Writer.exec_bind_eq_ok _ h
    cases h
    obtain ⟨truth, answer, appends⟩ := ih hbody
    exact ⟨truth, answer, (appends.group legible).of_primary _⟩
  | false =>
    rw [grouped] at h
    obtain ⟨truth, answer, appends⟩ := ih h
    refine ⟨truth, answer, ?_⟩
    rcases rank_of_not_grouped grouped with primary | same
    · rw [primary] at appends
      exact appends.of_primary _
    · rwa [same] at appends

/-- A predicate that is written with success means what it is read as. -/
theorem compile_means {d : Dialect} (legible : d.Legible) {t : Table}
    (hcolumns : ∀ c ∈ t.mappedColumns, d.brackets.closing ∉ c.name.toList) {p : Predicate}
    {w w' : Writer} (h : w.exec (p.compile d t) = (.ok (), w')) : p.Means d t p.rank w w' := by
  induction p generalizing w w' with
  | logical op left right ihl ihr =>
    rw [compile] at h
    obtain ⟨_, u, hleft, hright⟩ := w.exec_bind_eq_ok h
    rw [Writer.exec_text_bind] at hright
    obtain ⟨first, answerFirst, appendsFirst⟩ := writeGrouped_means legible ihl hleft
    obtain ⟨second, answerSecond, appendsSecond⟩ := writeGrouped_means legible ihr hright
    -- the right side binds behind the left one, whose placeholders keep their values
    have grown : Writing.Ensures Writer.BindsOn
        (writeGrouped (right.grouped op) (right.compile d t)) :=
      writeGrouped_ensures _ (right.compile_ensures d t)
    refine ⟨fun σ => op.truth (first σ) (second σ), fun σ => ?_,
      appendsFirst.chain legible appendsSecond (grown.of_exec hright)⟩
    rw [truth, CallLog.answer_bind, answerFirst]
    dsimp only
    rw [CallLog.answer_bind, answerSecond σ]
    rfl
  | comparison op left right ihl ihr =>
    rw [compile] at h
    split at h
    · next side member operand hside =>
      obtain ⟨c, found, h⟩ := w.exec_ofExcept_bind_eq_ok h
      obtain ⟨value, u, hvalue, h⟩ := w.exec_bind_eq_ok h
      rw [Writer.exec_asking, Prod.mk.injEq] at hvalue
      obtain ⟨evaluated, rfl⟩ := hvalue
      obtain ⟨appends, calls⟩ :=
        writeComparison_appends legible (hcolumns c (Table.mem_of_mappedColumn found)) h
      refine ⟨fun σ => σ.leaf c.name side value, fun σ => ?_, appends⟩
      rw [truth_comparison hside, leafTruth, CallLog.answer_bind, CallLog.answer_liftM, found]
      dsimp only
      rw [CallLog.answer_bind, Prod.ext (y := (.ok value, w'.calls)) evaluated calls.symm]
      rfl
    · cases h
  | membership member values =>
    rw [compile] at h
    obtain ⟨c, found, h⟩ := w.exec_ofExcept_bind_eq_ok h
    obtain ⟨appends, calls⟩ :=
      writeMembership_appends legible (hcolumns c (Table.mem_of_mappedColumn found)) h
    refine ⟨fun σ => σ.among c.name values, fun σ => ?_, appends⟩
    rw [truth, CallLog.answer_bind, CallLog.answer_liftM, found, calls]
    rfl
  | literal value =>
    cases value with
    | bool b =>
      have appends : ∀ b : Bool, Appends d .primary w
          { w with text := w.text ++ if b then "1 = 1" else "1 = 0" }
          (fun _ => if b then .true else .false) := by
        intro b
        refine ⟨_, _, rfl, .constant legible b, fun σ _ _ => ?_⟩
        cases b <;> rfl
      cases b with
      | true =>
        cases h
        exact ⟨_, fun σ => rfl, appends true⟩
      | false =>
        cases h
        exact ⟨_, fun σ => rfl, appends false⟩
    | _ => cases h
  | column | computed | element => cases h

/-- Compiling a predicate preserves its meaning. Under the brackets and prefixes of the built-in
dialects, over columns whose names do not hold the closing bracket, the text that a successful run
appends reads as a condition, in one way only. It has the truth of the tree under every assignment,
where each placeholder stands for the value that the run bound under it. -/
theorem compile_meaning (d : Dialect) (t : Table) (p : Predicate) (w w' : Writer)
    (hbrackets : d.brackets ∈ Dialect.builtIn.map Dialect.brackets)
    (hbind : d.bindPrefix ∈ Dialect.builtIn.map Dialect.bindPrefix)
    (hcolumns : ∀ c ∈ t.mappedColumns, d.brackets.closing ∉ c.name.toList)
    (h : w.exec (p.compile d t) = (.ok (), w')) :
    ∃ s c, w'.text = w.text ++ s ∧ Reads d s c ∧ (∀ c', Reads d s c' → c' = c) ∧
      ∀ σ, ∃ truth, w.calls.answer (p.truth t σ) = (.ok truth, w'.calls) ∧
        c.truth σ w'.value? = some truth := by
  have legible := Dialect.legible_of_builtIn hbrackets hbind
  obtain ⟨truth, answer, s, c, text, spells, means⟩ := compile_means legible hcolumns h
  exact ⟨s, c, text, spells.reads, fun c' other => other.unique spells.reads, fun σ =>
    ⟨truth σ, answer σ, means σ _ w'.agrees_value?⟩⟩

/-- An account without an owner or a level, and above a level. -/
def adriftAbove (level : Value) : Predicate :=
  .logical .and
    (.logical .or (.comparison .eq (.column "owner") (.literal .null))
      (.comparison .eq (.column "level") (.literal .null)))
    (.comparison .lt (.literal level) (.column "level"))

theorem compile_meaning_adriftAbove :
    ∃ w' c, ({} : Writer).exec ((adriftAbove (.int 3)).compile .sqlite Account.table) =
        (.ok (), w') ∧
      w'.text = "(\"Owner\" is null or \"level\" is null) and \"level\" > @p1" ∧
      Reads .sqlite w'.text c ∧
      ∀ σ, c.truth σ w'.value? = some
        (((σ.isNull "Owner").or (σ.isNull "level")).and (σ.compared "level" .gt (.int 3))) := by
  let before : Writer := { text := "(\"Owner\" is null or \"level\" is null) and \"level\" > " }
  obtain ⟨p, -, bound⟩ := before.exec_bindName_of_not_mem .sqlite (.int 3)
    (show Writing.positional 1 ∉ before.names from nofun)
  -- all acts but the last are computed, and the last binds the level
  have written : ({} : Writer).exec ((adriftAbove (.int 3)).compile .sqlite Account.table) =
      before.exec (Writing.bind .sqlite (Writing.positional 1) (.int 3)) := by
    simp only [adriftAbove, compile, columnSide?, Account.mappedColumn_owner,
      Account.mappedColumn_level]
    rfl
  rw [bound] at written
  obtain ⟨s, c, text, reads, -, means⟩ := compile_meaning .sqlite Account.table _ _ _ (by decide)
    (by decide) (by decide +kernel) written
  have whole : before.text ++ Dialect.sqlite.placeholder (Writing.positional 1) = s :=
    text.trans String.empty_append
  subst whole
  refine ⟨_, c, written, by rfl, reads, fun σ => ?_⟩
  obtain ⟨truth, answer, same⟩ := means σ
  simp only [adriftAbove, Predicate.truth, leafTruth, Account.mappedColumn_owner,
    Account.mappedColumn_level] at answer
  rw [same]
  cases answer
  rfl

end Predicate

end BoundSql
