import BoundSql.Command
import BoundSql.Parameters.Lemmas
import BoundSql.Proofs.Text.Cut

/-!
# Running a computation that writes

What the outcome and the statement behind each single act are, and how both are threaded through a
sequence. These equations are the only place where the monad is opened: every later proof rewrites
with them.
-/

namespace BoundSql

namespace Writer

/-- The names and values bound so far. -/
def entries (w : Writer) : List (String × Value) :=
  (w.parameters.getD Parameters.empty).toList

/-- The names bound so far, in order. -/
def names (w : Writer) : List String :=
  w.entries.map Prod.fst

@[simp] theorem entries_some (text : String) (p : Parameters Value) (calls : CallLog)
    (events : List Event) : entries ⟨text, some p, calls, events⟩ = p.toList := rfl

/-- The collection is known by whether there is one and by its entries. -/
theorem parameters_eq {w v : Writer} (collected : w.parameters.isSome = v.parameters.isSome)
    (same : w.entries = v.entries) : w.parameters = v.parameters := by
  unfold entries at same
  revert collected same
  cases w.parameters <;> cases v.parameters <;> intro collected same
  · rfl
  · cases collected
  · cases collected
  · exact congrArg some (Parameters.ext_toList same)

theorem bound_eq_length (w : Writer) : w.bound = w.entries.length := by
  unfold bound entries
  cases w.parameters with
  | none => rfl
  | some p => exact p.length_toList.symm

theorem names_nodup (w : Writer) : w.names.Nodup :=
  (w.parameters.getD Parameters.empty).names_nodup

end Writer

/-! ## Evaluations -/

/-- The outcome of an evaluation that starts after some calls, and the calls made by its end. -/
def CallLog.answer {α : Type} (log : CallLog) (x : Asking α) : Except StatementError α × CallLog :=
  x.run.run log

namespace CallLog

variable {α β : Type} (log : CallLog)

theorem answer_bind (x : Asking α) (f : α → Asking β) :
    log.answer (x >>= f) =
      match log.answer x with
      | (.ok a, after) => after.answer (f a)
      | (.error e, after) => (.error e, after) := by
  unfold answer
  rw [ExceptT.run_bind, StateT.run_bind]
  cases x.run.run log with
  | mk r after => cases r <;> rfl

@[simp] theorem answer_liftM (x : Except StatementError α) :
    log.answer (liftM x : Asking α) = (x, log) := rfl

/-- A producer is logged, whatever it answers. -/
theorem answer_ask (producer : Producer) :
    log.answer producer.ask =
      ((producer.outcome log).mapError .evaluation, log ++ [producer.label]) := by
  have got : log.answer (get : Asking CallLog) = (.ok log, log) := rfl
  have logged : log.answer (set (log ++ [producer.label]) : Asking PUnit) =
      (.ok ⟨⟩, log ++ [producer.label]) := rfl
  rw [Producer.ask, answer_bind, got]
  dsimp only
  rw [answer_bind, logged]
  cases producer.outcome log <;> rfl

/-- What a sequence of evaluations answers, its first part has answered before. -/
theorem answer_bind_eq_ok {x : Asking α} {f : α → Asking β} {b : β} {after : CallLog}
    (h : log.answer (x >>= f) = (.ok b, after)) :
    ∃ a between, log.answer x = (.ok a, between) ∧ between.answer (f a) = (.ok b, after) := by
  rw [answer_bind] at h
  rcases hx : log.answer x with ⟨e | a, between⟩
  · rw [hx] at h
    cases h
  · rw [hx] at h
    exact ⟨a, between, rfl, h⟩

end CallLog

namespace Writing

/-- The name of a table as it stands in a statement. -/
def tableText (d : Dialect) (t : Table) : String :=
  match schemaOf d t with
  | some schema => d.identifier schema ++ "." ++ d.identifier t.name
  | none => d.identifier t.name

theorem tableName_eq_text (d : Dialect) (t : Table) : tableName d t = text (tableText d t) := by
  unfold tableName tableText
  cases schemaOf d t with
  | none => rfl
  | some schema =>
    funext w
    show ((Except.ok (), _) : Except StatementError Unit × Writer) = (Except.ok (), _)
    simp only [String.append_assoc]

end Writing

/-! ## Lists of items -/

section Chunks

variable {α : Type} (size : Nat) (pos : 0 < size)

/-- Nothing is lost or repeated when a list is cut into runs. -/
theorem flatten_chunks (xs : List α) : (chunks size pos xs).flatten = xs := by
  fun_induction chunks size pos xs with
  | case1 => rfl
  | case2 x xs ih => rw [List.flatten_cons, ih, List.take_append_drop]

include pos in
/-- The first run holds as many elements as it can. -/
theorem chunkCount_eq_succ {n : Nat} (some : 0 < n) :
    chunkCount size n = chunkCount size (n - size) + 1 := by
  unfold chunkCount
  rcases Nat.lt_or_ge n size with short | long
  · rw [Nat.mod_eq_of_lt short, Nat.div_eq_of_lt short, if_neg (Nat.ne_of_gt some),
      Nat.sub_eq_zero_of_le (Nat.le_of_lt short), Nat.zero_mod, if_pos rfl, Nat.zero_div]
  · have left : n / size = (n - size) / size + 1 := Nat.div_eq_sub_div pos long
    rw [Nat.mod_eq_sub_mod long, left]
    split <;> rfl

/-- The runs are counted without cutting the list. -/
theorem length_chunks_eq_count (xs : List α) :
    (chunks size pos xs).length = chunkCount size xs.length := by
  fun_induction chunks size pos xs with
  | case1 =>
    show 0 = chunkCount size 0
    rw [chunkCount, Nat.zero_mod, if_pos rfl, Nat.zero_div]
  | case2 x xs ih =>
    rw [List.length_cons, ih, List.length_drop]
    exact (chunkCount_eq_succ size pos (Nat.succ_pos xs.length)).symm

end Chunks

/-- A membership test goes by the runs that its values are cut into. -/
theorem Predicate.writeMembership_eq (d : Dialect) (c : Column) (values : List Value) :
    writeMembership d c values =
      (match chunks d.chunkSize d.chunkSize_pos values with
      | [] => Writing.text "1 = 0"
      | [whole] => writeInTest d c whole
      | parts => do
        Writing.report (.membershipSplit c.member values.length parts.length)
        Writing.text "("
        Writing.separated Connective.or.sql (writeInTest d c) parts
        Writing.text ")") := by
  have count := length_chunks_eq_count d.chunkSize d.chunkSize_pos values
  have whole := flatten_chunks d.chunkSize d.chunkSize_pos values
  unfold writeMembership
  rw [← count]
  revert whole
  rcases chunks d.chunkSize d.chunkSize_pos values with _ | ⟨part, _ | ⟨next, rest⟩⟩
  · exact fun _ => rfl
  · intro whole
    rw [List.flatten_singleton] at whole
    rw [whole]
    rfl
  · exact fun _ => rfl

/-- To trim a comma takes away that comma and nothing in front of it. -/
theorem Writing.text_trim : (do text ","; trim 1) = (pure () : Writing Unit) := by
  funext w
  show ((Except.ok (), _) : Except StatementError Unit × Writer) = (Except.ok (), w)
  have back : Text.dropLastBytes 1 (w.text ++ ",") = w.text := Text.dropLastBytes_append w.text ","
  simp only [back]

/-- Commas behind all lines, without the last one, are commas between them. That holds of any lines,
also of those that are not finished because one fails. -/
theorem Command.writeLines_eq_separated (write : Column → Writing Unit) {columns : List Column}
    (some : columns ≠ []) :
    writeLines write columns =
      Writing.separated "," (fun c => do Writing.text "\n    "; write c) columns := by
  obtain ⟨c, rest, rfl⟩ := List.exists_cons_of_ne_nil some
  clear some
  induction rest generalizing c with
  | nil =>
    simp only [writeLines, writeTrailing, Writing.separated, bind_assoc, pure_bind,
      Writing.text_trim]
    rw [bind_pure_unit]
  | cons next rest ih =>
    rw [writeLines, writeTrailing, Writing.separated, ← ih next, writeLines]
    simp only [bind_assoc]

/-- Whether a comparison with a value is written as a null test. -/
def Comparison.testsNull (op : Comparison) (value : Value) : Bool :=
  (op == .eq || op == .ne) && value.isNull

/-- The null test of a comparison operator. -/
def Comparison.nullTest : Comparison → String
  | .eq => " is null"
  | _ => " is not null"

theorem Predicate.writeComparison_eq (d : Dialect) (c : Column) (op : Comparison) (value : Value) :
    writeComparison d c op value =
      (do
        Writing.identifier d c.name
        if op.testsNull value then Writing.text op.nullTest
        else do
          Writing.text op.sql
          Writing.bindNext d value) := by
  cases op <;> cases value <;> rfl

/-! ## What single acts do -/

namespace Writer

variable {α β : Type} (w : Writer)

@[simp] theorem exec_pure (a : α) : w.exec (pure a) = (.ok a, w) := rfl

@[simp] theorem exec_throw (e : StatementError) :
    w.exec (throw e : Writing α) = (.error e, w) := rfl

@[simp] theorem exec_get : w.exec (get : Writing Writer) = (.ok w, w) := rfl

/-- A sequence stops at its first failure, and the failed part keeps what it wrote. -/
theorem exec_bind (x : Writing α) (f : α → Writing β) :
    w.exec (x >>= f) =
      match w.exec x with
      | (.ok a, v) => v.exec (f a)
      | (.error e, v) => (.error e, v) := by
  unfold exec
  rw [ExceptT.run_bind, StateT.run_bind]
  cases x.run.run w with
  | mk r v => cases r <;> rfl

/-- A sequence that succeeds has succeeded in both parts. -/
theorem exec_bind_eq_ok {x : Writing α} {f : α → Writing β} {b : β} {v : Writer}
    (h : w.exec (x >>= f) = (.ok b, v)) :
    ∃ a u, w.exec x = (.ok a, u) ∧ u.exec (f a) = (.ok b, v) := by
  rw [exec_bind] at h
  rcases hx : w.exec x with ⟨e | a, u⟩
  · rw [hx] at h
    cases h
  · rw [hx] at h
    exact ⟨a, u, rfl, h⟩

@[simp] theorem exec_text (s : String) :
    w.exec (Writing.text s) = (.ok (), { w with text := w.text ++ s }) := rfl

theorem exec_text_bind (s : String) (f : Unit → Writing β) :
    w.exec (Writing.text s >>= f) = ({ w with text := w.text ++ s } : Writer).exec (f ()) := rfl

@[simp] theorem exec_identifier (d : Dialect) (s : String) :
    w.exec (Writing.identifier d s) = (.ok (), { w with text := w.text ++ d.identifier s }) := rfl

theorem exec_identifier_bind (d : Dialect) (s : String) (f : Unit → Writing β) :
    w.exec (Writing.identifier d s >>= f) =
      ({ w with text := w.text ++ d.identifier s } : Writer).exec (f ()) := rfl

@[simp] theorem exec_tableName (d : Dialect) (t : Table) :
    w.exec (Writing.tableName d t) =
      (.ok (), { w with text := w.text ++ Writing.tableText d t }) := by
  rw [Writing.tableName_eq_text, exec_text]

@[simp] theorem exec_trim (n : Nat) :
    w.exec (Writing.trim n) = (.ok (), { w with text := Text.dropLastBytes n w.text }) := rfl

@[simp] theorem exec_separator (s : String) :
    w.exec (Writing.separator s) =
      (.ok (), if w.text.isEmpty then w else { w with text := w.text ++ s }) := rfl

/-- A separator changes nothing but the text. -/
theorem exec_separator_eq (s : String) :
    w.exec (Writing.separator s) =
      (.ok (), { w with text := if w.text.isEmpty then w.text else w.text ++ s }) := by
  rw [exec_separator]
  cases w.text.isEmpty <;> rfl

@[simp] theorem exec_report (e : Event) :
    w.exec (Writing.report e) = (.ok (), { w with events := w.events ++ [e] }) := rfl

theorem exec_report_bind (e : Event) (f : Unit → Writing β) :
    w.exec (Writing.report e >>= f) =
      ({ w with events := w.events ++ [e] } : Writer).exec (f ()) := rfl

@[simp] theorem exec_ofExcept (x : Except StatementError α) :
    w.exec (Writing.ofExcept x) = (x, w) := by
  cases x <;> rfl

/-- A sequence that starts with a check and succeeds has passed it. -/
theorem exec_ofExcept_bind_eq_ok {x : Except StatementError α} {f : α → Writing β} {b : β}
    {v : Writer} (h : w.exec (Writing.ofExcept x >>= f) = (.ok b, v)) :
    ∃ a, x = .ok a ∧ w.exec (f a) = (.ok b, v) := by
  obtain ⟨a, u, checked, rest⟩ := w.exec_bind_eq_ok h
  rw [exec_ofExcept, Prod.mk.injEq] at checked
  obtain ⟨rfl, rfl⟩ := checked
  exact ⟨a, rfl, rest⟩

@[simp] theorem exec_asking (x : Asking α) :
    w.exec (Writing.asking x) =
      ((w.calls.answer x).1, { w with calls := (w.calls.answer x).2 }) := rfl

/-- A name that is free is bound and its placeholder written; a name that is taken leaves all as it
was. -/
theorem exec_bindName (d : Dialect) (name : String) (value : Value) :
    w.exec (Writing.bind d name value) =
      match (w.parameters.getD Parameters.empty).add name value with
      | .ok p => (.ok (), { w with parameters := some p, text := w.text ++ d.placeholder name })
      | .error e => (.error e, w) := by
  rw [Writing.bind, exec_bind, exec_get]
  dsimp only
  cases (w.parameters.getD Parameters.empty).add name value <;> rfl

theorem exec_bindName_of_mem (d : Dialect) {name : String} (value : Value) (h : name ∈ w.names) :
    w.exec (Writing.bind d name value) = (.error (.duplicateParameter name), w) := by
  rw [exec_bindName, Parameters.add_eq_error_iff.2 ⟨h, rfl⟩]

theorem exec_bindName_of_not_mem (d : Dialect) {name : String} (value : Value)
    (h : name ∉ w.names) :
    ∃ p : Parameters Value, p.toList = w.entries ++ [(name, value)] ∧
      w.exec (Writing.bind d name value) =
        (.ok (), { w with parameters := some p, text := w.text ++ d.placeholder name }) := by
  rw [exec_bindName]
  cases bound : (w.parameters.getD Parameters.empty).add name value with
  | ok p => exact ⟨p, (Parameters.add_eq_ok_iff.1 bound).2, rfl⟩
  | error e => exact absurd (Parameters.add_eq_error_iff.1 bound).1 h

theorem exec_bindNext (d : Dialect) (value : Value) :
    w.exec (Writing.bindNext d value) =
      w.exec (Writing.bind d (Writing.positional (w.bound + 1)) value) := by
  rw [Writing.bindNext, exec_bind, exec_get]

/-- What binding a value under the next name leaves, if the name was free. -/
theorem exec_bindNext_eq_ok {d : Dialect} {value : Value} {w w' : Writer}
    (h : w.exec (Writing.bindNext d value) = (.ok (), w')) :
    w'.text = w.text ++ d.placeholder (Writing.positional (w.bound + 1)) ∧
      w'.entries = w.entries ++ [(Writing.positional (w.bound + 1), value)] ∧
      w'.calls = w.calls := by
  rw [exec_bindNext] at h
  by_cases taken : Writing.positional (w.bound + 1) ∈ w.names
  · rw [exec_bindName_of_mem w d value taken] at h
    cases h
  · obtain ⟨p, entries, bound⟩ := exec_bindName_of_not_mem w d value taken
    rw [bound] at h
    cases h
    exact ⟨rfl, entries, rfl⟩

end Writer

end BoundSql
