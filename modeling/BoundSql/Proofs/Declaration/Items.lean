import BoundSql.Declaration.Attribute
import Mathlib.Data.List.Forall2

/-!
# The items of an attribute

The grammar of an attribute's arguments, apart from the readers that keep to it: how each item is
spelled (`TableItem.Spelled`, `FieldItem.Spelled`), and how a list of items is (`Listed`), with
commas between the items and perhaps one behind the last.

Readers are exact: they read every spelling, whatever stands behind it, and nothing else (`Exact`).
Each reader is exact because those that it is made of are. `takeItems_eq_ok_iff` is the grammar of
lists, for any exact reader of items.
-/

namespace BoundSql.Declaration

/-! ## Spelling -/

/-- An identifier, printed as it is. -/
def word (name : String) : Token :=
  .atom (.identifier false name)

def equalsSign : Token :=
  .atom (.punctuation '=')

def comma : Token :=
  .atom (.punctuation ',')

/-- A string literal. -/
def textLiteral (value : String) : Token :=
  .atom (.text value)

/-- An item of a structure gives a name to a key. -/
inductive TableItem.Spelled : TableItem → List Token → Prop
  | table (name : String) : Spelled (.table name) [word "table", equalsSign, textLiteral name]
  | schema (name : String) : Spelled (.schema name) [word "schema", equalsSign, textLiteral name]

/-- An integer is a literal, behind a minus sign or not. -/
inductive IntegerSpelled : Int → List Token → Prop
  | plain (n : Nat) : IntegerSpelled n [.atom (.integer n)]
  | negative (n : Nat) : IntegerSpelled (-n) [.atom (.punctuation '-'), .atom (.integer n)]

/-- An item of a field is a flag by itself, or gives a literal to a key. -/
inductive FieldItem.Spelled : FieldItem → List Token → Prop
  | id : Spelled .id [word "id"]
  | skip : Spelled .skip [word "skip"]
  | identity : Spelled (.identity true) [word "identity"]
  | noIdentity : Spelled (.identity false) [word "no_identity"]
  /-- An order is an integer of 32 bits. -/
  | order {n : Int} {literal : List Token} (spelled : IntegerSpelled n literal)
      (low : -2147483648 ≤ n) (high : n ≤ 2147483647) :
      Spelled (.order n) (word "order" :: equalsSign :: literal)
  | column (name : String) : Spelled (.column name) [word "column", equalsSign, textLiteral name]
  | member (name : String) : Spelled (.member name) [word "member", equalsSign, textLiteral name]
  | ambient (literal : String) :
      Spelled (.ambient literal) [word "ambient", equalsSign, textLiteral literal]

/-- Items are listed with commas between them. A list that is not empty may end with another. -/
inductive Listed {ι : Type} (Spelled : ι → List Token → Prop) : List ι → List Token → Prop
  | plain {items : List ι} {chunks : List (List Token)}
      (spelled : List.Forall₂ Spelled items chunks) :
      Listed Spelled items ([comma].intercalate chunks)
  | trailing {items : List ι} {chunks : List (List Token)}
      (spelled : List.Forall₂ Spelled items chunks) (some : items ≠ []) :
      Listed Spelled items ([comma].intercalate chunks ++ [comma])

/-! ## Exact readers -/

variable {α : Type}

/-- What was read and the rest, without the proof that the rest is shorter. -/
def Taking.found {ts : List Token} (r : Taking α ts) :
    Except DeclarationError (α × List Token) :=
  r.map fun found => (found.1, found.2.1)

/-- What is found, without the proof that less is left. -/
theorem Taking.found_eq_ok_iff {ts : List Token} {r : Taking α ts} {a : α} {rest : List Token} :
    r.found = .ok (a, rest) ↔ ∃ shorter, r = .ok (a, ⟨rest, shorter⟩) := by
  obtain e | ⟨b, rest', shorter⟩ := r
  · exact iff_of_false nofun nofun
  · constructor
    · rintro ⟨⟩
      exact ⟨shorter, rfl⟩
    · rintro ⟨_, ⟨⟩⟩
      rfl

/-- A reader reads the spellings of its values, whatever stands behind them, and nothing else. -/
def Exact (take : (ts : List Token) → Taking α ts) (Spelled : α → List Token → Prop) : Prop :=
  ∀ ts a rest, (take ts).found = .ok (a, rest) ↔ ∃ chunk, Spelled a chunk ∧ ts = chunk ++ rest

/-- A text is one string literal. -/
theorem takeText_exact : Exact takeText fun value chunk => chunk = [textLiteral value] := by
  intro ts value rest
  constructor
  · intro read
    unfold takeText at read
    split at read
    · cases read
      exact ⟨_, rfl, rfl⟩
    · cases read
  · rintro ⟨_, rfl, rfl⟩
    rfl

/-- An integer is a literal, behind a minus sign or not. -/
theorem takeInteger_exact : Exact takeInteger IntegerSpelled := by
  intro ts n rest
  constructor
  · intro read
    unfold takeInteger at read
    split at read
    · cases read
      exact ⟨_, .plain _, rfl⟩
    · cases read
      exact ⟨_, .negative _, rfl⟩
    · cases read
  · rintro ⟨_, n | n, rfl⟩ <;> rfl

/-- What stands behind an equals sign. -/
def Assigned (Spelled : α → List Token → Prop) (a : α) (chunk : List Token) : Prop :=
  ∃ literal, Spelled a literal ∧ chunk = equalsSign :: literal

/-- A value stands behind an equals sign. -/
theorem takeAssigned_exact {take : (ts : List Token) → Taking α ts}
    {Spelled : α → List Token → Prop} (literals : Exact take Spelled) :
    Exact (takeAssigned take) (Assigned Spelled) := by
  intro ts a rest
  constructor
  · intro read
    unfold takeAssigned takeEquals at read
    split at read
    · cases read
    · next equals =>
      split at equals
      · cases equals
        split at read
        · cases read
        · next found =>
          cases read
          obtain ⟨literal, spelled, rfl⟩ :=
            (literals _ _ _).1 (Taking.found_eq_ok_iff.2 ⟨_, found⟩)
          exact ⟨_, ⟨literal, spelled, rfl⟩, rfl⟩
      · cases equals
  · rintro ⟨_, ⟨literal, spelled, rfl⟩, rfl⟩
    have found := (literals (literal ++ rest) a rest).2 ⟨literal, spelled, rfl⟩
    obtain ⟨shorter, found⟩ := Taking.found_eq_ok_iff.1 found
    simp only [equalsSign, List.cons_append, takeAssigned, takeEquals, found]
    rfl

theorem found_takeAssigned_text_iff {ts : List Token} {value : String} {rest : List Token} :
    (takeAssigned takeText ts).found = .ok (value, rest) ↔
      ts = equalsSign :: textLiteral value :: rest := by
  rw [takeAssigned_exact takeText_exact]
  constructor
  · rintro ⟨_, ⟨_, rfl, rfl⟩, rfl⟩
    rfl
  · rintro rfl
    exact ⟨_, ⟨_, rfl, rfl⟩, rfl⟩

/-- An identifier that is no reserved word, or raw, as it is printed. -/
def Printed (name : String) (chunk : List Token) : Prop :=
  ∃ raw unmarked, (raw = true ∨ unmarked ∉ reservedWords) ∧
    chunk = [.atom (.identifier raw unmarked)] ∧ name = identifierText raw unmarked

theorem takeIdentifier_exact : Exact takeIdentifier Printed := by
  intro ts name rest
  constructor
  · intro read
    unfold takeIdentifier at read
    split at read
    · next raw unmarked _ =>
      split at read
      · cases read
      · next free =>
        cases read
        refine ⟨_, ⟨raw, unmarked, ?_, rfl, rfl⟩, rfl⟩
        cases raw <;> simp_all
    · cases read
  · rintro ⟨_, ⟨raw, unmarked, free, rfl, rfl⟩, rfl⟩
    have plain : (!raw && reservedWords.contains unmarked) = false := by
      rcases free with rfl | free <;> simp_all
    simp only [List.singleton_append, takeIdentifier, plain]
    rfl

/-- A word that a reader of items may look for: no reserved word, and without the mark of a raw
identifier. -/
def IsKey (name : String) : Prop :=
  name.toList.take 2 ≠ ['r', '#'] ∧ name ∉ reservedWords

instance (name : String) : Decidable (IsKey name) :=
  inferInstanceAs (Decidable (_ ∧ _))

/-- A key is printed for itself only, so no raw identifier is a key. -/
theorem IsKey.printed_iff {name : String} (key : IsKey name) {chunk : List Token} :
    Printed name chunk ↔ chunk = [word name] := by
  constructor
  · rintro ⟨raw, name', -, rfl, rfl⟩
    cases raw with
    | true => exact absurd (by simp [identifierText]) key.1
    | false => simp [identifierText, word]
  · rintro rfl
    exact ⟨false, name, .inr key.2, rfl, by simp [identifierText]⟩

/-- A key is found where its word stands. -/
theorem IsKey.found {name : String} (key : IsKey name) (rest : List Token) :
    (takeIdentifier (word name :: rest)).found = .ok (name, rest) :=
  (takeIdentifier_exact _ _ _).2 ⟨_, key.printed_iff.2 rfl, rfl⟩

/-! ## Items -/

/-- An item of a structure is read as a key, then as what is assigned to it. -/
theorem found_takeTableItem (ts : List Token) : (takeTableItem ts).found =
    match (takeIdentifier ts).found with
    | .error e => .error e
    | .ok (key, rest) =>
      match (takeAssigned takeText rest).found with
      | .error e => .error e
      | .ok (value, rest') =>
        if key = "table" then .ok (.table value, rest')
        else if key = "schema" then .ok (.schema value, rest')
        else .error .unknownTableKey := by
  unfold takeTableItem
  obtain e | ⟨key, rest, shorter⟩ := takeIdentifier ts
  · rfl
  · dsimp only [Taking.found, Except.map]
    obtain e | ⟨value, rest', shorter'⟩ := takeAssigned takeText rest
    · rfl
    · by_cases table : key = "table"
      · simp [table]
      · by_cases schema : key = "schema"
        · simp [schema]
        · simp [table, schema]

/-- Items of structures are read exactly as they are spelled. -/
theorem takeTableItem_exact : Exact takeTableItem TableItem.Spelled := by
  intro ts item rest
  rw [found_takeTableItem]
  constructor
  · intro read
    split at read
    · cases read
    next key behind named =>
    obtain ⟨chunk, printed, rfl⟩ := (takeIdentifier_exact _ _ _).1 named
    split at read
    · cases read
    next value rest' valued =>
    obtain rfl := found_takeAssigned_text_iff.1 valued
    split at read
    · next table =>
      subst table
      obtain rfl := (IsKey.printed_iff (by decide)).1 printed
      cases read
      exact ⟨_, .table value, rfl⟩
    · split at read
      · next schema =>
        subst schema
        obtain rfl := (IsKey.printed_iff (by decide)).1 printed
        cases read
        exact ⟨_, .schema value, rfl⟩
      · cases read
  · rintro ⟨_, spelled, rfl⟩
    cases spelled with
    | table name | schema name =>
      simp only [List.cons_append, List.nil_append]
      rw [IsKey.found (by decide)]
      simp only [found_takeAssigned_text_iff.2 rfl]
      rfl

/-- An item of a field is read as a key, then as what this key asks for. -/
theorem found_takeFieldItem (ts : List Token) : (takeFieldItem ts).found =
    match (takeIdentifier ts).found with
    | .error e => .error e
    | .ok (key, rest) =>
      match fieldKey? key with
      | none => .error .unknownFieldKey
      | some (.flag item) => .ok (item, rest)
      | some .order =>
        match (takeAssigned takeInteger rest).found with
        | .error e => .error e
        | .ok (n, rest') => (fitOrder n).map fun n => (.order n, rest')
      | some (.text item) =>
        match (takeAssigned takeText rest).found with
        | .error e => .error e
        | .ok (value, rest') => .ok (item value, rest') := by
  unfold takeFieldItem
  obtain e | ⟨key, rest, shorter⟩ := takeIdentifier ts
  · rfl
  · dsimp only [Taking.found, Except.map]
    obtain _ | item | _ | item := fieldKey? key
    · rfl
    · rfl
    · dsimp only
      obtain e | ⟨n, rest', shorter'⟩ := takeAssigned takeInteger rest
      · rfl
      · dsimp only
        cases fitOrder n <;> rfl
    · dsimp only
      obtain e | ⟨value, rest', shorter'⟩ := takeAssigned takeText rest <;> rfl

/-- The words that name a key of a field are keys. -/
theorem isKey_of_fieldKey? {name : String} {key : FieldKey} (known : fieldKey? name = some key) :
    IsKey name := by
  unfold fieldKey? at known
  repeat' split at known
  all_goals cases known
  all_goals
    next same =>
      subst same
      decide

/-- What is spelled with a key, by itself or with a literal. -/
def FieldKey.Spells (name : String) : FieldKey → Prop
  | .flag item => item.Spelled [word name]
  | .order => name = "order"
  | .text item => ∀ value, (item value).Spelled [word name, equalsSign, textLiteral value]

theorem FieldKey.spells_of_fieldKey? {name : String} {key : FieldKey}
    (known : fieldKey? name = some key) : key.Spells name := by
  unfold fieldKey? at known
  repeat' split at known
  all_goals cases known
  all_goals subst_vars
  exacts [.id, .skip, .identity, .noIdentity, rfl, .column, .member, .ambient]

/-- An order fits exactly if it is an integer of 32 bits. -/
theorem fitOrder_eq_ok_iff {n m : Int} :
    fitOrder n = .ok m ↔ n = m ∧ -2147483648 ≤ n ∧ n ≤ 2147483647 := by
  have greatest : Int32.maxValue.toInt = 2147483647 := by decide
  have least : Int32.minValue.toInt = -2147483648 := by decide
  unfold fitOrder
  rw [greatest, least]
  split
  · simp
    omega
  · split
    · simp
      omega
    · simp
      omega

/-- Items of fields are read exactly as they are spelled. -/
theorem takeFieldItem_exact : Exact takeFieldItem FieldItem.Spelled := by
  intro ts item rest
  rw [found_takeFieldItem]
  constructor
  · intro read
    split at read
    · cases read
    next name behind named =>
    obtain ⟨chunk, printed, rfl⟩ := (takeIdentifier_exact _ _ _).1 named
    split at read
    · cases read
    · next flag known =>
      obtain rfl := (isKey_of_fieldKey? known).printed_iff.1 printed
      cases read
      exact ⟨_, FieldKey.spells_of_fieldKey? known, rfl⟩
    · next known =>
      obtain rfl := (isKey_of_fieldKey? known).printed_iff.1 printed
      have order : name = "order" := FieldKey.spells_of_fieldKey? known
      subst order
      split at read
      · cases read
      next n rest' valued =>
      obtain ⟨_, ⟨literal, spelled, rfl⟩, rfl⟩ :=
        (takeAssigned_exact takeInteger_exact _ _ _).1 valued
      rcases fits : fitOrder n with _ | m
      · rw [fits] at read
        cases read
      · rw [fits] at read
        cases read
        obtain ⟨rfl, low, high⟩ := fitOrder_eq_ok_iff.1 fits
        exact ⟨_, .order spelled low high, by simp⟩
    · next text known =>
      obtain rfl := (isKey_of_fieldKey? known).printed_iff.1 printed
      split at read
      · cases read
      next value rest' valued =>
      obtain rfl := found_takeAssigned_text_iff.1 valued
      cases read
      exact ⟨_, FieldKey.spells_of_fieldKey? known value, rfl⟩
  · rintro ⟨_, spelled, rfl⟩
    cases spelled with
    | id | skip | identity | noIdentity =>
      rw [List.cons_append, IsKey.found (by decide)]
      rfl
    | @order n literal spelled low high =>
      have counted : (takeAssigned takeInteger (equalsSign :: literal ++ rest)).found =
          .ok (n, rest) :=
        (takeAssigned_exact takeInteger_exact _ _ _).2 ⟨_, ⟨_, spelled, rfl⟩, rfl⟩
      rw [List.cons_append, IsKey.found (by decide)]
      have key : fieldKey? "order" = some .order := rfl
      simp only [key, counted, fitOrder_eq_ok_iff.2 ⟨rfl, low, high⟩]
      rfl
    | column name | member name | ambient name =>
      simp only [List.cons_append, List.nil_append]
      rw [IsKey.found (by decide)]
      simp only [fieldKey?, found_takeAssigned_text_iff.2 rfl]
      rfl

/-! ## Lists of items -/

variable {Spelled : α → List Token → Prop}

/-- No tokens spell no items. -/
theorem listed_nil_iff {ts : List Token} : Listed Spelled [] ts ↔ ts = [] := by
  constructor
  · rintro (⟨⟨⟩⟩ | ⟨_, some⟩)
    · rfl
    · exact absurd rfl some
  · rintro rfl
    have listed : Listed Spelled [] ([comma].intercalate []) := .plain .nil
    exact listed

/-- The first item is the last one, or a comma stands behind it and the list goes on. -/
theorem listed_cons_iff {a : α} {items : List α} {ts : List Token} :
    Listed Spelled (a :: items) ts ↔ ∃ chunk, Spelled a chunk ∧
      (items = [] ∧ ts = chunk ∨
        ∃ rest, ts = chunk ++ comma :: rest ∧ Listed Spelled items rest) := by
  constructor
  · rintro (⟨spelled⟩ | ⟨spelled, -⟩)
    · obtain _ | ⟨first, others⟩ := spelled
      refine ⟨_, first, ?_⟩
      obtain _ | ⟨second, others⟩ := others
      · exact .inl ⟨rfl, by simp⟩
      · exact .inr ⟨_, by rw [List.intercalate_cons_cons]; simp, .plain (.cons second others)⟩
    · obtain _ | ⟨first, others⟩ := spelled
      refine ⟨_, first, .inr ?_⟩
      obtain _ | ⟨second, others⟩ := others
      · exact ⟨[], by simp, listed_nil_iff.2 rfl⟩
      · exact ⟨_, by rw [List.intercalate_cons_cons]; simp,
          .trailing (.cons second others) (List.cons_ne_nil _ _)⟩
  · rintro ⟨chunk, first, ⟨rfl, rfl⟩ | ⟨rest, rfl, others⟩⟩
    · have listed := Listed.plain (.cons first .nil)
      simpa using listed
    · obtain ⟨spelled⟩ | ⟨spelled, some⟩ := others
      · obtain _ | ⟨second, others⟩ := spelled
        · have listed := Listed.trailing (.cons first .nil) (List.cons_ne_nil _ _)
          simpa using listed
        · have listed := Listed.plain (.cons first (.cons second others))
          rw [List.intercalate_cons_cons] at listed
          simpa using listed
      · obtain _ | ⟨second, others⟩ := spelled
        · exact absurd rfl some
        · have listed := Listed.trailing (.cons first (.cons second others)) (List.cons_ne_nil _ _)
          rw [List.intercalate_cons_cons] at listed
          simpa using listed

/-- Behind an item there is nothing, or a comma. -/
theorem dropSeparator_eq_ok_iff {ts rest : List Token} :
    (∃ shorter, dropSeparator ts = .ok ⟨rest, shorter⟩) ↔
      ts = [] ∧ rest = [] ∨ ts = comma :: rest := by
  constructor
  · rintro ⟨shorter, dropped⟩
    unfold dropSeparator at dropped
    split at dropped
    · cases dropped
      exact .inl ⟨rfl, rfl⟩
    · cases dropped
      exact .inr rfl
    · cases dropped
  · rintro (⟨rfl, rfl⟩ | rfl)
    · exact ⟨_, rfl⟩
    · exact ⟨by simp, rfl⟩

variable {take : (ts : List Token) → Taking α ts}

/-- No items are read from no tokens only. -/
theorem takeItems_eq_nil_iff {ts : List Token} : takeItems take ts = .ok [] ↔ ts = [] := by
  constructor
  · intro read
    unfold takeItems at read
    split at read
    · next none => exact List.isEmpty_iff.1 none
    · repeat' split at read
      all_goals cases read
  · rintro rfl
    unfold takeItems
    rfl

/-- Items are read one by one: the first, its separator, and the others from what is left. -/
theorem takeItems_eq_cons_iff {a : α} {items : List α} {ts : List Token} :
    takeItems take ts = .ok (a :: items) ↔ ∃ rest rest', (take ts).found = .ok (a, rest) ∧
      (∃ shorter, dropSeparator rest = .ok ⟨rest', shorter⟩) ∧
      takeItems take rest' = .ok items := by
  constructor
  · intro read
    unfold takeItems at read
    split at read
    · cases read
    split at read
    · cases read
    next taken =>
    split at read
    · cases read
    next dropped =>
    split at read
    · cases read
    next others =>
    cases read
    exact ⟨_, _, Taking.found_eq_ok_iff.2 ⟨_, taken⟩, ⟨_, dropped⟩, others⟩
  · rintro ⟨rest, rest', taken, ⟨shorter', dropped⟩, others⟩
    obtain ⟨shorter, taken⟩ := Taking.found_eq_ok_iff.1 taken
    have some : ts.isEmpty = false := by
      cases ts with
      | nil => exact absurd shorter (Nat.not_lt_zero _)
      | cons => rfl
    unfold takeItems
    simp only [some, taken, dropped, others]
    rfl

/-- Any exact reader of items reads the lists of items, and nothing else. -/
theorem takeItems_eq_ok_iff (reader : Exact take Spelled) {items : List α} {ts : List Token} :
    takeItems take ts = .ok items ↔ Listed Spelled items ts := by
  -- By the items, not by the tokens: an item tells how many tokens are read for it.
  induction items generalizing ts with
  | nil => rw [takeItems_eq_nil_iff, listed_nil_iff]
  | cons a items ih =>
    rw [takeItems_eq_cons_iff, listed_cons_iff]
    constructor
    · rintro ⟨rest, rest', taken, dropped, others⟩
      obtain ⟨chunk, spelled, rfl⟩ := (reader _ _ _).1 taken
      refine ⟨chunk, spelled, ?_⟩
      obtain ⟨rfl, rfl⟩ | rfl := dropSeparator_eq_ok_iff.1 dropped
      · have none : takeItems take [] = .ok [] := takeItems_eq_nil_iff.2 rfl
        rw [none] at others
        cases others
        exact .inl ⟨rfl, by simp⟩
      · exact .inr ⟨rest', rfl, ih.1 others⟩
    · rintro ⟨chunk, spelled, ⟨rfl, rfl⟩ | ⟨rest, rfl, others⟩⟩
      · exact ⟨[], [], (reader _ _ _).2 ⟨ts, spelled, by simp⟩,
          dropSeparator_eq_ok_iff.2 (.inl ⟨rfl, rfl⟩), takeItems_eq_nil_iff.2 rfl⟩
      · exact ⟨comma :: rest, rest, (reader _ _ _).2 ⟨chunk, spelled, rfl⟩,
          dropSeparator_eq_ok_iff.2 (.inr rfl), ih.2 others⟩

end BoundSql.Declaration
