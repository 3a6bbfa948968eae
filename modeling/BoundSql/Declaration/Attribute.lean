import BoundSql.Declaration.Error
import BoundSql.Declaration.FieldType

/-!
# Attributes

The arguments of an `orm` attribute are items between commas. An item is a flag, or a key with a
literal behind an equals sign. Arguments are read token by token, and the first token that does not
fit is the fault. On a structure the key is judged behind its literal, on a field before anything
else is read. Within one list and from attribute to attribute flags add up, and the last value of a
key stands.
-/

namespace BoundSql.Declaration

/-- An attribute, as far as it concerns the table. -/
inductive Attribute
  | foreign
  | bare
  | assigned
  | list (arguments : List Token)

namespace Attribute

/-- The attribute between the brackets, if it has the form of one. -/
def ofContent? : List Token → Option Attribute
  | [.atom (.identifier false "orm")] => some .bare
  | [.atom (.identifier false "orm"), .group _ arguments] => some (.list arguments)
  | .atom (.identifier false "orm") :: .atom (.punctuation '=') :: _ => some .assigned
  | .atom (.identifier false "orm") :: .atom .doubleColon :: _ => some .foreign
  | .atom (.identifier false "orm") :: _ => none
  | [] => none
  | _ => some .foreign

def ofTokens? : List Token → Option (List Attribute)
  | [] => some []
  | .atom (.punctuation '#') :: .group .bracket content :: rest =>
    match ofContent? content, ofTokens? rest with
    | some first, some others => some (first :: others)
    | _, _ => none
  | _ => none

/-- The arguments of an attribute that has some; `none` for an attribute of another name. -/
def arguments? : Attribute → Except DeclarationError (Option (List Token))
  | .foreign => .ok none
  | .bare => .error .missingArguments
  | .assigned => .error .assignedArguments
  | .list arguments => .ok (some arguments)

end Attribute

/-! ## Reading items -/

/-- What was read off the head of some tokens, or the fault, with the rest of the tokens. -/
abbrev Taking (α : Type) (ts : List Token) :=
  Except DeclarationError (α × { rest : List Token // rest.length < ts.length })

def takeIdentifier (ts : List Token) : Taking String ts :=
  match ts with
  | .atom (.identifier raw name) :: rest =>
    if !raw && reservedWords.contains name then .error (.keyword name)
    else .ok (identifierText raw name, ⟨rest, by simp⟩)
  | _ => .error .expectedIdentifier

def takeEquals (ts : List Token) : Taking Unit ts :=
  match ts with
  | .atom (.punctuation '=') :: rest => .ok ((), ⟨rest, by simp⟩)
  | _ => .error .expectedEquals

def takeText (ts : List Token) : Taking String ts :=
  match ts with
  | .atom (.text value) :: rest => .ok (value, ⟨rest, by simp⟩)
  | ts => .error (.expectedText ts.isEmpty)

def takeInteger (ts : List Token) : Taking Int ts :=
  match ts with
  | .atom (.integer value) :: rest => .ok (value, ⟨rest, by simp⟩)
  | .atom (.punctuation '-') :: .atom (.integer value) :: rest =>
    .ok (-(value : Int), ⟨rest, by simp only [List.length_cons]; omega⟩)
  | ts => .error (.expectedInteger ts.isEmpty)

def fitOrder (n : Int) : Except DeclarationError Int :=
  if Int32.maxValue.toInt < n then .error .orderTooLarge
  else if n < Int32.minValue.toInt then .error .orderTooSmall
  else .ok n

/-- What stands behind the equals sign that has to come first. -/
def takeAssigned {α : Type} (take : (ts : List Token) → Taking α ts) (ts : List Token) :
    Taking α ts :=
  match takeEquals ts with
  | .error e => .error e
  | .ok (_, ⟨rest, h⟩) =>
    match take rest with
    | .error e => .error e
    | .ok (a, ⟨rest', h'⟩) => .ok (a, ⟨rest', Nat.lt_trans h' h⟩)

/-- The tokens behind the comma that has to stand between two items. -/
def dropSeparator (ts : List Token) :
    Except DeclarationError { rest : List Token // rest.length ≤ ts.length } :=
  match ts with
  | [] => .ok ⟨[], Nat.le_refl _⟩
  | .atom (.punctuation ',') :: rest => .ok ⟨rest, by simp⟩
  | _ => .error .expectedComma

/-- Items up to the end, with commas between them; one may stand at the end as well. -/
def takeItems {α : Type} (take : (ts : List Token) → Taking α ts) (ts : List Token) :
    Except DeclarationError (List α) :=
  if ts.isEmpty then .ok []
  else
    match take ts with
    | .error e => .error e
    | .ok (item, ⟨rest, _⟩) =>
      match dropSeparator rest with
      | .error e => .error e
      | .ok ⟨rest', _⟩ =>
        match takeItems take rest' with
        | .error e => .error e
        | .ok items => .ok (item :: items)
termination_by ts.length
decreasing_by omega

/-! ## Attributes of a structure -/

inductive TableItem
  | table (name : String)
  | schema (name : String)
deriving DecidableEq, Repr

/-- An item of a structure's attribute. The key is judged last. -/
def takeTableItem (ts : List Token) : Taking TableItem ts :=
  match takeIdentifier ts with
  | .error e => .error e
  | .ok (key, ⟨rest, h⟩) =>
    match takeAssigned takeText rest with
    | .error e => .error e
    | .ok (value, ⟨rest', h'⟩) =>
      if key = "table" then .ok (.table value, ⟨rest', Nat.lt_trans h' h⟩)
      else if key = "schema" then .ok (.schema value, ⟨rest', Nat.lt_trans h' h⟩)
      else .error .unknownTableKey

/-- What a structure's attributes say. -/
structure TableArguments where
  table : Option String := none
  schema : Option String := none
deriving DecidableEq, Repr, Inhabited

namespace TableArguments

/-- The same with one more item. -/
def apply (a : TableArguments) : TableItem → TableArguments
  | .table name => { a with table := some name }
  | .schema name => { a with schema := some name }

def ofItems (items : List TableItem) : TableArguments :=
  items.foldl apply {}

/-- What an earlier and a later attribute say together. -/
def merge (earlier later : TableArguments) : TableArguments where
  table := later.table.or earlier.table
  schema := later.schema.or earlier.schema

def parse (ts : List Token) : Except DeclarationError TableArguments :=
  match takeItems takeTableItem ts with
  | .error e => .error e
  | .ok items => .ok (ofItems items)

end TableArguments

/-! ## Attributes of a field -/

inductive FieldItem
  | id
  | skip
  | identity (flag : Bool)
  | order (n : Int)
  | column (name : String)
  | member (name : String)
  | ambient (literal : String)
deriving DecidableEq, Repr

/-- A key of a field's attribute: a flag, or what its literal becomes. -/
inductive FieldKey
  | flag (item : FieldItem)
  | order
  | text (item : String → FieldItem)

/-- The key of a word. -/
def fieldKey? (word : String) : Option FieldKey :=
  if word = "id" then some (.flag .id)
  else if word = "skip" then some (.flag .skip)
  else if word = "identity" then some (.flag (.identity true))
  else if word = "no_identity" then some (.flag (.identity false))
  else if word = "order" then some .order
  else if word = "column" then some (.text .column)
  else if word = "member" then some (.text .member)
  else if word = "ambient" then some (.text .ambient)
  else none

/-- An item of a field's attribute. The key is judged first. -/
def takeFieldItem (ts : List Token) : Taking FieldItem ts :=
  match takeIdentifier ts with
  | .error e => .error e
  | .ok (word, ⟨rest, h⟩) =>
    match fieldKey? word with
    | none => .error .unknownFieldKey
    | some (.flag item) => .ok (item, ⟨rest, h⟩)
    | some .order =>
      match takeAssigned takeInteger rest with
      | .error e => .error e
      | .ok (n, ⟨rest', h'⟩) =>
        match fitOrder n with
        | .error e => .error e
        | .ok n => .ok (.order n, ⟨rest', Nat.lt_trans h' h⟩)
    | some (.text item) =>
      match takeAssigned takeText rest with
      | .error e => .error e
      | .ok (value, ⟨rest', h'⟩) => .ok (item value, ⟨rest', Nat.lt_trans h' h⟩)

/-- What a field's attributes say. -/
structure FieldArguments where
  isId : Bool := false
  skip : Bool := false
  identity : Option Bool := none
  order : Option Int := none
  column : Option String := none
  member : Option String := none
  ambient : Option String := none
deriving DecidableEq, Repr, Inhabited

namespace FieldArguments

/-- The same with one more item. -/
def apply (a : FieldArguments) : FieldItem → FieldArguments
  | .id => { a with isId := true }
  | .skip => { a with skip := true }
  | .identity flag => { a with identity := some flag }
  | .order n => { a with order := some n }
  | .column name => { a with column := some name }
  | .member name => { a with member := some name }
  | .ambient literal => { a with ambient := some literal }

def ofItems (items : List FieldItem) : FieldArguments :=
  items.foldl apply {}

/-- What an earlier and a later attribute say together. -/
def merge (earlier later : FieldArguments) : FieldArguments where
  isId := earlier.isId || later.isId
  skip := earlier.skip || later.skip
  identity := later.identity.or earlier.identity
  order := later.order.or earlier.order
  column := later.column.or earlier.column
  member := later.member.or earlier.member
  ambient := later.ambient.or earlier.ambient

def parse (ts : List Token) : Except DeclarationError FieldArguments :=
  match takeItems takeFieldItem ts with
  | .error e => .error e
  | .ok items => .ok (ofItems items)

end FieldArguments

/-! ## Several attributes -/

/-- What attributes say together, in order, up to the first that is at fault. -/
def mergeAttributes {α : Type} (parse : List Token → Except DeclarationError α)
    (merge : α → α → α) : α → List Attribute → Except DeclarationError α
  | merged, [] => .ok merged
  | merged, first :: rest =>
    match first.arguments? with
    | .error e => .error e
    | .ok none => mergeAttributes parse merge merged rest
    | .ok (some ts) =>
      match parse ts with
      | .error e => .error e
      | .ok parsed => mergeAttributes parse merge (merge merged parsed) rest

end BoundSql.Declaration
