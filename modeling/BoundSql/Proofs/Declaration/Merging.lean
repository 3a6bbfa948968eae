import BoundSql.Proofs.Declaration.Items

/-!
# The meaning of attributes

What some items say together is a function of their list, without any merging: a flag is set where
an item sets it, and a value is the last one that an item gives (`TableArguments.said`,
`FieldArguments.said`). So attributes may be joined to one. Merging what each of them says is the
same as reading their items from one list, with commas between them (`joined`), and both fail where
the first attribute fails. `AttributeLaw` states this once for both kinds of attributes.
-/

namespace BoundSql.Declaration

/-! ## What items say -/

variable {ι α : Type}

section LastOf

variable (value? : ι → Option α)

/-- The last value that an item gives. -/
def lastOf (items : List ι) : Option α :=
  (items.filterMap value?).getLast?

/-- Of two lists the later one has the last word, if it has any. -/
theorem lastOf_append (earlier later : List ι) :
    lastOf value? (earlier ++ later) = (lastOf value? later).or (lastOf value? earlier) := by
  simp only [lastOf, List.filterMap_append, List.getLast?_append]

/-- One more item has the last word, if it gives a value. -/
theorem lastOf_concat (earlier : List ι) (item : ι) :
    lastOf value? (earlier ++ [item]) = (value? item).or (lastOf value? earlier) := by
  rw [lastOf_append]
  cases value : value? item <;> simp [lastOf, value]

end LastOf

/-- Items added one after the other say what all of them say. -/
theorem foldl_said {add : α → ι → α} {said : List ι → α}
    (step : ∀ items item, add (said items) item = said (items ++ [item])) (before items : List ι) :
    items.foldl add (said before) = said (before ++ items) := by
  induction items generalizing before with
  | nil => rw [List.foldl_nil, List.append_nil]
  | cons item items ih => rw [List.foldl_cons, step, ih, List.append_assoc, List.singleton_append]

/-- The name that an item gives the table, if it is about that. -/
def TableItem.table? : TableItem → Option String
  | .table name => some name
  | _ => none

/-- The schema that an item gives, if it is about that. -/
def TableItem.schema? : TableItem → Option String
  | .schema name => some name
  | _ => none

/-- Two words are one key: that a column counts by itself, and that it does not. -/
def FieldItem.identity? : FieldItem → Option Bool
  | .identity flag => some flag
  | _ => none

/-- The position that an item gives the column. -/
def FieldItem.order? : FieldItem → Option Int
  | .order n => some n
  | _ => none

/-- The name that an item gives the column. -/
def FieldItem.column? : FieldItem → Option String
  | .column name => some name
  | _ => none

/-- The name that an item gives the member. -/
def FieldItem.member? : FieldItem → Option String
  | .member name => some name
  | _ => none

/-- The text that an item gives for the database to fill in. -/
def FieldItem.ambient? : FieldItem → Option String
  | .ambient literal => some literal
  | _ => none

namespace TableArguments

/-- What the items of structures say together. -/
def said (items : List TableItem) : TableArguments where
  table := lastOf TableItem.table? items
  schema := lastOf TableItem.schema? items

/-- Merging what two lists say is what the lists say one after the other. -/
theorem merge_said (earlier later : List TableItem) :
    merge (said earlier) (said later) = said (earlier ++ later) := by
  simp only [merge, said, lastOf_append]

/-- Adding one item to what others say is what they say together with it. -/
theorem apply_said (items : List TableItem) (item : TableItem) :
    (said items).apply item = said (items ++ [item]) := by
  simp only [said, lastOf_concat]
  cases item <;> rfl

theorem ofItems_eq_said (items : List TableItem) : ofItems items = said items :=
  foldl_said apply_said [] items

/-- To parse arguments is to take their items and see what these say. -/
theorem parse_eq_map (ts : List Token) : parse ts = (takeItems takeTableItem ts).map said := by
  unfold parse
  cases takeItems takeTableItem ts with
  | error e => rfl
  | ok items => simp only [ofItems_eq_said, Except.map]

end TableArguments

namespace FieldArguments

/-- What the items of fields say together: flags are set by any item, values by the last. -/
def said (items : List FieldItem) : FieldArguments where
  isId := decide (.id ∈ items)
  skip := decide (.skip ∈ items)
  identity := lastOf FieldItem.identity? items
  order := lastOf FieldItem.order? items
  column := lastOf FieldItem.column? items
  member := lastOf FieldItem.member? items
  ambient := lastOf FieldItem.ambient? items

/-- Merging what two lists say is what the lists say one after the other. -/
theorem merge_said (earlier later : List FieldItem) :
    merge (said earlier) (said later) = said (earlier ++ later) := by
  simp only [merge, said, lastOf_append, List.mem_append, Bool.decide_or]

/-- Adding one item to what others say is what they say together with it. -/
theorem apply_said (items : List FieldItem) (item : FieldItem) :
    (said items).apply item = said (items ++ [item]) := by
  simp only [said, lastOf_concat, List.mem_append, List.mem_singleton]
  cases item <;> simp [apply, FieldItem.identity?, FieldItem.order?, FieldItem.column?,
    FieldItem.member?, FieldItem.ambient?]

theorem ofItems_eq_said (items : List FieldItem) : ofItems items = said items :=
  foldl_said apply_said [] items

/-- To parse arguments is to take their items and see what these say. -/
theorem parse_eq_map (ts : List Token) : parse ts = (takeItems takeFieldItem ts).map said := by
  unfold parse
  cases takeItems takeFieldItem ts with
  | error e => rfl
  | ok items => simp only [ofItems_eq_said, Except.map]

end FieldArguments

/-! ## What attributes say -/

variable {Spelled : ι → List Token → Prop} {said : List ι → α}
  {parse : List Token → Except DeclarationError α} {merge : α → α → α}

/-- An attribute that is read without a fault: one of another name, or a list of items. -/
inductive Attribute.Accepted (Spelled : ι → List Token → Prop) : Attribute → Prop
  | foreign : Accepted Spelled .foreign
  | list {items : List ι} {ts : List Token} (listed : Listed Spelled items ts) :
      Accepted Spelled (.list ts)

/-- The fault of an attribute by itself. -/
inductive Attribute.Rejected (parse : List Token → Except DeclarationError α) :
    Attribute → DeclarationError → Prop
  | bare : Rejected parse .bare .missingArguments
  | assigned : Rejected parse .assigned .assignedArguments
  | list {ts : List Token} {e : DeclarationError} (faulty : parse ts = .error e) :
      Rejected parse (.list ts) e

/-- The items that some attributes have between them, in order. -/
inductive Says (Spelled : ι → List Token → Prop) : List Attribute → List ι → Prop
  | nil : Says Spelled [] []
  | foreign {rest : List Attribute} {items : List ι} (later : Says Spelled rest items) :
      Says Spelled (.foreign :: rest) items
  | list {ts : List Token} {rest : List Attribute} {items others : List ι}
      (listed : Listed Spelled items ts) (later : Says Spelled rest others) :
      Says Spelled (.list ts :: rest) (items ++ others)

/-- Attributes have items between them exactly if each of them is accepted. -/
theorem exists_says_iff {attributes : List Attribute} :
    (∃ items, Says Spelled attributes items) ↔ ∀ a ∈ attributes, a.Accepted Spelled := by
  constructor
  · rintro ⟨items, told⟩
    induction told with
    | nil => exact List.forall_mem_nil _
    | foreign _ ih => exact List.forall_mem_cons.2 ⟨.foreign, ih⟩
    | list listed _ ih => exact List.forall_mem_cons.2 ⟨.list listed, ih⟩
  · intro accepted
    induction attributes with
    | nil => exact ⟨[], .nil⟩
    | cons first rest ih =>
      obtain ⟨here, later⟩ := List.forall_mem_cons.1 accepted
      obtain ⟨others, told⟩ := ih later
      cases here with
      | foreign => exact ⟨others, .foreign told⟩
      | list listed => exact ⟨_, .list listed told⟩

/-- The tokens of two lists as those of one. -/
def joinLists : List Token → List Token → List Token
  | [], later => later
  | earlier, [] => earlier
  | earlier, later => dropTrailingComma earlier ++ comma :: later

/-- The arguments of some attributes as those of one, with commas between them. -/
def joined : List Attribute → List Token
  | [] => []
  | .list ts :: rest => joinLists ts (joined rest)
  | _ :: rest => joined rest

/-- Reading succeeds exactly on the lists of items, and answers what these say. -/
theorem map_takeItems_eq_ok_iff {take : (ts : List Token) → Taking ι ts}
    (reader : Exact take Spelled) {ts : List Token} {a : α} :
    (takeItems take ts).map said = .ok a ↔ ∃ items, Listed Spelled items ts ∧ a = said items := by
  cases read : takeItems take ts with
  | error e =>
    refine iff_of_false nofun ?_
    rintro ⟨items, listed, -⟩
    rw [(takeItems_eq_ok_iff reader).2 listed] at read
    cases read
  | ok items =>
    constructor
    · rintro ⟨⟩
      exact ⟨items, (takeItems_eq_ok_iff reader).1 read, rfl⟩
    · rintro ⟨items', listed, rfl⟩
      rw [(takeItems_eq_ok_iff reader).2 listed] at read
      cases read
      rfl

/-- Attributes are merged from left to right: first some, then the others into what these said. -/
theorem mergeAttributes_append (merged : α) (before after : List Attribute) :
    mergeAttributes parse merge merged (before ++ after) =
      (mergeAttributes parse merge merged before).bind (mergeAttributes parse merge · after) := by
  induction before generalizing merged with
  | nil => rfl
  | cons first rest ih =>
    rw [List.cons_append, mergeAttributes, mergeAttributes]
    obtain e | _ | ts := first.arguments?
    · rfl
    · exact ih merged
    · dsimp only
      cases parse ts with
      | error e => rfl
      | ok parsed => exact ih _

/-- Whether there is a comma at the end is known from the last tokens. -/
theorem dropTrailingComma_append (ts : List Token) {us : List Token} (some : us ≠ []) :
    dropTrailingComma (ts ++ us) = ts ++ dropTrailingComma us := by
  simp only [dropTrailingComma, List.getLast?_append_of_ne_nil _ some,
    List.dropLast_append_of_ne_nil some, apply_ite (ts ++ ·)]

/-- What the two kinds of attributes have in common: arguments are lists of items, the items of two
lists say together what the two lists say, and no item ends with a comma. -/
structure Meaning (Spelled : ι → List Token → Prop) (said : List ι → α)
    (parse : List Token → Except DeclarationError α) (merge : α → α → α) : Prop where
  parse_eq_ok_iff {ts : List Token} {a : α} :
    parse ts = .ok a ↔ ∃ items, Listed Spelled items ts ∧ a = said items
  merge_said (earlier later : List ι) : merge (said earlier) (said later) = said (earlier ++ later)
  last {item : ι} {chunk : List Token} (spelled : Spelled item chunk) :
    ∃ front last, chunk = front ++ [last] ∧ isComma last = false

namespace Meaning

variable (meaning : Meaning Spelled said parse merge)

include meaning

/-- No item is spelled without a token. -/
theorem ne_nil {item : ι} {chunk : List Token} (spelled : Spelled item chunk) : chunk ≠ [] := by
  obtain ⟨front, last, rfl, -⟩ := meaning.last spelled
  simp

/-- An item does not end with a comma, so that none is dropped. -/
theorem dropTrailingComma_eq {item : ι} {chunk : List Token} (spelled : Spelled item chunk) :
    dropTrailingComma chunk = chunk := by
  obtain ⟨front, last, rfl, plain⟩ := meaning.last spelled
  simp [dropTrailingComma, plain]

/-- Only a list without items is spelled without tokens. -/
theorem eq_nil_iff {items : List ι} {ts : List Token} (listed : Listed Spelled items ts) :
    items = [] ↔ ts = [] := by
  cases items with
  | nil => simp [listed_nil_iff.1 listed]
  | cons item items =>
    obtain ⟨chunk, spelled, ⟨rfl, rfl⟩ | ⟨rest, rfl, -⟩⟩ := listed_cons_iff.1 listed
    · simp [meaning.ne_nil spelled]
    · simp

/-- A comma behind the last item is no more than the separator of the next. -/
theorem listed_append {earlier later : List ι} {ts us : List Token}
    (listed : Listed Spelled earlier ts) (listed' : Listed Spelled later us) (some : earlier ≠ []) :
    Listed Spelled (earlier ++ later) (dropTrailingComma ts ++ comma :: us) := by
  -- Only the end of `ts` matters: the last item ends there, or a comma behind it that is dropped.
  induction earlier generalizing ts with
  | nil => exact absurd rfl some
  | cons item items ih =>
    obtain ⟨chunk, spelled, ⟨rfl, rfl⟩ | ⟨rest, rfl, others⟩⟩ := listed_cons_iff.1 listed
    · rw [meaning.dropTrailingComma_eq spelled]
      exact listed_cons_iff.2 ⟨ts, spelled, .inr ⟨us, rfl, listed'⟩⟩
    · have front : chunk ++ comma :: rest = (chunk ++ [comma]) ++ rest := by simp
      by_cases none : items = []
      · subst none
        obtain rfl := listed_nil_iff.1 others
        rw [dropTrailingComma_append _ (List.cons_ne_nil _ _)]
        have alone : dropTrailingComma [comma] = [] := rfl
        exact listed_cons_iff.2 ⟨chunk, spelled, .inr ⟨us, by simp [alone], listed'⟩⟩
      · have some : rest ≠ [] := mt (meaning.eq_nil_iff others).2 none
        rw [front, dropTrailingComma_append _ some]
        refine listed_cons_iff.2 ⟨chunk, spelled, .inr ⟨_, by simp, ih others none⟩⟩

/-- Two lists of items joined are one list with the items of both. -/
theorem listed_joinLists {earlier later : List ι} {ts us : List Token}
    (listed : Listed Spelled earlier ts) (listed' : Listed Spelled later us) :
    Listed Spelled (earlier ++ later) (joinLists ts us) := by
  unfold joinLists
  split
  · rw [(meaning.eq_nil_iff listed).2 rfl]
    exact listed'
  · rw [(meaning.eq_nil_iff listed').2 rfl, List.append_nil]
    exact listed
  · next some _ =>
    exact meaning.listed_append listed listed' (mt (meaning.eq_nil_iff listed).1 some)

/-- The joined arguments of attributes list all their items. -/
theorem listed_joined {attributes : List Attribute} {items : List ι}
    (told : Says Spelled attributes items) : Listed Spelled items (joined attributes) := by
  induction told with
  | nil => exact listed_nil_iff.2 rfl
  | foreign _ ih => exact ih
  | list listed _ ih => exact meaning.listed_joinLists listed ih

/-- Attributes with items between them are merged to what these items say, behind what was said
before. -/
theorem mergeAttributes_eq {attributes : List Attribute} {items : List ι}
    (told : Says Spelled attributes items) (before : List ι) :
    mergeAttributes parse merge (said before) attributes = .ok (said (before ++ items)) := by
  induction told generalizing before with
  | nil => rw [List.append_nil, mergeAttributes]
  | foreign _ ih => exact ih before
  | @list ts rest items others listed _ ih =>
    have parsed : parse ts = .ok (said items) := meaning.parse_eq_ok_iff.2 ⟨items, listed, rfl⟩
    rw [mergeAttributes, Attribute.arguments?]
    simp only [parsed, meaning.merge_said]
    rw [ih, List.append_assoc]

/-- An attribute is accepted or has a fault. -/
theorem accepted_or_rejected (a : Attribute) :
    a.Accepted Spelled ∨ ∃ e, a.Rejected parse e := by
  cases a with
  | foreign => exact .inl .foreign
  | bare => exact .inr ⟨_, .bare⟩
  | assigned => exact .inr ⟨_, .assigned⟩
  | list ts =>
    cases parsed : parse ts with
    | error e => exact .inr ⟨e, .list parsed⟩
    | ok a =>
      obtain ⟨items, listed, -⟩ := meaning.parse_eq_ok_iff.1 parsed
      exact .inl (.list listed)

theorem accepted_or_first_rejected (attributes : List Attribute) :
    (∀ a ∈ attributes, a.Accepted Spelled) ∨ ∃ before a after e,
      attributes = before ++ a :: after ∧ (∀ b ∈ before, b.Accepted Spelled) ∧
        a.Rejected parse e := by
  induction attributes with
  | nil => exact .inl (List.forall_mem_nil _)
  | cons first rest ih =>
    obtain here | ⟨e, here⟩ := meaning.accepted_or_rejected first
    · obtain later | ⟨before, a, after, e, rfl, accepted, rejected⟩ := ih
      · exact .inl (List.forall_mem_cons.2 ⟨here, later⟩)
      · exact .inr ⟨first :: before, a, after, e, rfl, List.forall_mem_cons.2 ⟨here, accepted⟩,
          rejected⟩
    · exact .inr ⟨[], first, rest, e, rfl, List.forall_mem_nil _, here⟩

/-- Behind accepted attributes the fault of a rejected one is reported, whatever follows. -/
theorem mergeAttributes_of_rejected {before after : List Attribute} {a : Attribute}
    {e : DeclarationError} (accepted : ∀ b ∈ before, b.Accepted Spelled)
    (rejected : a.Rejected parse e) :
    mergeAttributes parse merge (said []) (before ++ a :: after) = .error e := by
  obtain ⟨items, told⟩ := exists_says_iff.2 accepted
  rw [mergeAttributes_append, meaning.mergeAttributes_eq told]
  cases rejected with
  | bare | assigned => rfl
  | list faulty =>
    simp only [Except.bind, mergeAttributes, Attribute.arguments?, faulty]

/-- Merging succeeds exactly where the attributes have items between them. -/
theorem mergeAttributes_eq_ok_iff {attributes : List Attribute} {a : α} :
    mergeAttributes parse merge (said []) attributes = .ok a ↔
      ∃ items, Says Spelled attributes items ∧ a = said items := by
  constructor
  · intro merged
    obtain accepted | ⟨before, a', after, e, rfl, accepted, rejected⟩ :=
      meaning.accepted_or_first_rejected attributes
    · obtain ⟨items, told⟩ := exists_says_iff.2 accepted
      rw [meaning.mergeAttributes_eq told] at merged
      cases merged
      exact ⟨items, told, rfl⟩
    · rw [meaning.mergeAttributes_of_rejected accepted rejected] at merged
      cases merged
  · rintro ⟨items, told, rfl⟩
    exact meaning.mergeAttributes_eq told []

/-- Merging fails exactly at the first rejected attribute. -/
theorem mergeAttributes_eq_error_iff {attributes : List Attribute} {e : DeclarationError} :
    mergeAttributes parse merge (said []) attributes = .error e ↔ ∃ before a after,
      attributes = before ++ a :: after ∧ (∀ b ∈ before, b.Accepted Spelled) ∧
        a.Rejected parse e := by
  constructor
  · intro failed
    obtain accepted | ⟨before, a, after, e', rfl, accepted, rejected⟩ :=
      meaning.accepted_or_first_rejected attributes
    · obtain ⟨items, told⟩ := exists_says_iff.2 accepted
      rw [meaning.mergeAttributes_eq told] at failed
      cases failed
    · rw [meaning.mergeAttributes_of_rejected accepted rejected] at failed
      cases failed
      exact ⟨before, a, after, rfl, accepted, rejected⟩
  · rintro ⟨before, a, after, rfl, accepted, rejected⟩
    exact meaning.mergeAttributes_of_rejected accepted rejected

end Meaning

/-! ## The two kinds of attributes -/

/-- The last token of an item of a structure is a literal. -/
theorem TableItem.Spelled.last {item : TableItem} {chunk : List Token}
    (spelled : item.Spelled chunk) :
    ∃ front last, chunk = front ++ [last] ∧ isComma last = false := by
  cases spelled with
  | table name | schema name => exact ⟨[_, _], _, rfl, rfl⟩

/-- The last token of an item of a field is a word or a literal. -/
theorem FieldItem.Spelled.last {item : FieldItem} {chunk : List Token}
    (spelled : item.Spelled chunk) :
    ∃ front last, chunk = front ++ [last] ∧ isComma last = false := by
  cases spelled with
  | id | skip | identity | noIdentity => exact ⟨[], _, rfl, rfl⟩
  | order literal =>
    cases literal with
    | plain n => exact ⟨[_, _], _, rfl, rfl⟩
    | negative n => exact ⟨[_, _, _], _, rfl, rfl⟩
  | column name | member name | ambient name => exact ⟨[_, _], _, rfl, rfl⟩

theorem TableArguments.meaning :
    Meaning TableItem.Spelled TableArguments.said TableArguments.parse TableArguments.merge where
  parse_eq_ok_iff := by
    intro ts a
    rw [parse_eq_map, map_takeItems_eq_ok_iff takeTableItem_exact]
  merge_said := merge_said
  last := TableItem.Spelled.last

theorem FieldArguments.meaning :
    Meaning FieldItem.Spelled FieldArguments.said FieldArguments.parse FieldArguments.merge where
  parse_eq_ok_iff := by
    intro ts a
    rw [parse_eq_map, map_takeItems_eq_ok_iff takeFieldItem_exact]
  merge_said := merge_said
  last := FieldItem.Spelled.last

/-- What holds of attributes of one kind, given how their items are spelled and what items say.
`blank` is what no attribute says. -/
structure AttributeLaw (Spelled : ι → List Token → Prop) (said : List ι → α)
    (parse : List Token → Except DeclarationError α) (merge : α → α → α) (blank : α) : Prop where
  /-- Arguments are the lists of items, and nothing else is. -/
  grammar (ts : List Token) (a : α) :
    parse ts = .ok a ↔ ∃ items, Listed Spelled items ts ∧ a = said items
  /-- Merging what accepted attributes say is reading the items of all of them from one list. -/
  joining (attributes : List Attribute) (accepted : ∀ a ∈ attributes, a.Accepted Spelled) :
    ∃ items, Says Spelled attributes items ∧
      mergeAttributes parse merge blank attributes = .ok (said items) ∧
      parse (joined attributes) = .ok (said items)
  /-- Merging fails where the first attribute is rejected, and with its fault. -/
  fault (attributes : List Attribute) (e : DeclarationError) :
    mergeAttributes parse merge blank attributes = .error e ↔ ∃ before a after,
      attributes = before ++ a :: after ∧ (∀ b ∈ before, b.Accepted Spelled) ∧ a.Rejected parse e

/-- The law follows from what the two kinds of attributes have in common. -/
theorem Meaning.law (meaning : Meaning Spelled said parse merge) :
    AttributeLaw Spelled said parse merge (said []) where
  grammar _ _ := meaning.parse_eq_ok_iff
  joining attributes accepted := by
    obtain ⟨items, told⟩ := exists_says_iff.2 accepted
    exact ⟨items, told, meaning.mergeAttributes_eq told [],
      meaning.parse_eq_ok_iff.2 ⟨items, meaning.listed_joined told, rfl⟩⟩
  fault _ _ := meaning.mergeAttributes_eq_error_iff

/-- The attributes of fields and those of structures keep to one law, each with its own items. -/
theorem attributes_law :
    AttributeLaw FieldItem.Spelled FieldArguments.said FieldArguments.parse
      FieldArguments.merge {} ∧
    AttributeLaw TableItem.Spelled TableArguments.said TableArguments.parse
      TableArguments.merge {} :=
  ⟨FieldArguments.meaning.law, TableArguments.meaning.law⟩

end BoundSql.Declaration
