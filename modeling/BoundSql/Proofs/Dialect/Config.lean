import BoundSql.Proofs.Json.Members

/-!
# Configurations and the dialects they describe

An object describes a dialect if it has a member for each of the dialect's settings, in any order
and among members with other names; the default schema's may be missing if there is none
(`Dialect.Described`). Whatever text spells such an object is read as this dialect, and the text
that is written for a dialect is one of them (`Dialect.ofText?_of_described`).
-/

namespace BoundSql

open Json (Source)
open Json.Source (Arranges)

/-! ## What a configuration says -/

/-- The settings of brackets, and what their values have to be. -/
def Brackets.fields (b : Brackets) : List (String × (Source → Prop)) :=
  [ ("open", fun value => value.text? = some b.opening.toString),
    ("close", fun value => value.text? = some b.closing.toString) ]

def Brackets.fieldNames : List String :=
  ["open", "close"]

def Brackets.Described (b : Brackets) (value : Source) : Prop :=
  ∃ members, value = .object members ∧ Arranges b.fields fieldNames members

namespace Dialect

/-- The default schema: its text, or `null` where there is none. -/
def SchemaDescribed (d : Dialect) (value : Source) : Prop :=
  match d.defaultSchema with
  | some schema => value.text? = some schema
  | none => value = .null

/-- The settings that no configuration leaves out, and what their values have to be. -/
def fields (d : Dialect) : List (String × (Source → Prop)) :=
  [ ("kind", fun value => value.text? = some d.kind.configName),
    ("bind_prefix", fun value => value.text? = some d.bindPrefix.toString),
    ("bracket", d.brackets.Described),
    ("in_clause_max_size", fun value => value.natural? = some d.listLimit.toNat) ]

def fieldNames : List String :=
  ["kind", "bind_prefix", "bracket", "in_clause_max_size", "default_schema"]

/-- The members of an object that describes the dialect. -/
def Described (d : Dialect) (members : List (List Json.Piece × Source)) : Prop :=
  Arranges (d.fields ++ [("default_schema", d.SchemaDescribed)]) fieldNames members ∨
    d.defaultSchema = none ∧ Arranges d.fields fieldNames members

end Dialect

/-! ## Reading the values -/

namespace Json.Source

theorem character?_of_text? {value : Source} {c : Char} (text : value.text? = some c.toString) :
    value.character? = some c := by
  rw [character?, text, Option.map_some, Char.toString, String.toList_singleton]

theorem word?_of_natural? {value : Source} {w : UInt64} (natural : value.natural? = some w.toNat) :
    value.word? = some w := by
  rw [word?, natural]
  simp only [UInt64.toNat_lt_size, if_true, UInt64.ofNat_toNat]

/-- A value that is no `null` and has a text. -/
theorem optionalText?_of_text? {value : Source} {s : String} (text : value.text? = some s) :
    optionalText? (some value) = some (some s) := by
  cases value with
  | string pieces => rw [optionalText?, text, Option.map_some]; exact nofun
  | _ => cases text

theorem kind?_of_text? {value : Source} {kind : DatabaseKind}
    (text : value.text? = some kind.configName) : value.kind? = some kind := by
  cases value with
  | string pieces =>
    rw [kind?, text, Option.bind_some, DatabaseKind.ofConfigName?_configName]
    exact nofun
  | _ => cases text

theorem brackets?_of_described {b : Brackets} {value : Source} (described : b.Described value) :
    value.brackets? = some b := by
  obtain ⟨members, rfl, arranged⟩ := described
  obtain ⟨named, read⟩ := arranged.exists_namedMembers?
  obtain ⟨opening, -, openFound, openText⟩ := arranged.field? read "open" (by decide) rfl
  obtain ⟨closing, -, closeFound, closeText⟩ := arranged.field? read "close" (by decide) rfl
  rw [brackets?, read]
  simp only [openFound, closeFound, ofBrackets?, character?_of_text? openText,
    character?_of_text? closeText]

end Json.Source

namespace Dialect

open Json.Source

variable {d : Dialect} {members : List (List Json.Piece × Source)}

theorem optionalText?_of_described {value : Source} (described : d.SchemaDescribed value) :
    optionalText? (some value) = some d.defaultSchema := by
  unfold SchemaDescribed at described
  split at described
  · next schema eq => rw [optionalText?_of_text? described, eq]
  · next eq => rw [described, eq]; rfl

/-- A dialect is read from its settings, with the default schema or without it. -/
theorem dialect?_of_arranged {named : List (String × Source)} {schema : Option Source}
    {all : List (String × (Source → Prop))} (arranged : Arranges all fieldNames members)
    (settings : ∀ field ∈ d.fields, all.filter (·.1 == field.1) = [field])
    (read : namedMembers? members = some named)
    (found : optionalField? "default_schema" named = some schema)
    (text : optionalText? schema = some d.defaultSchema) :
    Source.dialect? (.object members) = some d := by
  simp only [fields, List.forall_mem_cons] at settings
  obtain ⟨kind, bindPrefix, brackets, listLimit, -⟩ := settings
  obtain ⟨_, -, kindFound, kind⟩ := arranged.field? read "kind" (by decide) kind
  obtain ⟨_, -, prefixFound, bindPrefix⟩ :=
    arranged.field? read "bind_prefix" (by decide) bindPrefix
  obtain ⟨_, -, bracketFound, brackets⟩ := arranged.field? read "bracket" (by decide) brackets
  obtain ⟨_, -, limitFound, listLimit⟩ :=
    arranged.field? read "in_clause_max_size" (by decide) listLimit
  rw [Source.dialect?, read]
  simp only [kindFound, prefixFound, bracketFound, limitFound, found, ofFields?, text,
    kind?_of_text? kind, character?_of_text? bindPrefix, brackets?_of_described brackets,
    word?_of_natural? listLimit]

theorem dialect?_of_described (described : d.Described members) :
    Source.dialect? (.object members) = some d := by
  rcases described with arranged | ⟨none, arranged⟩
  · obtain ⟨named, read⟩ := arranged.exists_namedMembers?
    obtain ⟨value, found, -, schema⟩ := arranged.field? read "default_schema" (by decide) rfl
    refine dialect?_of_arranged arranged ?_ read found (optionalText?_of_described schema)
    simp only [fields, List.forall_mem_cons]
    exact ⟨rfl, rfl, rfl, rfl, List.forall_mem_nil _⟩
  · obtain ⟨named, read⟩ := arranged.exists_namedMembers?
    have found := arranged.optionalField?_absent read "default_schema" (by decide) rfl
    refine dialect?_of_arranged arranged ?_ read found (none ▸ rfl)
    simp only [fields, List.forall_mem_cons]
    exact ⟨rfl, rfl, rfl, rfl, List.forall_mem_nil _⟩

/-- The object that is written describes the dialect. -/
theorem toJson_described (d : Dialect) :
    ∃ members, d.toJson.source = .object members ∧ d.Described members := by
  have brackets : d.brackets.Described (Json.object
      [("open", .string d.brackets.opening.toString),
        ("close", .string d.brackets.closing.toString)]).source := by
    refine ⟨_, rfl, Arranges.of_fields ?_⟩
    exact .cons ⟨called_piecesOf _ _, Json.text?_source _⟩
      (.cons ⟨called_piecesOf _ _, Json.text?_source _⟩ .nil)
  refine ⟨_, rfl, .inl (Arranges.of_fields ?_)⟩
  refine .cons ⟨called_piecesOf _ _, Json.text?_source _⟩ <|
    .cons ⟨called_piecesOf _ _, Json.text?_source _⟩ <|
    .cons ⟨called_piecesOf _ _, brackets⟩ <|
    .cons ⟨called_piecesOf _ _, Json.natural?_source _⟩ <|
    .cons ⟨called_piecesOf _ _, ?_⟩ .nil
  unfold SchemaDescribed
  cases d.defaultSchema with
  | some schema => exact Json.text?_source schema
  | none => rfl

/-! ## Reading the text -/

/-- The check passes a dialect as it is. -/
theorem validate_eq_ok_iff {v : Dialect} : d.validate = .ok v ↔ v = d ∧ 1 ≤ d.listLimit := by
  have positive : 1 ≤ d.listLimit ↔ d.listLimit ≠ 0 := by
    rw [UInt64.le_iff_toNat_le, ne_eq, ← UInt64.toNat_inj]
    exact Nat.one_le_iff_ne_zero
  unfold validate
  split
  · next zero => simp [zero]
  · next some => simp [positive, some, eq_comm]

/-- The text that is written for a dialect spells an object that describes it, and any text that
spells such an object is read as the dialect: whatever the order of its members, the members with
other names and the spelling of their values. The dialect that is read passes its check, as it is,
exactly if an `in` test may take a value. -/
theorem ofText?_of_described (d : Dialect) :
    (∃ members, (Source.object members).Spelled d.toJson.chars ∧ d.Described members) ∧
      (∀ members cs, d.Described members → (Source.object members).Spelled cs →
        ofText? (String.ofList cs) = some d) ∧
      ofText? d.toJson.text = some d ∧
      ∀ v, d.validate = .ok v ↔ v = d ∧ 1 ≤ d.listLimit := by
  have reads (members : List (List Json.Piece × Source)) (cs : List Char)
      (described : d.Described members) (spelled : (Source.object members).Spelled cs) :
      ofText? (String.ofList cs) = some d := by
    rw [ofText?, String.toList_ofList, read?_eq_some_iff.2 spelled, Option.bind_some,
      dialect?_of_described described]
  obtain ⟨members, source, described⟩ := d.toJson_described
  have spelled := source ▸ d.toJson.source_spelled
  exact ⟨⟨members, spelled, described⟩, reads, reads members _ described spelled,
    fun _ => validate_eq_ok_iff⟩

end Dialect

end BoundSql
