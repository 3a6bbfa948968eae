import BoundSql.Dialect
import BoundSql.Json.Reader

/-!
# Dialects as configuration

A dialect is written as a JSON object and read from one. Reading takes the members in any order and
passes over unknown ones, whatever they hold; each known member stands once at most, and only the
default schema may be left out. A record may also be given as the array of its fields, and a kind as
the object that holds nothing but `null` under its name.
-/

namespace BoundSql

open Json (Source)

def Dialect.toJson (d : Dialect) : Json :=
  .object
    [ ("kind", .string d.kind.configName),
      ("bind_prefix", .string d.bindPrefix.toString),
      ("bracket",
        .object
          [ ("open", .string d.brackets.opening.toString),
            ("close", .string d.brackets.closing.toString) ]),
      ("in_clause_max_size", .int d.listLimit.toNat),
      ("default_schema",
        match d.defaultSchema with
        | some schema => .string schema
        | none => .null) ]

namespace Json.Source

/-- The members of an object with their names, if all names stand for a text. -/
def namedMembers? : List (List Piece × Source) → Option (List (String × Source))
  | [] => some []
  | (name, value) :: rest =>
    match decode? name, namedMembers? rest with
    | some name, some rest => some ((String.ofList name, value) :: rest)
    | _, _ => none

/-- The value of a field that may be left out: `none` if it stands twice. -/
def optionalField? (name : String) (members : List (String × Source)) : Option (Option Source) :=
  match members.filter fun m => m.1 == name with
  | [] => some none
  | [(_, value)] => some (some value)
  | _ => none

/-- The value of a field that has to stand once. -/
def field? (name : String) (members : List (String × Source)) : Option Source :=
  match optionalField? name members with
  | some (some value) => some value
  | _ => none

def character? (source : Source) : Option Char :=
  match source.text?.map String.toList with
  | some [c] => some c
  | _ => none

def word? (source : Source) : Option UInt64 :=
  match source.natural? with
  | some n => if n < UInt64.size then some (UInt64.ofNat n) else none
  | none => none

/-- A text, or its absence: `null` or no value at all. -/
def optionalText? : Option Source → Option (Option String)
  | none | some .null => some none
  | some source => source.text?.map some

/-- A kind of database: its name, or an object with `null` under its name alone. -/
def kind? : Source → Option DatabaseKind
  | .object [(name, .null)] =>
    (decode? name).bind fun name => DatabaseKind.ofConfigName? (String.ofList name)
  | source => source.text?.bind DatabaseKind.ofConfigName?

def ofBrackets? (opening closing : Source) : Option Brackets :=
  match opening.character?, closing.character? with
  | some opening, some closing => some ⟨opening, closing⟩
  | _, _ => none

/-- Brackets, as an object or as an array. -/
def brackets? : Source → Option Brackets
  | .object members =>
    match namedMembers? members with
    | some members =>
      match field? "open" members, field? "close" members with
      | some opening, some closing => ofBrackets? opening closing
      | _, _ => none
    | none => none
  | .array [opening, closing] => ofBrackets? opening closing
  | _ => none

def ofFields? (kind bindPrefix brackets listLimit : Source) (defaultSchema : Option Source) :
    Option Dialect :=
  match kind.kind?, bindPrefix.character?, brackets.brackets?, listLimit.word?,
    optionalText? defaultSchema with
  | some kind, some bindPrefix, some brackets, some listLimit, some defaultSchema =>
    some ⟨kind, bindPrefix, brackets, listLimit, defaultSchema⟩
  | _, _, _, _, _ => none

/-- A dialect, as an object or as an array. -/
def dialect? : Source → Option Dialect
  | .object members =>
    match namedMembers? members with
    | some members =>
      match field? "kind" members, field? "bind_prefix" members, field? "bracket" members,
        field? "in_clause_max_size" members, optionalField? "default_schema" members with
      | some kind, some bindPrefix, some brackets, some listLimit, some defaultSchema =>
        ofFields? kind bindPrefix brackets listLimit defaultSchema
      | _, _, _, _, _ => none
    | none => none
  | .array [kind, bindPrefix, brackets, listLimit] =>
    ofFields? kind bindPrefix brackets listLimit none
  | .array [kind, bindPrefix, brackets, listLimit, defaultSchema] =>
    ofFields? kind bindPrefix brackets listLimit (some defaultSchema)
  | _ => none

end Json.Source

/-- The dialect that a configuration text describes. -/
def Dialect.ofText? (s : String) : Option Dialect :=
  (Source.read? s.toList).bind Source.dialect?

end BoundSql
