import BoundSql.Catalog
import BoundSql.Declaration.Attribute

/-!
# Declarations of record types

A record type is declared as a structure with named fields, and attributes that say how it is
stored. A declaration describes a table: one column for each field in order, skipped fields as
unmapped ones. Without other names the table has the type's name as it is printed, and a member its
field's name without the mark of a raw identifier. Faults are found in order: generic parameters,
the shape of the type, the attributes of the structure, and then the fields one after the other.
-/

namespace BoundSql

namespace Declaration

inductive Shape
  | record
  | tuple
  | unit
  | enumeration
  | union
deriving DecidableEq, Repr, Inhabited

structure Field where
  name : Identifier
  type : FieldType
  attributes : List Attribute

end Declaration

structure Declaration where
  name : Declaration.Identifier
  attributes : List Declaration.Attribute
  generic : Bool
  shape : Declaration.Shape
  fields : List Declaration.Field

namespace Declaration

/-! ## Describing -/

def Field.draft (f : Field) : Except DeclarationError ColumnDraft :=
  match mergeAttributes FieldArguments.parse FieldArguments.merge {} f.attributes with
  | .error e => .error e
  | .ok a =>
    let (nullable, type) := f.type.optional
    .ok {
      member := a.member.getD f.name.name
      memberType := type.memberType
      name := a.column
      order := a.order
      ambient := a.ambient
      primaryKey := a.isId
      nullable
      mapped := !a.skip
      autoIncrement := a.identity
    }

/-- The columns of fields, up to the first that is at fault. -/
def columnDrafts : List Field → Except DeclarationError (List ColumnDraft)
  | [] => .ok []
  | f :: rest =>
    match f.draft with
    | .error e => .error e
    | .ok column =>
      match columnDrafts rest with
      | .error e => .error e
      | .ok columns => .ok (column :: columns)

def draft (d : Declaration) : Except DeclarationError TableDraft :=
  if d.generic then .error .generic
  else
    match d.shape with
    | .enumeration | .union => .error .notStructure
    | .tuple | .unit => .error .unnamedFields
    | .record =>
      match mergeAttributes TableArguments.parse TableArguments.merge {} d.attributes with
      | .error e => .error e
      | .ok a =>
        match columnDrafts d.fields with
        | .error e => .error e
        | .ok columns => .ok { name := a.table.getD d.name.text, schema := a.schema, columns }

/-- The entity of a declared type. Its identity is given to it from outside and plays no part. -/
def entity (d : Declaration) (id : TypeId := default) : Except DeclarationError Entity :=
  match d.draft with
  | .error e => .error e
  | .ok draft => .ok (Entity.ofDraft id d.name.text draft)

/-! ## Reading -/

/-- A field as its parts are written. -/
structure FieldParts where
  /-- The name, with a visibility in front or not. -/
  name : String
  type : String
  attributes : List String := []
deriving Repr, Inhabited

/-- A declaration as its parts are written. -/
structure Parts where
  name : String
  attributes : List String := []
  generics : String := ""
  shape : Shape := .record
  fields : List FieldParts := []
deriving Repr, Inhabited

def readAttributes? (texts : List String) : Option (List Attribute) :=
  (tokens? false ("\n".intercalate texts)).bind Attribute.ofTokens?

/-- The name of a type: one identifier. -/
def readName? (s : String) : Option Identifier :=
  match tokens? false s with
  | some [.atom (.identifier raw name)] => some ⟨raw, name⟩
  | _ => none

/-- The name of a field behind its visibility. -/
def readFieldName? (s : String) : Option Identifier :=
  match tokens? false s with
  | some [.atom (.identifier raw name)] => some ⟨raw, name⟩
  | some [.atom (.identifier false "pub"), .atom (.identifier raw name)] => some ⟨raw, name⟩
  | some [.atom (.identifier false "pub"), .group .parenthesis _, .atom (.identifier raw name)] =>
    some ⟨raw, name⟩
  | _ => none

/-- Whether tokens are the conditions on types that may follow a declaration's head, or none. -/
def isWhereClause : List Token → Bool
  | [] | .atom (.identifier false "where") :: _ => true
  | _ => false

/-- Whether generic parameters stand between angle brackets. -/
def readGenerics? (s : String) : Option Bool :=
  match tokens? true s with
  | some (.group .angle parameters :: rest) =>
    if isWhereClause rest then some !parameters.isEmpty else none
  | some tokens => if isWhereClause tokens then some false else none
  | none => none

def FieldParts.read? (f : FieldParts) : Option Field :=
  match readFieldName? f.name, FieldType.read? f.type, readAttributes? f.attributes with
  | some name, some type, some attributes => some ⟨name, type, attributes⟩
  | _, _, _ => none

def readFields? : List FieldParts → Option (List Field)
  | [] => some []
  | f :: rest =>
    match f.read?, readFields? rest with
    | some field, some fields => some (field :: fields)
    | _, _ => none

/-- A declaration from its parts, if each of them keeps to the syntax. Only the fields of a
structure with named fields are looked at. -/
def Parts.read? (t : Parts) : Option Declaration :=
  let fields? := if t.shape = .record then readFields? t.fields else some []
  match readName? t.name, readAttributes? t.attributes, readGenerics? t.generics, fields? with
  | some name, some attributes, some generic, some fields =>
    some ⟨name, attributes, generic, t.shape, fields⟩
  | _, _, _, _ => none

end Declaration

end BoundSql
