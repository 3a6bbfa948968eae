import BoundSql.Declaration.Path
import BoundSql.Table

/-!
# The types of fields

What a declaration's field type says about a column. Only the shape of the type counts: a type is a
path, whose last name and arguments matter, a reference to a type, or anything else. A path is
judged by its last name, so a type may be written with or without its module.
-/

namespace BoundSql.Declaration

/-- A field's type. Of a path the last name and its generic arguments are kept, and of the arguments
those that are types; any other is `none`. -/
inductive FieldType
  | path (name : String) (arguments : List (Option FieldType))
  | reference (target : FieldType)
  | other
deriving Repr

/-! ## Reading -/

def dropLifetime : List Token → List Token
  | .atom .lifetime :: rest => rest
  | tokens => tokens

def dropMutable : List Token → List Token
  | .atom (.identifier false "mut") :: rest => rest
  | tokens => tokens

/-- Whether a generic argument is a type, and not a lifetime, a value or a binding. A lifetime in
front of a plus sign is the first bound of a type. -/
def isTypeArgument : List Token → Bool
  | .atom .lifetime :: .atom (.punctuation '+') :: _ => true
  | .atom .lifetime :: _ => false
  | .atom (.text _) :: _ | .atom (.integer _) :: _ | .atom .literal :: _ => false
  | .atom (.identifier false "true") :: _ | .atom (.identifier false "false") :: _ => false
  | .atom (.punctuation '-') :: _ => false
  | .group .brace _ :: _ => false
  | tokens => !isBinding tokens

def isComma : Token → Bool
  | .atom (.punctuation ',') => true
  | _ => false

/-- A comma behind the last argument separates nothing. -/
def dropTrailingComma (tokens : List Token) : List Token :=
  if tokens.getLast?.any isComma then tokens.dropLast else tokens

/-- The generic arguments between angle brackets. -/
def genericArguments (content : List Token) : List (List Token) :=
  let body := dropTrailingComma content
  if body.isEmpty then [] else body.splitOnP isComma

theorem sizeOf_dropLast_le (tokens : List Token) : sizeOf tokens.dropLast ≤ sizeOf tokens := by
  induction tokens with
  | nil => simp
  | cons t rest ih =>
    cases rest with
    | nil => simp
    | cons u rest => simp_all

theorem sizeOf_dropTrailingComma_le (tokens : List Token) :
    sizeOf (dropTrailingComma tokens) ≤ sizeOf tokens := by
  unfold dropTrailingComma
  split
  · exact sizeOf_dropLast_le tokens
  · exact Nat.le_refl _

theorem sizeOf_splitOnP_le {p : Token → Bool} {tokens part : List Token}
    (mem : part ∈ tokens.splitOnP p) : sizeOf part ≤ sizeOf tokens := by
  induction tokens generalizing part with
  | nil => simp_all
  | cons t rest ih =>
    obtain ⟨first, others, parts⟩ := List.exists_cons_of_ne_nil (List.splitOnP_ne_nil p rest)
    rw [List.splitOnP_cons_eq_if_modifyHead, parts, List.modifyHead_cons] at mem
    rw [parts] at ih
    split at mem
    · rcases List.mem_cons.1 mem with rfl | later
      · simp only [List.nil.sizeOf_spec, List.cons.sizeOf_spec]
        omega
      · have := ih later
        simp only [List.cons.sizeOf_spec]
        omega
    · rcases List.mem_cons.1 mem with rfl | later
      · have := ih (List.mem_cons_self : first ∈ first :: others)
        simp only [List.cons.sizeOf_spec]
        omega
      · have := ih (List.mem_cons_of_mem _ later)
        simp only [List.cons.sizeOf_spec]
        omega

theorem sizeOf_genericArguments_le {content body : List Token}
    (mem : body ∈ genericArguments content) : sizeOf body ≤ sizeOf content := by
  simp only [genericArguments] at mem
  split at mem
  · cases mem
  · exact Nat.le_trans (sizeOf_splitOnP_le mem) (sizeOf_dropTrailingComma_le content)

theorem sizeOf_referent_le (tokens : List Token) :
    sizeOf (dropMutable (dropLifetime tokens)) ≤ sizeOf tokens := by
  unfold dropMutable dropLifetime
  grind

def FieldType.ofTokens (tokens : List Token) : FieldType :=
  match tokens with
  | .atom (.punctuation '&') :: rest => .reference (ofTokens (dropMutable (dropLifetime rest)))
  | tokens =>
    match h : lastSegment? tokens with
    | some ⟨name, some content⟩ =>
      .path name ((genericArguments content).attach.map fun ⟨body, mem⟩ =>
        have := sizeOf_arguments_lt h
        have := sizeOf_genericArguments_le mem
        if isTypeArgument body then some (ofTokens body) else none)
    | some ⟨name, none⟩ => .path name []
    | none => .other
termination_by sizeOf tokens
decreasing_by
  · have := sizeOf_referent_le rest
    simp
    omega
  · omega

/-- The type that a text spells, if its delimiters match. -/
def FieldType.read? (s : String) : Option FieldType :=
  (tokens? true s).map FieldType.ofTokens

/-! ## Judging -/

namespace FieldType

def name? : FieldType → Option String
  | .path name _ => some name
  | _ => none

/-- The argument of a path with a given last name, if it has just one and that is a type. -/
def argumentOf? (wrapper : String) : FieldType → Option FieldType
  | .path name [some argument] => if name = wrapper then some argument else none
  | _ => none

def namedMemberType (name : String) : MemberType :=
  if name = "bool" then .bool
  else if name = "i8" then .i8
  else if name = "i16" then .i16
  else if name = "i32" then .i32
  else if name = "i64" ∨ name = "isize" then .i64
  else if name = "u8" then .u8
  else if name = "u16" then .u16
  else if name = "u32" then .u32
  else if name = "u64" ∨ name = "usize" then .u64
  else if name = "f32" then .f32
  else if name = "f64" then .f64
  else if name = "Decimal" then .decimal
  else if name = "String" ∨ name = "str" ∨ name = "char" then .text
  else if name = "NaiveDate" then .date
  else if name = "NaiveTime" then .time
  else if name = "NaiveDateTime" then .dateTime
  else if name = "DateTime" then .timestamp
  else if name = "Uuid" then .uuid
  else if name = "Value" ∨ name = "Json" then .json
  else .other

/-- The member type of a type: a reference counts as its target, and a vector of bytes as bytes. -/
def memberType : FieldType → MemberType
  | .reference target => target.memberType
  | .path name arguments =>
    match argumentOf? "Vec" (.path name arguments) with
    | some item => if item.name? = some "u8" then .bytes else .other
    | none => namedMemberType name
  | .other => .other

/-- Whether a column of this type may be missing, and the type of what it holds otherwise: an
optional type is looked into once. -/
def optional (t : FieldType) : Bool × FieldType :=
  match t.argumentOf? "Option" with
  | some content => (true, content)
  | none => (false, t)

end FieldType

end BoundSql.Declaration
