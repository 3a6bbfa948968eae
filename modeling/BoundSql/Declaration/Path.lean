import BoundSql.Declaration.Tree

/-!
# Paths

A path names a type by names with double colons between them. Behind a name may stand generic
arguments between angle brackets, or a function's parameters between parentheses and the arrow with
its result. In front of the first name may stand double colons, or a type between angle brackets
whose associated type the path names.

Of a path only the last name and its generic arguments are kept. Tokens are a path only if nothing
follows the last name: a macro call and a sum of bounds begin like a path and are none.
-/

namespace BoundSql.Declaration

/-- A name of a path, with the tokens between the angle brackets behind it. -/
structure Segment where
  name : String
  arguments : Option (List Token)

/-! ## What stands behind a name -/

/-- The tokens behind double colons that stand between a name and a group. -/
def dropColons : List Token → List Token
  | .atom .doubleColon :: .group d content :: rest => .group d content :: rest
  | tokens => tokens

/-- The generic arguments at the head of some tokens, and the tokens behind them. -/
def takeArguments : List Token → Option (List Token) × List Token
  | .group .angle content :: rest => (some content, rest)
  | tokens => (none, tokens)

def isPlus : Token → Bool
  | .atom (.punctuation '+') => true
  | _ => false

/-- The tokens behind the parameters and the result of a function. The result reaches up to a plus
sign, but double colons behind a result in parentheses go on with the path. -/
def dropSignature : List Token → List Token
  | .group .parenthesis _ :: .atom .arrow :: .group .parenthesis _ :: rest => rest
  | .group .parenthesis _ :: .atom .arrow :: rest => rest.dropWhile (!isPlus ·)
  | .group .parenthesis _ :: rest => rest
  | tokens => tokens

/-- The generic arguments of the name in front of some tokens, and the tokens behind all that
belongs to the name. -/
def takeBehindName (tokens : List Token) : Option (List Token) × List Token :=
  let (arguments, rest) := takeArguments (dropColons tokens)
  (arguments, dropSignature (dropColons rest))

theorem sizeOf_dropColons_le (tokens : List Token) :
    sizeOf (dropColons tokens) ≤ sizeOf tokens := by
  unfold dropColons
  split <;> simp

theorem sizeOf_takeArguments_le (tokens : List Token) :
    sizeOf (takeArguments tokens).2 ≤ sizeOf tokens := by
  unfold takeArguments
  split <;> simp

theorem sizeOf_dropWhile_le (p : Token → Bool) (tokens : List Token) :
    sizeOf (tokens.dropWhile p) ≤ sizeOf tokens := by
  induction tokens with
  | nil => simp
  | cons t rest ih =>
    rw [List.dropWhile_cons]
    split
    · simp only [List.cons.sizeOf_spec]
      omega
    · exact Nat.le_refl _

theorem sizeOf_dropSignature_le (tokens : List Token) :
    sizeOf (dropSignature tokens) ≤ sizeOf tokens := by
  unfold dropSignature
  split
  · simp only [List.cons.sizeOf_spec]
    omega
  · rename_i rest _
    have := sizeOf_dropWhile_le (!isPlus ·) rest
    simp only [List.cons.sizeOf_spec]
    omega
  · simp only [List.cons.sizeOf_spec]
    omega
  · exact Nat.le_refl _

/-- Generic arguments are smaller than the tokens at whose head they stand. -/
theorem sizeOf_takeArguments_lt {tokens content : List Token}
    (h : (takeArguments tokens).1 = some content) : sizeOf content < sizeOf tokens := by
  unfold takeArguments at h
  split at h
  · obtain rfl := Option.some.inj h
    simp only [List.cons.sizeOf_spec, Token.group.sizeOf_spec]
    omega
  · cases h

theorem sizeOf_takeBehindName_le (tokens : List Token) :
    sizeOf (takeBehindName tokens).2 ≤ sizeOf tokens :=
  calc sizeOf (takeBehindName tokens).2
    _ ≤ sizeOf (dropColons (takeArguments (dropColons tokens)).2) := sizeOf_dropSignature_le _
    _ ≤ sizeOf (takeArguments (dropColons tokens)).2 := sizeOf_dropColons_le _
    _ ≤ sizeOf (dropColons tokens) := sizeOf_takeArguments_le _
    _ ≤ sizeOf tokens := sizeOf_dropColons_le _

theorem sizeOf_takeBehindName_lt {tokens content : List Token}
    (h : (takeBehindName tokens).1 = some content) : sizeOf content < sizeOf tokens :=
  Nat.lt_of_lt_of_le (sizeOf_takeArguments_lt h) (sizeOf_dropColons_le tokens)

/-! ## Whole paths -/

/-- The last name of a path that starts with a name. -/
def lastName? : List Token → Option Segment
  | .atom (.identifier raw name) :: rest =>
    match _behind : (takeBehindName rest).2 with
    | [] => some ⟨identifierText raw name, (takeBehindName rest).1⟩
    | .atom .doubleColon :: rest' => lastName? rest'
    | _ => none
  | _ => none
termination_by tokens => sizeOf tokens
decreasing_by
  have := sizeOf_takeBehindName_le rest
  simp_all
  omega

/-- Whether an identifier may start a path: most reserved words start a type of another form. -/
def startsPath (raw : Bool) (name : String) : Bool :=
  raw || !reservedWords.contains name || pathWords.contains name

/-- The last name of the path that some tokens spell. -/
def lastSegment? : List Token → Option Segment
  | .atom .doubleColon :: rest => lastName? rest
  | .group .angle _ :: .atom .doubleColon :: rest => lastName? rest
  | .atom (.identifier raw name) :: rest =>
    if startsPath raw name then lastName? (.atom (.identifier raw name) :: rest) else none
  | _ => none

/-- Whether tokens begin with a name, with or without arguments, and an equals sign or a colon: a
generic argument of this form binds an associated item of the type. -/
def isBinding : List Token → Bool
  | .atom (.identifier _ _) :: rest =>
    match (takeArguments (dropColons rest)).2 with
    | .atom (.punctuation '=') :: _ | .atom (.punctuation ':') :: _ => true
    | _ => false
  | _ => false

theorem sizeOf_lastName_lt {tokens content : List Token} {name : String}
    (h : lastName? tokens = some ⟨name, some content⟩) : sizeOf content < sizeOf tokens := by
  fun_induction lastName? tokens with
  | case1 raw found rest h' =>
    have := sizeOf_takeBehindName_lt (Segment.mk.inj (Option.some.inj h)).2
    simp only [List.cons.sizeOf_spec]
    omega
  | case2 raw found rest rest' h' ih =>
    have := ih h
    have := sizeOf_takeBehindName_le rest
    simp_all
    omega
  | case3 => cases h
  | case4 => cases h

theorem sizeOf_arguments_lt {tokens content : List Token} {name : String}
    (h : lastSegment? tokens = some ⟨name, some content⟩) : sizeOf content < sizeOf tokens := by
  unfold lastSegment? at h
  split at h
  · have := sizeOf_lastName_lt h
    simp only [List.cons.sizeOf_spec]
    omega
  · have := sizeOf_lastName_lt h
    simp only [List.cons.sizeOf_spec]
    omega
  · split at h
    · exact sizeOf_lastName_lt h
    · cases h
  · cases h

end BoundSql.Declaration
