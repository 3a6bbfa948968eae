/-!
# Why a declaration is refused

One cause per constructor, and the wording of each in `message`. Where a literal is missing, the
wording tells the end of the arguments from a token that is none.
-/

namespace BoundSql.Declaration

/-- Why a declaration describes no table. -/
inductive DeclarationError
  | generic
  | notStructure
  | unnamedFields
  | missingArguments
  | assignedArguments
  | expectedEquals
  | expectedComma
  | expectedIdentifier
  /-- A reserved word stands where a key should. -/
  | keyword (word : String)
  | expectedText (atEnd : Bool)
  | expectedInteger (atEnd : Bool)
  | orderTooLarge
  | orderTooSmall
  | unknownTableKey
  | unknownFieldKey
deriving DecidableEq, Repr, Inhabited

namespace DeclarationError

/-- What was expected, and whether there was anything at all in its place. -/
def missing (atEnd : Bool) (expected : String) : String :=
  (if atEnd then "unexpected end of input, " else "") ++ expected

/-- The wording of an error. -/
def message : DeclarationError → String
  | .generic => "Entity cannot be derived for generic structs"
  | .notStructure => "Entity can only be derived for structs"
  | .unnamedFields => "Entity can only be derived for structs with named fields"
  | .missingArguments => "expected attribute arguments in parentheses: #[orm(...)]"
  | .assignedArguments => "expected parentheses: #[orm(...)]"
  | .expectedEquals => "expected \x60=\x60"
  | .expectedComma => "expected \x60,\x60"
  | .expectedIdentifier => "expected identifier"
  | .keyword word => "expected identifier, found keyword \x60" ++ word ++ "\x60"
  | .expectedText atEnd => missing atEnd "expected string literal"
  | .expectedInteger atEnd => missing atEnd "expected integer literal"
  | .orderTooLarge => "number too large to fit in target type"
  | .orderTooSmall => "number too small to fit in target type"
  | .unknownTableKey => "expected \x60table\x60 or \x60schema\x60"
  | .unknownFieldKey =>
    "unknown orm attribute; expected one of \x60id\x60, \x60skip\x60, \x60identity\x60, " ++
      "\x60no_identity\x60, \x60order\x60, \x60column\x60, \x60member\x60, \x60ambient\x60"

end DeclarationError

end BoundSql.Declaration
