/-!
# What can go wrong with a statement

One cause per constructor, and the wording of each in `message`.
-/

namespace BoundSql

/-- Why a table, a dialect or a step of a statement is refused. -/
inductive StatementError
  /-- A member's description or its use is at fault. -/
  | mapping (member reason : String)
  /-- A predicate has no form in SQL. -/
  | unsupportedPredicate (reason : String)
  /-- An operand has no value. -/
  | evaluation (reason : String)
  /-- A parameter of this name is there already. -/
  | duplicateParameter (name : String)
  /-- A dialect's settings are at fault. -/
  | invalidDialect (reason : String)
  /-- A statement would have no content. -/
  | validation (reason : String)
deriving DecidableEq, Repr, Inhabited

namespace StatementError

/-- The wording of an error. -/
def message : StatementError → String
  | .mapping member reason => "Mapping error on member '" ++ member ++ "': " ++ reason
  | .unsupportedPredicate reason => "Unsupported predicate: " ++ reason
  | .evaluation reason => "Evaluation error: " ++ reason
  | .duplicateParameter name => "Duplicate bind parameter: " ++ name
  | .invalidDialect reason => "Invalid dialect: " ++ reason
  | .validation reason => "Validation error: " ++ reason

def isMapping : StatementError → Bool
  | .mapping .. => true
  | _ => false

def isUnsupportedPredicate : StatementError → Bool
  | .unsupportedPredicate _ => true
  | _ => false

def isEvaluation : StatementError → Bool
  | .evaluation _ => true
  | _ => false

/-- Whether a name was taken already. -/
def isDuplicateParameter : StatementError → Bool
  | .duplicateParameter _ => true
  | _ => false

end StatementError

end BoundSql
