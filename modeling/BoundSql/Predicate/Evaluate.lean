import BoundSql.Error
import BoundSql.Predicate

/-!
# The value of an operand

Constants, computed values and the elements of lists that they yield have a value; whatever depends
on the record has none. The only effect of evaluation is the log of the producers asked.
-/

namespace BoundSql

/-- A computation that may ask producers. Calls stay logged when it fails. -/
abbrev Asking := ExceptT StatementError (StateM CallLog)

/-- Ask a producer: the call is logged, whatever comes of it. -/
def Producer.ask (producer : Producer) : Asking Value := do
  let log ← get
  set (log ++ [producer.label])
  match producer.outcome log with
  | .ok value => pure value
  | .error reason => throw (.evaluation reason)

def Value.element (index : Nat) : Value → Except StatementError Value
  | .list items =>
    match items[index]? with
    | some item => .ok item
    | none =>
      .error (.evaluation ("index " ++ toString index ++ " out of range for list of " ++
        toString items.length ++ " values"))
  | other => .error (.evaluation ("cannot index into a " ++ other.kind ++ " value"))

namespace Predicate

def evaluate : Predicate → Asking Value
  | .literal value => pure value
  | .computed producer => producer.ask
  | .element source index => do
    let value ← source.evaluate
    match value.element index with
    | .ok item => pure item
    | .error e => throw e
  | .column member => throw (.evaluation ("member '" ++ member ++ "' cannot be used as a value"))
  | other => throw (.evaluation (other.kind ++ " cannot be used as a value"))

end Predicate

end BoundSql
