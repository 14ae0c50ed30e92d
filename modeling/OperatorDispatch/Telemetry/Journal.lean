import OperatorDispatch.Policy

/-!
# The journal

The rows that the engine logs: a handler registered, a type sealed, a fallback
applied.  A row is kept as the event it reports; `logger` and `message` are
its written form.
-/

namespace OperatorDispatch

inductive LogRow where
  | registered (selector : Selector) (owner : String)
  | sealedType (name : String) (handlers : Nat)
  | fallback (literal typeName : String) (policy : Fallback)
deriving DecidableEq

namespace LogRow

/-- The part of the engine that wrote the row. -/
def logger : LogRow → String
  | .registered .. => "odre.registry"
  | .sealedType .. => "odre.values"
  | .fallback .. => "odre.dispatch"

def level : String := "DEBUG"

def message : LogRow → String
  | .registered s owner => "registered " ++ s.identifier ++ " on " ++ owner
  | .sealedType name handlers =>
    "sealed type " ++ name ++ " with " ++ toString handlers ++ " handler(s)"
  | .fallback literal typeName policy =>
    "no handler for " ++ literal ++ " on " ++ typeName ++ ", applying " ++ policy.name

end LogRow

end OperatorDispatch
