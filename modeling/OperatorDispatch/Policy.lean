import OperatorDispatch.Selector

/-!
# Fallback policies

What an operator does where the left operand has no handler for it.  The
policy depends on the category alone and has two parts: one for an operand
that could carry handlers, and one for a primitive, which cannot.
-/

namespace OperatorDispatch

/-- What happens in place of a handler. -/
inductive Fallback where
  /-- The operator is refused. -/
  | refuse
  /-- The answer is the configured sentinel for not-a-number. -/
  | sentinel
  /-- Distinct values are unequal. -/
  | unequal
deriving DecidableEq, Repr

namespace Fallback

def name : Fallback → String
  | .refuse => "throw"
  | .sentinel => "return_nan"
  | .unequal => "false_by_identity"

end Fallback

namespace Category

/-- The fallback where the left operand could carry handlers and has none. -/
def fallback : Category → Fallback
  | .equality => .unequal
  | _ => .refuse

/-- The fallback where the left operand is a primitive that the native
operation does not take, or that meets an operand with handlers of its own. -/
def primitiveFallback : Category → Fallback
  | .equality => .unequal
  | .arithmeticBinary | .bitwiseBinary | .shift => .sentinel
  | .relational | .unaryArithmetic | .bitwiseUnary => .refuse

/-- How the refusals of a category call the operator. -/
def operatorWord : Category → String
  | .unaryArithmetic => "unary operator"
  | .bitwiseBinary | .bitwiseUnary => "bitwise operator"
  | .shift => "shifting operator"
  | .equality | .relational | .arithmeticBinary => "operator"

/-- The refusal of an operator, given how the operator is written in it. -/
def refusal (c : Category) (literal : String) : String :=
  "No behavior defined for " ++ c.operatorWord ++ " '" ++ literal ++ "'"

/-- The refusal with a slot in place of the operator. -/
def refusalTemplate (c : Category) : String :=
  c.refusal "\x7boperator\x7d"

end Category

end OperatorDispatch
