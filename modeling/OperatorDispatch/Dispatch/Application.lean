import OperatorDispatch.Fault
import OperatorDispatch.Value

/-!
# Applications of operators

A host hands over a token, for a unary one a position, and the operands.
`Application.binary` and `Application.unary` refuse what is malformed before
anything happens; what they let through is well formed, and how the operator
is used is settled.
-/

namespace OperatorDispatch

/-- How a well-formed application uses its operator. -/
inductive Form where
  /-- Two operands; the answer is negated where the operator says so. -/
  | binary (lhs rhs : Value)
  /-- One operand, left unchanged. -/
  | unary (operand : Value)
  /-- A step in place.  Behind its operand the token yields what was there
  before. -/
  | step (operand : Value) (after : Bool)

/-- A well-formed application of an operator. -/
structure Application where
  operator : Operator
  form : Form

namespace OperatorTables

/-- The operator of a token, or the refusal of an unknown one. -/
def lookup (t : OperatorTables) (arity : Arity) (literal : String) : Except Fault Operator :=
  match t.find? arity literal with
  | some o => .ok o
  | none => .error (.unknownOperator literal arity .unknownToken)

end OperatorTables

/-- The position that a text names, for an error about a token. -/
def readPosition (literal : String) (position : Option String) : Except Fault Position :=
  match Position.ofText? position with
  | some p => .ok p
  | none => .error (.unknownOperator literal .unary (.unknownPosition (position.getD "")))

namespace Application

def binary (t : OperatorTables) (literal : String) (lhs rhs : Value) :
    Except Fault Application :=
  match t.lookup .binary literal with
  | .ok o => .ok ⟨o, .binary lhs rhs⟩
  | .error fault => .error fault

/-- A unary operator at a position.  A step needs one of two positions, and
every other operator stands before its operand. -/
def unaryAt (o : Operator) (literal : String) (position : Position) (operand : Value) :
    Except Fault Application :=
  match o.isMutating, position with
  | true, .unspecified => .error (.unknownOperator literal .unary .needsPosition)
  | true, .before => .ok ⟨o, .step operand false⟩
  | true, .after => .ok ⟨o, .step operand true⟩
  | false, .after => .error (.unknownOperator literal .unary .noPostfixForm)
  | false, _ => .ok ⟨o, .unary operand⟩

def unary (t : OperatorTables) (literal : String) (position : Option String) (operand : Value) :
    Except Fault Application :=
  match t.lookup .unary literal with
  | .error fault => .error fault
  | .ok o =>
    match readPosition literal position with
    | .error fault => .error fault
    | .ok p => unaryAt o literal p operand

end Application

end OperatorDispatch
