import OperatorDispatch.Engine

/-!
# Slots

A cell is a slot of the host: a variable, a field, an element.  Compound
assignment is a binary dispatch on the content followed by one rebind.  A step
on a slot rebinds it only where the content is a primitive; any other content
is changed in place and stays where it is.
-/

namespace OperatorDispatch
namespace Action

/-- The content of a cell. -/
def cellAt (a : Address) : Action Value := do
  demand .unusable ((← heap).cellAt? a)

def setCell (a : Address) (v : Value) : Action Unit :=
  write a (.cell v)

/-- The binary token behind a compound one. -/
def compoundOperator (literal : String) : Except Fault String :=
  match compoundOperator? literal with
  | some binary => .ok binary
  | none => .error (.unknownOperator literal .binary .notCompound)

/-- `cell op= rhs`. -/
def assign (call : Function → Arguments → Action Value) (engine : Engine) (cell : Address)
    (literal : String) (rhs : Value) : Action Value := do
  let binary ← ofExcept (compoundOperator literal)
  let settings ← settingsOf engine
  let current ← cellAt cell
  let result ← dispatchBinary call settings binary current rhs
  setCell cell result
  return result

/-- A unary dispatch at a position that has been read already. -/
def dispatchAt (call : Function → Arguments → Action Value) (settings : Settings)
    (literal : String) (position : Position) (operand : Value) : Action Value := do
  let o ← ofExcept ((← get).operators.lookup .unary literal)
  let a ← ofExcept (Application.unaryAt o literal position operand)
  apply call settings a

/-- A step on a slot before or after its reading.  The step before is
dispatched for a primitive in both cases. -/
def step (call : Function → Arguments → Action Value) (settings : Settings) (cell : Address)
    (literal : String) (position : Position) : Action Value := do
  match ← cellAt cell with
  | .primitive p =>
    let stepped ← dispatchAt call settings literal .before (.primitive p)
    setCell cell stepped
    return if position = .after then .primitive p else stepped
  | current => dispatchAt call settings literal position current

/-- `op cell` or `cell op`, for an operator that steps. -/
def update (call : Function → Arguments → Action Value) (engine : Engine) (cell : Address)
    (literal : String) (position : Option String) : Action Value := do
  let settings ← settingsOf engine
  match ← ofExcept (readPosition literal position) with
  | .unspecified => raise (.unknownOperator literal .unary .needsPosition)
  | p => step call settings cell literal p

end Action
end OperatorDispatch
