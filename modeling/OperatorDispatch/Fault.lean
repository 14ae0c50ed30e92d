import OperatorDispatch.Native.Fault
import OperatorDispatch.Operator
import OperatorDispatch.Policy
import OperatorDispatch.Expression

/-!
# Faults

What can be raised, by cause, and the text of each.  The causes are an
operator without behaviour, a refused registration, a malformed application, a
native operation that fails, a misused container, a bad setting, and whatever
an expression raises on purpose.

One fault tells of a value, the key that is not there, and some keys cannot be
written out.  Such a fault can be raised, but whoever asks for its text gets
the fault of writing it instead (`Fault.told`).
-/

namespace OperatorDispatch

/-- Why a registry refuses a handler. -/
inductive OverrideRefusal where
  | notCallable
  | equalsMissing
  | alreadyRegistered
deriving DecidableEq, Repr

def OverrideRefusal.reason : OverrideRefusal → String
  | .notCallable => "handler is not callable"
  | .equalsMissing => "'strictEquals' requires 'equals' on the same registry"
  | .alreadyRegistered => "selector already registered"

/-- Why an operator application is malformed. -/
inductive Malformation where
  | unknownToken
  | unknownPosition (text : String)
  | needsPosition
  | noPostfixForm
  | notCompound
deriving DecidableEq, Repr

/-- What is added to the message about a malformed application. -/
def Malformation.detail : Malformation → String
  | .unknownToken => ""
  | .unknownPosition text => ": unknown position '" ++ text ++ "'"
  | .needsPosition => ": needs a prefix or postfix position"
  | .noPostfixForm => ": has no postfix form"
  | .notCompound => ": not a compound assignment"

/-- A missing key as its fault tells it. -/
inductive KeyText where
  | legible (text : String)
  /-- Writing the key out fails. -/
  | illegible (why : NativeFault)
deriving DecidableEq

inductive Fault where
  /-- No behaviour for an operator of a category on a type. -/
  | operatorNotDefined (category : Category) (literal typeName : String)
  | invalidOverride (selector : Selector) (owner : String) (why : OverrideRefusal)
  | registrySealed (owner : String) (selector : Selector)
  | unknownOperator (literal : String) (arity : Arity) (why : Malformation)
  | native (fault : NativeFault)
  /-- A write to a read-only instance. -/
  | readOnly (typeName : String)
  /-- Handlers for a value that is no instance. -/
  | notAttachable (kind : String)
  | missingKey (key : KeyText)
  | emptyMapping
  | indexOutOfRange (writing : Bool)
  | unknownSelector (name : String)
  | unknownAttribute (name : String)
  | unknownCategory (name : String)
  | operatorExists (literal : String)
  | malformedInteger (text : String)
  | integerTooLong (digits : Nat)
  | limitNotPositive
  | limitTooLarge
  | negativeIncrement
  | duplicateSeries
  | unboundVariable (name : String)
  /-- A field under the name that a type's constructor keeps for itself. -/
  | reservedField
  /-- An operand that a command cannot use. -/
  | unusable
  /-- Raised on purpose. -/
  | raised (kind : RaisedKind) (text : String)
deriving DecidableEq

namespace Incompatibility

def message : Incompatibility → String
  | .operandsNotNumbers => "operands are not numbers"
  | .operandNotNumber => "operand is not a number"
  | .operandNotIntegral => "operand is not an integral number"
  | .operandNotInteger => "operand is not an integer"

end Incompatibility

namespace NativeFault

def message? : NativeFault → Option String
  | .incompatible why => some why.message
  | .integerTooLarge => some "int too large to convert to float"
  | .infiniteDividend => some "math domain error"
  | .tooManyDigits | .endlessText => none
  | .noOperation s => some s.identifier

end NativeFault

namespace Fault

/-- The text of a fault.  A key that cannot be written out leaves none, and
three other faults have none of their own. -/
def message? : Fault → Option String
  | .operatorNotDefined category literal _ => some (category.refusal literal)
  | .invalidOverride selector owner why =>
    some ("Cannot register '" ++ selector.identifier ++ "' on " ++ owner ++ ": " ++ why.reason)
  | .registrySealed owner selector =>
    some ("Type '" ++ owner ++ "' is already defined; cannot add '" ++ selector.identifier ++ "'")
  | .unknownOperator literal arity why =>
    some ("Unknown " ++ arity.name ++ " operator '" ++ literal ++ "'" ++ why.detail)
  | .native fault => fault.message?
  | .readOnly typeName => some ("snapshot of '" ++ typeName ++ "' is read-only")
  | .notAttachable kind =>
    some ("cannot attach operator handlers to a value of type " ++ kind)
  | .missingKey (.legible text) => some text
  | .missingKey (.illegible _) => none
  | .emptyMapping => some ""
  | .indexOutOfRange writing =>
    some (if writing then "list assignment index out of range" else "list index out of range")
  | .unknownSelector name => some ("Unknown operator selector '" ++ name ++ "'")
  | .unknownAttribute name => some name
  | .unknownCategory name => some (quoted name ++ " is not a valid OperatorCategory")
  | .operatorExists literal => some ("Operator '" ++ literal ++ "' already registered")
  | .malformedInteger text =>
    some ("invalid literal for int() with base 10: " ++
      String.ofList ((quoted text).toList.take 200))
  | .integerTooLong digits =>
    some ("Exceeds the limit (" ++ toString digitLimit ++
      " digits) for integer string conversion: value has " ++ toString digits ++
      " digits; use sys.set_int_max_str_digits() to increase the limit")
  | .limitNotPositive => some "ledger limit must be positive"
  | .limitTooLarge => some "Python int too large to convert to C ssize_t"
  | .negativeIncrement =>
    some "Counters can only be incremented by non-negative amounts."
  | .duplicateSeries => none
  | .unboundVariable name => some ("unbound variable " ++ name)
  | .reservedField => some "TypeDefinition.new() got multiple values for argument 'self'"
  | .unusable => some "an operand of this kind cannot be used here"
  | .raised _ text => some text

/-- What is raised in the end where the text of a fault has been asked for. -/
def told : Fault → Fault
  | .missingKey (.illegible why) => .native why
  | fault => fault

end Fault

end OperatorDispatch
