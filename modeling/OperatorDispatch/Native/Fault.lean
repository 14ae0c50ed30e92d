import OperatorDispatch.Selector

/-!
# Faults of native operations

Why a native operation gives no value.  Operands of the wrong kinds are told
apart from the other faults, because dispatch answers them by a fallback.
-/

namespace OperatorDispatch

/-- What is wrong with the kinds of the operands. -/
inductive Incompatibility where
  | operandsNotNumbers
  | operandNotNumber
  | operandNotIntegral
  | operandNotInteger
deriving DecidableEq, Repr

inductive NativeFault where
  | incompatible (why : Incompatibility)
  /-- An integer operand has no finite double beside a double operand. -/
  | integerTooLarge
  /-- The remainder of an infinite dividend. -/
  | infiniteDividend
  /-- An integer has more digits than a text may hold. -/
  | tooManyDigits
  /-- A text that would never end, because it would have to hold itself. -/
  | endlessText
  /-- The selector has no native operation of the wanted arity. -/
  | noOperation (s : Selector)
deriving DecidableEq, Repr

end OperatorDispatch
