import OperatorDispatch.Native.Arithmetic
import OperatorDispatch.Native.Comparison
import OperatorDispatch.Native.Word

/-!
# Native operations

What each selector does to primitives.  The equality selectors have no native
operation of this kind: equality is total, and `Primitive.looseEqual` and
`Primitive.strictEqual` hold it.
-/

namespace OperatorDispatch
namespace Native

/-- The native operation of a selector with two operands. -/
def binary (s : Selector) (a b : Primitive) : Except NativeFault Primitive :=
  match s with
  | .greaterThan => Primitive.relate (· == .gt) a b
  | .greaterThanEqual => Primitive.relate (· != .lt) a b
  | .lessThan => Primitive.relate (· == .lt) a b
  | .lessThanEqual => Primitive.relate (· != .gt) a b
  | .add => add a b
  | .subtract => subtract a b
  | .multiply => multiply a b
  | .divide => divide a b
  | .modulus => modulus a b
  | .exponent => exponent a b
  | .bitwiseAnd => bitwise (· &&& ·) a b
  | .bitwiseOr => bitwise (· ||| ·) a b
  | .bitwiseXor => bitwise (· ^^^ ·) a b
  | .leftShift => leftShift a b
  | .rightShift => rightShift a b
  | .unsignedRightShift => unsignedRightShift a b
  | .equals | .strictEquals
  | .unaryNegate | .unaryAdd | .unarySubtract | .bitwiseComplement => .error (.noOperation s)

/-- The native operation of a selector with one operand. -/
def unary (s : Selector) (a : Primitive) : Except NativeFault Primitive :=
  match s with
  | .unaryNegate => negate a
  | .unaryAdd => step 1 a
  | .unarySubtract => step (-1) a
  | .bitwiseComplement => complement a
  | _ => .error (.noOperation s)

end Native
end OperatorDispatch
