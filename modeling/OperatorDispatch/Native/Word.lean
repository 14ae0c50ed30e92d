import OperatorDispatch.Primitive
import OperatorDispatch.Native.Fault

/-!
# Bitwise operations and shifts

Bitwise operations see the low 32 bits of a whole number and give a signed
32-bit integer; only the zero-fill right shift gives an unsigned one.  A shift
count is taken modulo 32.
-/

namespace OperatorDispatch
namespace Native

/-! ## Words -/

/-- The low 32 bits. -/
def word (n : Int) : Nat :=
  (n % 0x100000000).toNat

/-- The signed integer of 32 bits in two's complement. -/
def signed (w : Nat) : Int :=
  if w < 0x80000000 then w else (w : Int) - 0x100000000

/-- The shift that a count stands for. -/
def shiftCount (n : Int) : Nat :=
  (n % 32).toNat

/-- The whole number that an operand stands for. -/
def whole (a : Primitive) : Except NativeFault Int :=
  match a.numeral? with
  | none => .error (.incompatible .operandNotInteger)
  | some (.integer n) => .ok n
  | some (.double x) =>
    match x.toInt? with
    | some n => .ok n
    | none => .error (.incompatible .operandNotIntegral)

/-! ## Operations -/

/-- A bitwise operation on two words. -/
def bitwise (op : Nat → Nat → Nat) (a b : Primitive) : Except NativeFault Primitive := do
  let m ← whole a
  let n ← whole b
  return .integer (signed (op (word m) (word n)))

def complement (a : Primitive) : Except NativeFault Primitive := do
  let n ← whole a
  return .integer (-signed (word n) - 1)

def leftShift (a b : Primitive) : Except NativeFault Primitive := do
  let m ← whole a
  let n ← whole b
  return .integer (signed (word (m <<< shiftCount n)))

def rightShift (a b : Primitive) : Except NativeFault Primitive := do
  let m ← whole a
  let n ← whole b
  return .integer (signed (word m) >>> shiftCount n)

def unsignedRightShift (a b : Primitive) : Except NativeFault Primitive := do
  let m ← whole a
  let n ← whole b
  return .integer ((word m >>> shiftCount n : Nat) : Int)

end Native
end OperatorDispatch
