import OperatorDispatch.Primitive
import OperatorDispatch.Native.Fault
import OperatorDispatch.Number.Power

/-!
# Arithmetic of primitives

Two integers give an exact integer in sums, products, remainders and powers
with a natural exponent.  Any other pair of numbers is computed in doubles.
Division always gives a double and is correctly rounded even for integers
beyond the range of doubles.
-/

namespace OperatorDispatch
namespace Native

/-! ## Operands -/

/-- Both operands as numbers. -/
def numerals (a b : Primitive) : Except NativeFault (Numeral × Numeral) :=
  match a.numeral?, b.numeral? with
  | some x, some y => .ok (x, y)
  | _, _ => .error (.incompatible .operandsNotNumbers)

/-- Both numbers as doubles; `none` where an integer is too large. -/
def doubles? (a b : Numeral) : Option (Double × Double) :=
  match a.toDouble?, b.toDouble? with
  | some x, some y => some (x, y)
  | _, _ => none

/-! ## Sums and products -/

/-- An operation that is exact on integers. -/
def compute (onIntegers : Int → Int → Int) (onDoubles : Double → Double → Double) :
    Numeral → Numeral → Except NativeFault Primitive
  | .integer m, .integer n => .ok (.integer (onIntegers m n))
  | a, b =>
    match doubles? a b with
    | some (x, y) => .ok (.double (onDoubles x y))
    | none => .error .integerTooLarge

/-- The two texts joined; the left one is formed first. -/
def join (a b : Primitive) : Except NativeFault Primitive :=
  match a.joinText?, b.joinText? with
  | some s, some t => .ok (.text (s ++ t))
  | _, _ => .error .tooManyDigits

/-- A sum, or the texts joined where either operand is a text. -/
def add (a b : Primitive) : Except NativeFault Primitive :=
  match a, b with
  | .text _, _ | _, .text _ => join a b
  | _, _ => do
    let (x, y) ← numerals a b
    compute (· + ·) Double.add x y

def subtract (a b : Primitive) : Except NativeFault Primitive := do
  let (x, y) ← numerals a b
  compute (· - ·) Double.sub x y

def multiply (a b : Primitive) : Except NativeFault Primitive := do
  let (x, y) ← numerals a b
  compute (· * ·) Double.mul x y

/-! ## Quotients -/

/-- Division by zero: infinite unless the dividend is zero or not-a-number. -/
def divideByZero (a b : Numeral) : Double :=
  if a.isZero || a.isNaN then .nan else .infinity (a.isNegative != b.signBit)

/-- The quotient of two integers, rounded once; beyond the largest double it
is infinite. -/
def divideIntegers (m n : Int) : Double :=
  Double.ofMagnitude ((m < 0) != (n < 0)) (Magnitude.ofRatio? m.natAbs n.natAbs)

/-- The quotient of two numbers.  A pair with an integer too large for a
double is infinite, under the sign that the comparisons with zero give. -/
def quotient (a b : Numeral) : Double :=
  if b.isZero then divideByZero a b
  else match a, b with
    | .integer m, .integer n => divideIntegers m n
    | _, _ =>
      match doubles? a b with
      | some (x, y) => x.div y
      | none => .infinity (a.isNegative != b.isNegative)

def divide (a b : Primitive) : Except NativeFault Primitive := do
  let (x, y) ← numerals a b
  return .double (quotient x y)

/-! ## Remainders -/

/-- The remainder of two numbers, with the sign of the dividend. -/
def remainder (a b : Numeral) : Except NativeFault Primitive :=
  if b.isZero then .ok (.double .nan)
  else match a, b with
    | .integer m, .integer n =>
      let r : Int := m.natAbs % n.natAbs
      .ok (.integer (if m < 0 then -r else r))
    | _, _ =>
      match doubles? a b with
      | none => .ok (.double .nan)
      | some (x, y) =>
        match x.remainder? y with
        | some r => .ok (.double r)
        | none => .error .infiniteDividend

def modulus (a b : Primitive) : Except NativeFault Primitive := do
  let (x, y) ← numerals a b
  remainder x y

/-! ## Powers -/

/-- A power of two doubles.  A pole and an overflow are positive infinity, and
a power that is not real is not-a-number. -/
def powDoubles (x y : Double) : Double :=
  match x.pow y with
  | .value r => r
  | .pole | .overflow => .infinity false
  | .notReal => .nan

/-- A natural power.  Zero and one are told at once, whatever the size of the
exponent. -/
def powNatural (b n : Nat) : Nat :=
  if b ≤ 1 then (if n = 0 then 1 else b) else Nat.pow b n

theorem powNatural_zero (b : Nat) : powNatural b 0 = 1 := by
  unfold powNatural
  split
  · rfl
  · rfl

theorem powNatural_succ (b n : Nat) : powNatural b (n + 1) = powNatural b n * b := by
  unfold powNatural
  by_cases hb : b ≤ 1
  · obtain rfl | rfl : b = 0 ∨ b = 1 := by omega
    · simp
    · simp
  · rw [if_neg hb, if_neg hb]
    rfl

/-- An integer power; the sign of a negative base alternates. -/
def powInteger (m : Int) (n : Nat) : Int :=
  let p : Int := powNatural m.natAbs n
  if m < 0 ∧ n % 2 = 1 then -p else p

theorem powInteger_zero (m : Int) : powInteger m 0 = 1 := by
  simp [powInteger, powNatural_zero]

theorem powInteger_succ (m : Int) (n : Nat) : powInteger m (n + 1) = powInteger m n * m := by
  simp only [powInteger, powNatural_succ, Int.natCast_mul]
  generalize (powNatural m.natAbs n : Int) = p
  by_cases hm : m < 0
  · have habs : (m.natAbs : Int) = -m := by omega
    rcases Nat.mod_two_eq_zero_or_one n with hn | hn
    · have hn' : (n + 1) % 2 = 1 := by omega
      rw [if_pos ⟨hm, hn'⟩, if_neg (by omega), habs, Int.mul_neg, Int.neg_neg]
    · have hn' : (n + 1) % 2 = 0 := by omega
      rw [if_neg (by omega), if_pos ⟨hm, hn⟩, habs, Int.mul_neg, Int.neg_mul]
  · have habs : (m.natAbs : Int) = m := by omega
    simp [hm, habs]

/-- The power of two numbers; exact for integers with a natural exponent. -/
def power : Numeral → Numeral → Primitive
  | .integer m, .integer (.ofNat n) => .integer (powInteger m n)
  | a, b =>
    match doubles? a b with
    | some (x, y) => .double (powDoubles x y)
    | none => .double (.infinity false)

def exponent (a b : Primitive) : Except NativeFault Primitive := do
  let (x, y) ← numerals a b
  return power x y

/-! ## One operand -/

/-- The only operand as a number. -/
def numeral (a : Primitive) : Except NativeFault Numeral :=
  match a.numeral? with
  | some x => .ok x
  | none => .error (.incompatible .operandNotNumber)

def negate (a : Primitive) : Except NativeFault Primitive := do
  match ← numeral a with
  | .integer n => return .integer (-n)
  | .double x => return .double x.neg

/-- The number with one added or taken away. -/
def step (delta : Int) (a : Primitive) : Except NativeFault Primitive := do
  compute (· + ·) Double.add (← numeral a) (.integer delta)

end Native
end OperatorDispatch
