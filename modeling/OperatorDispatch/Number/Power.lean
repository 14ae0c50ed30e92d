import OperatorDispatch.Number.Estimate

/-!
# Powers of doubles

`Magnitude.pow` rounds an enclosure of the exact power.  Where both ends round
alike, with a margin of one part in `2 ^ 55` added, that is the answer: the
nearest magnitude.  The exact power otherwise lies that close to the middle
between two neighbours, and the estimate in doubles tells which of the two is
the answer.  So the answer is always next to the exact power, and overflow
is never early.

`pow` adds the cases that no enclosure covers: zeros, infinities, signs and
not-a-number.
-/

namespace OperatorDispatch

/-! ## Close calls -/

namespace Scaled

/-- The number made smaller by one part in `2 ^ 55`. -/
def shrink (x : Scaled) : Scaled :=
  ⟨x.mantissa * 0x7fffffffffffff, x.exponent - 55⟩

/-- The number made larger by one part in `2 ^ 55`. -/
def grow (x : Scaled) : Scaled :=
  ⟨x.mantissa * 0x80000000000001, x.exponent - 55⟩

end Scaled

/-- `base ^ exponent`, or its inverse, as a magnitude; `none` on overflow. -/
def Magnitude.pow (inverse : Bool) (base exponent : Magnitude) : Option Magnitude :=
  let e := Enclosure.power 128 base exponent
  let lower := e.lower.shrink.round inverse
  let upper := e.upper.grow.round inverse
  if lower = upper then lower
  else if Estimate.power inverse base exponent = upper then upper
  else lower

/-! ## Powers -/

namespace Double

/-- Whether the double is an odd whole number. -/
def isOddIntegral (x : Double) : Bool :=
  match x.toInt? with
  | some n => n % 2 != 0
  | none => false

/-- How a magnitude compares with one. -/
def compareOne (m : Magnitude) : Ordering :=
  if m = Magnitude.one then .eq
  else if m.exponent < -52 then .lt
  else .gt

/-- The outcome of raising a double to a double. -/
inductive PowerResult where
  | value (x : Double)
  /-- Zero raised to a negative power. -/
  | pole
  /-- A magnitude beyond the largest double, whatever its sign. -/
  | overflow
  /-- A negative base under an exponent that is not whole. -/
  | notReal
deriving DecidableEq

/-- A power with an infinite exponent. -/
def powInfinite (base : Magnitude) (negative : Bool) : Double :=
  match compareOne base, negative with
  | .eq, _ => one
  | .gt, false | .lt, true => .infinity false
  | _, _ => zero

/-- A power of two finite doubles, neither of them zero.  A whole exponent
gives a negative base its sign back when it is odd. -/
def powFinite (s : Bool) (base : Magnitude) (t : Bool) (exponent : Magnitude) : PowerResult :=
  match base.pow t exponent with
  | none => .overflow
  | some m =>
    if s && !exponent.isIntegral then .notReal
    else .value (.finite (s && isOddIntegral (.finite t exponent)) m)

/-- `x` raised to `y`. -/
def pow (x y : Double) : PowerResult :=
  if y.isZero then .value one
  else match x, y with
    | .nan, _ => .value .nan
    | x, .nan => .value (if x = one then one else .nan)
    | .infinity _, .infinity t => .value (if t then zero else .infinity false)
    | .finite _ m, .infinity t => .value (powInfinite m t)
    | .infinity s, .finite t e =>
      let odd := s && isOddIntegral (.finite t e)
      .value (if t then .finite odd .zero else .infinity odd)
    | .finite s m, .finite t e =>
      if m.mantissa = 0 then
        if t then .pole else .value (.finite (s && isOddIntegral (.finite t e)) .zero)
      else
        powFinite s m t e

end Double

end OperatorDispatch
