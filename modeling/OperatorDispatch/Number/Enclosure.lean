import OperatorDispatch.Number.Double

/-!
# Enclosures of powers

A power of two magnitudes is irrational in general, so it is enclosed rather
than computed: `Enclosure.power` brackets the exact power between two scaled
naturals of a chosen width.  No step discards a bit that the width can hold,
so the two ends of a power that fits it are the power itself.
-/

namespace OperatorDispatch

/-! ## Scaled naturals -/

/-- The positive number `mantissa * 2 ^ exponent`, in any of its forms. -/
structure Scaled where
  mantissa : Nat
  exponent : Int

namespace Scaled

def one : Scaled := ⟨1, 0⟩

/-- At most `width` bits, the rest dropped. -/
def floorTo (width : Nat) (x : Scaled) : Scaled :=
  let excess := x.mantissa.log2 + 1 - width
  ⟨x.mantissa >>> excess, x.exponent + excess⟩

/-- At most `width` bits and a carry, the rest rounded up. -/
def ceilTo (width : Nat) (x : Scaled) : Scaled :=
  let excess := x.mantissa.log2 + 1 - width
  let kept := x.mantissa >>> excess
  ⟨if kept <<< excess = x.mantissa then kept else kept + 1, x.exponent + excess⟩

def mul (x y : Scaled) : Scaled :=
  ⟨x.mantissa * y.mantissa, x.exponent + y.exponent⟩

end Scaled

/-- The largest natural whose square is at most `n`, for `n < 4 ^ digits`. -/
def integerRoot : (digits : Nat) → (n : Nat) → Nat
  | 0, _ => 0
  | digits + 1, n =>
    let r := 2 * integerRoot digits (n / 4)
    if (r + 1) * (r + 1) ≤ n then r + 1 else r

namespace Scaled

/-- The same number with an even exponent and at least `2 * width` bits. -/
def spreadForRoot (width : Nat) (x : Scaled) : Scaled :=
  let missing := 2 * width - (x.mantissa.log2 + 1)
  let shift := if (x.exponent - missing) % 2 = 0 then missing else missing + 1
  ⟨x.mantissa <<< shift, x.exponent - shift⟩

/-- The square root, rounded down. -/
def rootFloor (width : Nat) (x : Scaled) : Scaled :=
  let y := x.spreadForRoot width
  ⟨integerRoot (y.mantissa.log2 / 2 + 1) y.mantissa, y.exponent / 2⟩

/-- The square root, rounded up. -/
def rootCeil (width : Nat) (x : Scaled) : Scaled :=
  let y := x.spreadForRoot width
  let r := integerRoot (y.mantissa.log2 / 2 + 1) y.mantissa
  ⟨if r * r = y.mantissa then r else r + 1, y.exponent / 2⟩

/-- The nearest magnitude to the number, or to its inverse. -/
def round (inverse : Bool) (x : Scaled) : Option Magnitude :=
  let top := (x.mantissa.log2 : Int) + x.exponent
  let top := if inverse then -top - 1 else top
  if x.mantissa = 0 ∨ top < -1080 then some .zero
  else if 1030 < top then none
  else
    let (n, d) := Magnitude.scaleDown x.mantissa 1 (-x.exponent)
    if inverse then Magnitude.ofRatio? d n else Magnitude.ofRatio? n d

end Scaled

/-! ## Enclosures -/

/-- Two bounds of one positive number. -/
structure Enclosure where
  lower : Scaled
  upper : Scaled

namespace Enclosure

def exact (x : Scaled) : Enclosure := ⟨x, x⟩

def mul (width : Nat) (x y : Enclosure) : Enclosure :=
  ⟨(x.lower.mul y.lower).floorTo width, (x.upper.mul y.upper).ceilTo width⟩

def root (width : Nat) (x : Enclosure) : Enclosure :=
  ⟨(x.lower.rootFloor width).floorTo width, (x.upper.rootCeil width).ceilTo width⟩

/-- The power with a natural exponent, its `bits` binary digits taken from
the most significant down. -/
def powNat (width : Nat) (x : Enclosure) : (bits : Nat) → (n : Nat) → Enclosure
  | 0, _ => exact .one
  | bits + 1, n =>
    let half := powNat width x bits (n / 2)
    let square := mul width half half
    if n % 2 = 1 then mul width square x else square

/-- `acc` times the power of `x` whose exponent is `n / 2 ^ bits`, for
`n < 2 ^ bits`: one square root for each binary place. -/
def powFraction (width : Nat) (acc x : Enclosure) : (bits : Nat) → (n : Nat) → Enclosure
  | 0, _ => acc
  | bits + 1, n =>
    let x := root width x
    let acc := if n >>> bits % 2 = 1 then mul width acc x else acc
    powFraction width acc x bits n

/-- Bounds of `base ^ exponent`. -/
def power (width : Nat) (base exponent : Magnitude) : Enclosure :=
  let x := exact ⟨base.mantissa, base.exponent⟩
  if 0 ≤ exponent.exponent then
    let n := exponent.truncate
    powNat width x (n.log2 + 1) n
  else
    let places := (-exponent.exponent).toNat
    let n := exponent.truncate
    powFraction width (powNat width x (n.log2 + 1) n) x places
      (exponent.mantissa % (1 <<< places))

end Enclosure

end OperatorDispatch
