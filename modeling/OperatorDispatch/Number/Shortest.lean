import OperatorDispatch.Number.Double

/-!
# The shortest decimal of a double

`Magnitude.shortest` finds the decimal with the fewest digits that rounds back
to a magnitude, and of those the nearest.  For each count of digits it tries
the two neighbours of the value on the decimal grid of that many digits: a
grid point that rounds back exists exactly when one of these two does.
Seventeen digits always suffice.
-/

namespace OperatorDispatch

/-- The decimal number `digits * 10 ^ exponent`. -/
structure Decimal where
  digits : Nat
  exponent : Int
deriving DecidableEq

namespace Decimal

/-- The value as a quotient of naturals. -/
def ratio (x : Decimal) : Nat × Nat :=
  if 0 ≤ x.exponent then (x.digits * Nat.pow 10 x.exponent.toNat, 1)
  else (x.digits, Nat.pow 10 (-x.exponent).toNat)

/-- The magnitude nearest to the value; `none` on overflow. -/
def round (x : Decimal) : Option Magnitude :=
  Magnitude.ofRatio? x.ratio.1 x.ratio.2

/-- Zeros at the end moved into the exponent, at most `fuel` of them. -/
def trim : (fuel : Nat) → Decimal → Decimal
  | 0, x => x
  | fuel + 1, x => if x.digits % 10 = 0 then trim fuel ⟨x.digits / 10, x.exponent + 1⟩ else x

end Decimal

namespace Magnitude

/-- The value as a quotient of naturals. -/
def ratio (m : Magnitude) : Nat × Nat :=
  scaleDown m.mantissa 1 (-m.exponent)

/-- `n / d` divided by `10 ^ e`, as a pair of naturals. -/
def scaleDownTen (n d : Nat) (e : Int) : Nat × Nat :=
  if 0 ≤ e then (n, d * Nat.pow 10 e.toNat) else (n * Nat.pow 10 (-e).toNat, d)

/-- The exponent of the largest power of ten that is at most `n / d`.  The
guess from the binary exponent is at most one too small. -/
def decade (n d : Nat) : Int :=
  let guess := (binade n d * 30103).fdiv 100000
  let (n', d') := scaleDownTen n d (guess + 1)
  if d' ≤ n' then guess + 1 else
    let (n', d') := scaleDownTen n d guess
    if d' ≤ n' then guess else guess - 1

/-- The neighbour of `n / d` on the grid of multiples of `10 ^ e` that rounds
back to `m`; the nearer of two, the even one of two equally near. -/
def gridPoint? (m : Magnitude) (n d : Nat) (e : Int) : Option Decimal :=
  let (n', d') := scaleDownTen n d e
  let below : Decimal := ⟨n' / d', e⟩
  let above : Decimal := ⟨n' / d' + 1, e⟩
  match below.round == some m, above.round == some m with
  | true, true => some (if roundHalfEven n' d' = below.digits then below else above)
  | true, false => some below
  | false, true => some above
  | false, false => none

/-- The first grid with a hit, from the coarsest of `count` grids on. -/
def searchGrids (m : Magnitude) (n d : Nat) : (count : Nat) → (e : Int) → Decimal
  | 0, e => ⟨(scaleDownTen n d e).1 / (scaleDownTen n d e).2, e⟩
  | count + 1, e =>
    match gridPoint? m n d e with
    | some x => x.trim 1
    | none => searchGrids m n d count (e - 1)

/-- The shortest decimal that rounds back to a magnitude other than zero. -/
def shortest (m : Magnitude) : Decimal :=
  let (n, d) := m.ratio
  searchGrids m n d 17 (decade n d)

end Magnitude

end OperatorDispatch
