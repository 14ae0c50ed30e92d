import OperatorDispatch.Number.Enclosure

/-!
# Powers estimated in doubles

The estimate of a power that needs nothing but doubles: the logarithm of the
base as the sum of two doubles, times the exponent, and the exponential of
that.  Every step is a sum, a product, or a product and a sum fused, and is
rounded once; here each intermediate double is the rational that it stands
for.  The constants are not tabulated but computed: a logarithm by its series,
a root of two from its enclosure, both far beyond the precision of a double.

The estimate misses the exact power by less than a twentieth of the last
place, so it is on the right side of a midpoint unless the power is closer to
it than that.
-/

namespace OperatorDispatch
namespace Estimate

/-! ## Arithmetic in doubles -/

/-- The double nearest to a rational.  Beyond the largest double the rational
is left as it is. -/
def nearest (q : Rat) : Rat :=
  match Magnitude.ofRat? q with
  | some m => if q < 0 then -m.toRat else m.toRat
  | none => q

def plus (a b : Rat) : Rat := nearest (a + b)

def minus (a b : Rat) : Rat := nearest (a - b)

def times (a b : Rat) : Rat := nearest (a * b)

/-- `a * b + c` with one rounding. -/
def fused (a b c : Rat) : Rat := nearest (a * b + c)

/-- The whole number nearest to a rational. -/
def nearestInteger (q : Rat) : Int :=
  (q + mkRat 1 2).floor

/-- The rational `n / 2 ^ places`. -/
def binary (n : Int) (places : Nat) : Rat :=
  mkRat n (1 <<< places)

/-- The rational `q * 2 ^ e`. -/
def scaleUp (q : Rat) (e : Int) : Rat :=
  if 0 ≤ e then q * ((1 <<< e.toNat : Nat) : Rat) else q * binary 1 (-e).toNat

/-- A number in two doubles, of which the second is small beside the first. -/
structure TwoPart where
  head : Rat
  rest : Rat

/-- A number cut behind `places` binary places; the rest is a double. -/
def TwoPart.cut (places : Nat) (q : Rat) : TwoPart :=
  let head := binary (nearestInteger (scaleUp q places)) places
  ⟨head, nearest (q - head)⟩

/-! ## Constants -/

/-- `count` terms of the series `1 / odd + s / (odd + 2) + …`. -/
def oddSeries (s : Rat) : (count odd : Nat) → Rat
  | 0, _ => 0
  | count + 1, odd => mkRat 1 odd + s * oddSeries s count (odd + 2)

/-- The natural logarithm of a number from a half to two, to more than a
hundred binary places: it is twice the area tangent of `(c - 1) / (c + 1)`. -/
def preciseLogarithm (c : Rat) : Rat :=
  let t := (c - 1) / (c + 1)
  2 * t * oddSeries (t * t) 40 1

/-- `2 ^ (j / 128)` as a double and what it lacks, relative to it. -/
def rootOfTwo (j : Nat) : TwoPart :=
  let x := (Enclosure.powFraction 256 (.exact .one) (.exact ⟨2, 0⟩) 7 j).lower
  let exact := scaleUp (x.mantissa : Rat) x.exponent
  let head := nearest exact
  ⟨head, nearest (exact / head - 1)⟩

/-! ## The logarithm -/

/-- The factors below one start at `(2 ^ 52 + firstFactor) / 2 ^ 53`. -/
def firstFactor : Nat := 0x6955500000000

/-- A magnitude as `2 ^ exponent * factor`, with a factor near one.  The range
of the factors is cut into 128 intervals, and `interval` counts them. -/
structure Reduction where
  exponent : Int
  factor : Rat
  interval : Nat

/-- The reduction of a magnitude other than zero. -/
def reduce (m : Magnitude) : Reduction :=
  let missing := 52 - m.mantissa.log2
  let mantissa := m.mantissa <<< missing
  let fraction := mantissa - 0x10000000000000
  let places : Nat := if fraction < firstFactor then 52 else 53
  { exponent := m.exponent - missing + places
    factor := binary mantissa places
    interval := (fraction + (0x10000000000000 - firstFactor)) % 0x10000000000000 / 0x200000000000 }

/-- The inverse of the middle of an interval, in eight bits. -/
def middleInverse (interval : Nat) : Rat :=
  let middle := firstFactor + interval <<< 45 + 0x100000000000
  if middle < 0x10000000000000 then
    binary (Magnitude.roundHalfEven 0x1000000000000000 (0x10000000000000 + middle)) 7
  else
    binary (Magnitude.roundHalfEven 0x1000000000000000 middle) 8

/-- The terms of the logarithm of `1 + r` from the third one on, divided by
`- r ^ 3 / 2`. -/
def logarithmTail (r halfSquare : Rat) : Rat :=
  let third := fused r (binary 0x10000000000006 53) (binary (-0x15555555555560) 53)
  let fifth := fused r (binary (-0x1555555529a47a) 53) (binary 0x1999999959554e 53)
  let seventh := fused r (binary 0x10002b8b263fc3 52) (binary (-0x12495b9b4845e9) 52)
  fused halfSquare (fused halfSquare seventh fifth) third

/-- The logarithm of a magnitude other than zero: `exponent * log 2 + log c`
for the middle `c` of the interval, then `log (1 + r)` for what the factor is
off `c`.  What a sum of heads drops is kept and added to the rest. -/
def logarithm (m : Magnitude) : TwoPart :=
  let x := reduce m
  let inverse := middleInverse x.interval
  let middle := TwoPart.cut 43 (preciseLogarithm (1 / inverse))
  let two := TwoPart.cut 43 (preciseLogarithm 2)
  let r := fused x.factor inverse (-1)
  let base := fused x.exponent two.head middle.head
  let baseRest := fused x.exponent two.rest middle.rest
  let linear := plus base r
  let linearRest := plus (minus base linear) r
  let half := times (mkRat (-1) 2) r
  let halfSquare := times r half
  let halfSquareRest := fused half r (-halfSquare)
  let square := plus linear halfSquare
  let squareRest := plus (minus linear square) halfSquare
  let dropped := plus (plus (plus baseRest linearRest) halfSquareRest) squareRest
  let rest := fused (times r halfSquare) (logarithmTail r halfSquare) dropped
  let head := plus square rest
  ⟨head, plus (minus square head) rest⟩

/-! ## The exponential -/

/-- `exp r - 1` and `lack`, for a small `r`. -/
def growth (r lack : Rat) : Rat :=
  let square := times r r
  let third := fused r (binary 0x1555555555543c 55) (binary 0x1ffffffffffdbd 54)
  let fifth := fused r (binary 0x11111167a4d017 59) (binary 0x155555cf172b91 57)
  fused fifth (times square square) (fused third square (plus r lack))

/-- `s + s * g` in units of the least normal double.  Below one unit the sum
is formed beside one, so that it is rounded where the magnitudes there end. -/
def gradual (s g : Rat) : Rat :=
  let increase := times s g
  let sum := plus s increase
  if 1 ≤ sum then
    sum
  else
    let dropped := plus (minus s sum) increase
    let beside := plus 1 sum
    let rest := plus (plus (minus 1 beside) sum) dropped
    minus (plus beside rest) 1

/-- The exponential: a power of `2 ^ (1 / 128)`, and `exp r` for what is left
over. -/
def exponential (x : TwoPart) : Option Magnitude :=
  let n := nearestInteger (x.head * nearest (128 / preciseLogarithm 2))
  let step := TwoPart.cut 44 (preciseLogarithm 2 / 128)
  let r := plus x.rest (fused n (-step.rest) (fused n (-step.head) x.head))
  let root := rootOfTwo (n % 128).toNat
  let g := growth r root.rest
  if 0 ≤ n ∨ -512 < x.head then
    Magnitude.ofRat? (scaleUp (fused root.head g root.head) (n / 128))
  else
    Magnitude.ofRat? (scaleUp (gradual (scaleUp root.head (n / 128 + 1022)) g) (-1022))

/-! ## The power -/

/-- `base ^ exponent`, or its inverse, for a base other than zero. -/
def power (inverse : Bool) (base exponent : Magnitude) : Option Magnitude :=
  let y := if inverse then -exponent.toRat else exponent.toRat
  let l := logarithm base
  let head := times y l.head
  exponential ⟨head, fused y l.rest (fused l.head y (-head))⟩

end Estimate
end OperatorDispatch
