/-!
# Double-precision numbers

The doubles of the 64-bit binary format as data: a sign, a mantissa and a
binary exponent, or an infinity, or the one value that is not a number.  Each
finite double has exactly one such description, because a mantissa below
`2 ^ 52` is admitted only at the least exponent.

Every operation is computed on exact rationals and rounded once, to the
nearest double with ties to the even mantissa, so what an operation means can
be read off `toRat` and `ofRat`.
-/

namespace OperatorDispatch

/-! ## Magnitudes -/

/-- A finite magnitude `mantissa * 2 ^ exponent` in its one canonical form: a
mantissa of 53 bits, or a shorter one at the least exponent. -/
structure Magnitude where
  mantissa : Nat
  exponent : Int
  canonical : mantissa < 0x20000000000000 ∧ -1074 ≤ exponent ∧ exponent ≤ 971 ∧
    (exponent = -1074 ∨ 0x10000000000000 ≤ mantissa)
deriving DecidableEq

namespace Magnitude

/-- The magnitude with the given parts, where they are canonical. -/
def ofParts? (mantissa : Nat) (exponent : Int) : Option Magnitude :=
  if h : mantissa < 0x20000000000000 ∧ -1074 ≤ exponent ∧ exponent ≤ 971 ∧
      (exponent = -1074 ∨ 0x10000000000000 ≤ mantissa) then
    some ⟨mantissa, exponent, h⟩
  else
    none

def zero : Magnitude := ⟨0, -1074, by decide⟩

def one : Magnitude := ⟨0x10000000000000, -52, by decide⟩

/-- The quotient `n / d` divided by `2 ^ e`, as a pair of naturals. -/
def scaleDown (n d : Nat) (e : Int) : Nat × Nat :=
  if 0 ≤ e then (n, d <<< e.toNat) else (n <<< (-e).toNat, d)

/-- The exact value. -/
def toRat (m : Magnitude) : Rat :=
  if 0 ≤ m.exponent then
    ((m.mantissa <<< m.exponent.toNat : Nat) : Rat)
  else
    mkRat m.mantissa (1 <<< (-m.exponent).toNat)

/-! ## Rounding -/

/-- `n / d` rounded to the nearest natural, a half going to the even one. -/
def roundHalfEven (n d : Nat) : Nat :=
  let q := n / d
  let r := n % d
  if 2 * r < d then q
  else if d < 2 * r then q + 1
  else if q % 2 = 0 then q
  else q + 1

/-- The exponent of the largest power of two that is at most `n / d`, for
positive `n` and `d`. -/
def binade (n d : Nat) : Int :=
  let k : Int := (n.log2 : Int) - (d.log2 : Int)
  let (n', d') := scaleDown n d k
  if d' ≤ n' then k else k - 1

/-- `n / d` rounded to the nearest magnitude; `none` where the rounded value
lies beyond the largest one. -/
def ofRatio? (n d : Nat) : Option Magnitude :=
  if n = 0 then
    some zero
  else
    let e := max (binade n d - 52) (-1074)
    let (n', d') := scaleDown n d e
    let m := roundHalfEven n' d'
    if m = 0x20000000000000 then ofParts? 0x10000000000000 (e + 1) else ofParts? m e

/-- The magnitude nearest to `|q|`; `none` on overflow. -/
def ofRat? (q : Rat) : Option Magnitude :=
  ofRatio? q.num.natAbs q.den

/-- Whether the value is a whole number. -/
def isIntegral (m : Magnitude) : Bool :=
  0 ≤ m.exponent || m.mantissa % (1 <<< (-m.exponent).toNat) == 0

/-- The value rounded toward zero. -/
def truncate (m : Magnitude) : Nat :=
  if 0 ≤ m.exponent then m.mantissa <<< m.exponent.toNat
  else m.mantissa >>> (-m.exponent).toNat

end Magnitude

/-! ## Doubles -/

/-- A double-precision number. -/
inductive Double where
  | nan
  | infinity (negative : Bool)
  | finite (negative : Bool) (magnitude : Magnitude)
deriving DecidableEq

namespace Double

def zero : Double := .finite false .zero

def one : Double := .finite false .one

/-- The sign bit; not-a-number counts as unsigned. -/
def negative : Double → Bool
  | .nan => false
  | .infinity s => s
  | .finite s _ => s

def isNaN : Double → Bool
  | .nan => true
  | _ => false

def isZero : Double → Bool
  | .finite _ m => m.mantissa == 0
  | _ => false

/-- The exact value of a finite double, with its sign. -/
def toRat? : Double → Option Rat
  | .finite s m => some (if s then -m.toRat else m.toRat)
  | _ => none

/-- A rounded magnitude under a sign; an overflow is infinite. -/
def ofMagnitude (negative : Bool) : Option Magnitude → Double
  | some m => .finite negative m
  | none => .infinity negative

/-- The double nearest to `|q|`, under the given sign. -/
def ofRat (negative : Bool) (q : Rat) : Double :=
  ofMagnitude negative (Magnitude.ofRat? q)

/-- The double nearest to an integer, where that is finite. -/
def ofInt? (n : Int) : Option Double :=
  (Magnitude.ofRatio? n.natAbs 1).map (.finite (n < 0))

/-- The integer that a whole double stands for. -/
def toInt? : Double → Option Int
  | .finite s m =>
    if m.isIntegral then some (if s then -(m.truncate : Int) else m.truncate) else none
  | _ => none

/-! ## Arithmetic -/

/-- The sign bit flipped. -/
def neg : Double → Double
  | .nan => .nan
  | .infinity s => .infinity (!s)
  | .finite s m => .finite (!s) m

/-- The sum of two signed magnitudes.  An exact zero is negative only when
both terms are. -/
def addFinite (s : Bool) (a : Rat) (t : Bool) (b : Rat) : Double :=
  let sum := (if s then -a else a) + (if t then -b else b)
  if sum = 0 then .finite (s && t) .zero else ofRat (sum < 0) sum

def add : Double → Double → Double
  | .nan, _ | _, .nan => .nan
  | .infinity s, .infinity t => if s = t then .infinity s else .nan
  | .infinity s, .finite .. => .infinity s
  | .finite .., .infinity t => .infinity t
  | .finite s a, .finite t b => addFinite s a.toRat t b.toRat

def sub (x y : Double) : Double :=
  add x y.neg

def mul : Double → Double → Double
  | .nan, _ | _, .nan => .nan
  | .infinity s, .infinity t => .infinity (s != t)
  | .infinity s, .finite t b => if b.mantissa = 0 then .nan else .infinity (s != t)
  | .finite s a, .infinity t => if a.mantissa = 0 then .nan else .infinity (s != t)
  | .finite s a, .finite t b => ofRat (s != t) (a.toRat * b.toRat)

def div : Double → Double → Double
  | .nan, _ | _, .nan => .nan
  | .infinity _, .infinity _ => .nan
  | .infinity s, .finite t _ => .infinity (s != t)
  | .finite s _, .infinity t => .finite (s != t) .zero
  | .finite s a, .finite t b =>
    if b.mantissa = 0 then
      if a.mantissa = 0 then .nan else .infinity (s != t)
    else
      ofRat (s != t) (a.toRat / b.toRat)

/-- The remainder of the magnitudes, which is exact: it has at most as many
bits as the divisor and no lower a place than either operand. -/
def remainderMagnitude (a b : Magnitude) : Option Magnitude :=
  let q := a.toRat / b.toRat
  Magnitude.ofRat? (a.toRat - b.toRat * (q.floor : Rat))

/-- The remainder of a division that truncates toward zero, with the sign of
the dividend; `none` for an infinite dividend or a zero divisor. -/
def remainder? : Double → Double → Option Double
  | .nan, _ | _, .nan => some .nan
  | .infinity _, _ => none
  | .finite s a, .infinity _ => some (.finite s a)
  | .finite s a, .finite _ b =>
    if b.mantissa = 0 then none else some (ofMagnitude s (remainderMagnitude a b))

end Double

end OperatorDispatch
