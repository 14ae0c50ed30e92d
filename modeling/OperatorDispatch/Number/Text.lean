import OperatorDispatch.Number.Shortest

/-!
# Doubles as text

A double is written with the fewest digits that read back as the same double.
`DecimalLayout` holds the decisions of the written form, `doubleLayout` the
ones in use here.  `Double.ofText?` reads decimal text of any length and
rounds it once.
-/

namespace OperatorDispatch

/-! ## Writing -/

/-- How the digits of a number are set out.  A number whose leading digit has
a decimal exponent from `least` to `most` is written in positional form, any
other with an exponent of at least `exponentDigits` digits. -/
structure DecimalLayout where
  least : Int
  most : Int
  exponentDigits : Nat

/-- Positional from one ten-thousandth up to sixteen whole digits; exponents
have a sign and two digits at least. -/
def doubleLayout : DecimalLayout := ⟨-4, 15, 2⟩

namespace DecimalLayout

/-- A number below one, its first digit `leading` zeros after the point. -/
def small (digits : List Char) (leading : Nat) : List Char :=
  '0' :: '.' :: (List.replicate leading '0' ++ digits)

/-- `whole` digits, a point, and the rest; a bare whole number gets `.0`. -/
def split (digits : List Char) (whole : Nat) : List Char :=
  let padded := digits ++ List.replicate (whole - digits.length) '0'
  let rest := padded.drop whole
  padded.take whole ++ '.' :: (if rest = [] then ['0'] else rest)

/-- The decimal exponent with its mark and sign. -/
def exponentPart (layout : DecimalLayout) (e : Int) : List Char :=
  let digits := (toString e.natAbs).toList
  'e' :: (if e < 0 then '-' else '+') ::
    (List.replicate (layout.exponentDigits - digits.length) '0' ++ digits)

/-- One digit, the others behind a point, and the exponent. -/
def scientific (layout : DecimalLayout) (digits : List Char) (e : Int) : List Char :=
  match digits with
  | [] => []
  | [c] => c :: layout.exponentPart e
  | c :: rest => c :: '.' :: rest ++ layout.exponentPart e

/-- The text of a decimal. -/
def render (layout : DecimalLayout) (x : Decimal) : List Char :=
  let digits := (toString x.digits).toList
  let leading : Int := x.exponent + digits.length - 1
  if leading < layout.least ∨ layout.most < leading then
    layout.scientific digits leading
  else if leading < 0 then
    small digits (-leading - 1).toNat
  else
    split digits (leading + 1).toNat

end DecimalLayout

/-- The text of a double. -/
def Double.text : Double → String
  | .nan => "nan"
  | .infinity s => if s then "-inf" else "inf"
  | .finite s m =>
    let body :=
      if m.mantissa = 0 then "0.0" else String.ofList (doubleLayout.render m.shortest)
    if s then "-" ++ body else body

/-! ## Reading -/

namespace Double

/-- The number that a row of ASCII digits stands for. -/
def readDigits : List Char → Option Nat
  | [] => none
  | cs => if cs.all Char.isDigit then
      some (cs.foldl (fun n c => n * 10 + (c.toNat - '0'.toNat)) 0)
    else none

/-- A sign, where there is one, and what follows it. -/
def readSign : List Char → Bool × List Char
  | '-' :: cs => (true, cs)
  | '+' :: cs => (false, cs)
  | cs => (false, cs)

/-- The exponent behind the mark `e`; zero where there is none. -/
def readExponent (cs : List Char) : Option Int :=
  match cs with
  | [] => some 0
  | _ :: cs =>
    let (s, digits) := readSign cs
    (readDigits digits).map fun n => if s then -(n : Int) else n

/-- An unsigned decimal: digits with a point or without, then an exponent or
none. -/
def readDecimal (cs : List Char) : Option Decimal := do
  let isMark := fun c : Char => c == 'e' || c == 'E'
  let body := cs.takeWhile (!isMark ·)
  let exponent ← readExponent (cs.dropWhile (!isMark ·))
  let whole := body.takeWhile (· != '.')
  let fraction := (body.dropWhile (· != '.')).drop 1
  let digits ← readDigits (whole ++ fraction)
  some ⟨digits, exponent - fraction.length⟩

/-- Beyond these exponents a decimal is infinite or zero whatever its digits,
so it is not expanded. -/
def roundDecimal (count : Nat) (x : Decimal) : Option Magnitude :=
  if x.digits = 0 ∨ x.exponent + count < -400 then some .zero
  else if 400 < x.exponent then none
  else x.round

/-- The double nearest to a decimal text; also `inf`, `infinity` and `nan`. -/
def ofText? (s : String) : Option Double :=
  let (sign, body) := readSign s.toList
  match String.ofList (body.map Char.toLower) with
  | "nan" => some .nan
  | "inf" | "infinity" => some (.infinity sign)
  | _ => (readDecimal body).map fun x => ofMagnitude sign (roundDecimal body.length x)

end Double

end OperatorDispatch
