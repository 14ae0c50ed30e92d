import OperatorDispatch.Text.Character

/-!
# Integers as text

Integers are written in decimal, up to a limit of 4300 digits.  They are read
from decimal digits of any script, with one sign at most, single underscores
between digits and blanks around; the same limit holds, and a text over the
limit is refused as too long before what follows its digits is looked at.
-/

namespace OperatorDispatch

/-- The most digits that an integer may have as text. -/
def digitLimit : Nat := 4300

/-- The decimal text of an integer, within the limit. -/
def integerText? (n : Int) : Option String :=
  if n.natAbs < Nat.pow 10 digitLimit then some (toString n) else none

/-! ## Reading -/

/-- Why a text is not read as an integer. -/
inductive IntegerRefusal where
  | malformed
  | tooLong (digits : Nat)
deriving DecidableEq

/-- The digits of an integer and what follows them. -/
structure DigitRun where
  digits : List Nat
  rest : List Char

/-- The run of digits at the front, the first of them required.  An
underscore must stand between two digits; `none` where one does not. -/
def digitRun : List Char → Option DigitRun
  | [] => none
  | [c] => (decimalDigit? c).map fun d => ⟨[d], []⟩
  | c :: '_' :: cs =>
    (decimalDigit? c).bind fun d =>
      (digitRun cs).map fun run => ⟨d :: run.digits, run.rest⟩
  | c :: c' :: cs =>
    (decimalDigit? c).bind fun d =>
      if (decimalDigit? c').isSome then
        (digitRun (c' :: cs)).map fun run => ⟨d :: run.digits, run.rest⟩
      else
        some ⟨[d], c' :: cs⟩

/-- The number that a row of digits stands for. -/
def ofDigits (digits : List Nat) : Nat :=
  digits.foldl (fun n d => n * 10 + d) 0

/-- A sign, where there is one, and what follows it. -/
def integerSign : List Char → Bool × List Char
  | '-' :: cs => (true, cs)
  | '+' :: cs => (false, cs)
  | cs => (false, cs)

/-- The integer that a text stands for. -/
def readInteger (s : String) : Except IntegerRefusal Int :=
  let (negative, body) := integerSign (s.toList.dropWhile isIntegerBlank)
  match digitRun body with
  | none => .error .malformed
  | some run =>
    if digitLimit < run.digits.length then .error (.tooLong run.digits.length)
    else if !run.rest.all isIntegerBlank then .error .malformed
    else
      let n : Int := ofDigits run.digits
      .ok (if negative then -n else n)

end OperatorDispatch
