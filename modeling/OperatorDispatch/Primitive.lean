import OperatorDispatch.Number.Text
import OperatorDispatch.Text.Integer
import OperatorDispatch.Text.Quoted

/-!
# Primitives

The values that never carry handlers.  A boolean is a kind of its own but
counts as zero or one wherever a number is wanted: `numeral?` is that view.
-/

namespace OperatorDispatch

inductive Primitive where
  | null
  | boolean (b : Bool)
  | integer (n : Int)
  | double (x : Double)
  | text (s : String)
deriving DecidableEq

/-- The kinds of primitives. -/
inductive PrimitiveKind where
  | number | string | boolean | null
deriving DecidableEq, Repr

def PrimitiveKind.name : PrimitiveKind → String
  | .number => "number"
  | .string => "string"
  | .boolean => "boolean"
  | .null => "null"

/-- A number as arithmetic sees it. -/
inductive Numeral where
  | integer (n : Int)
  | double (x : Double)
deriving DecidableEq

namespace Primitive

def kind : Primitive → PrimitiveKind
  | .null => .null
  | .boolean _ => .boolean
  | .integer _ | .double _ => .number
  | .text _ => .string

/-- The number that a primitive counts as. -/
def numeral? : Primitive → Option Numeral
  | .boolean b => some (.integer (if b then 1 else 0))
  | .integer n => some (.integer n)
  | .double x => some (.double x)
  | .null | .text _ => none

/-- The truth value: null, false, the zeros and the empty text are false. -/
def truthy : Primitive → Bool
  | .null => false
  | .boolean b => b
  | .integer n => n != 0
  | .double x => !x.isZero
  | .text s => s != ""

/-- The literal form of a primitive; `none` for an integer over the digit
limit. -/
def literalText? : Primitive → Option String
  | .null => some "None"
  | .boolean b => some (if b then "True" else "False")
  | .integer n => integerText? n
  | .double x => some x.text
  | .text s => some (quoted s)

/-- The plain form of a primitive: its literal form without quotes. -/
def plainText? : Primitive → Option String
  | .text s => some s
  | p => p.literalText?

/-- The form in which a primitive is joined to a text.  A whole double is
written as an integer. -/
def joinText? : Primitive → Option String
  | .null => some "null"
  | .boolean b => some (if b then "true" else "false")
  | .double x =>
    match x.toInt? with
    | some n => integerText? n
    | none => some x.text
  | .integer n => integerText? n
  | .text s => some s

end Primitive

namespace Numeral

/-- The double nearest to the number; `none` for an integer beyond the
largest double. -/
def toDouble? : Numeral → Option Double
  | .integer n => Double.ofInt? n
  | .double x => some x

def isZero : Numeral → Bool
  | .integer n => n == 0
  | .double x => x.isZero

def isNaN : Numeral → Bool
  | .integer _ => false
  | .double x => x.isNaN

/-- The sign bit; an integer zero is unsigned. -/
def signBit : Numeral → Bool
  | .integer n => n < 0
  | .double x => x.negative

/-- Whether the number is less than zero. -/
def isNegative (a : Numeral) : Bool :=
  a.signBit && !a.isZero

end Numeral

end OperatorDispatch
