import OperatorDispatch.Expression

/-!
# Values

A value is a primitive, a function, or the address of an object.  Functions
never change and are told apart by their number, so two evaluations of one
handler expression give two functions.
-/

namespace OperatorDispatch

/-- The place of an object on the heap, and its identity. -/
structure Address where
  index : Nat
deriving DecidableEq, Repr

/-- A handler. -/
structure Function where
  number : Nat
  label : String
  body : Expr

inductive Value where
  | primitive (p : Primitive)
  | function (f : Function)
  | object (a : Address)

/-- What a handler is called with: the receiver, and the right operand where
there is one. -/
structure Arguments where
  this : Value
  other : Option Value

namespace Value

def null : Value := .primitive .null

def boolean (b : Bool) : Value := .primitive (.boolean b)

def integer (n : Int) : Value := .primitive (.integer n)

def double (x : Double) : Value := .primitive (.double x)

def text (s : String) : Value := .primitive (.text s)

def address? : Value → Option Address
  | .object a => some a
  | _ => none

def function? : Value → Option Function
  | .function f => some f
  | _ => none

/-- Whether two values are one and the same.  Functions and objects have an
identity; a primitive is the same as any equal one. -/
def same : Value → Value → Bool
  | .primitive p, .primitive q => p == q
  | .function f, .function g => f.number == g.number
  | .object a, .object b => a == b
  | _, _ => false

/-- Whether two values that could carry handlers are one and the same. -/
def identical : Value → Value → Bool
  | .primitive _, _ | _, .primitive _ => false
  | v, w => v.same w

end Value

end OperatorDispatch
