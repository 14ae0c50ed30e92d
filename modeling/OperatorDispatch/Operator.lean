import OperatorDispatch.Selector

/-!
# Operators

The tokens that a host hands over, each with the selector that implements it.
`!=` and `!==` share the selectors of `==` and `===` and negate the answer.
There is one table for each arity, in the order of registration; a token stands
at most once in a table.
-/

namespace OperatorDispatch

inductive Arity where
  | binary | unary
deriving DecidableEq, Repr

namespace Arity

def count : Arity → Nat
  | .binary => 2
  | .unary => 1

def name : Arity → String
  | .binary => "binary"
  | .unary => "unary"

end Arity

/-- A token of one arity with the behaviour behind it. -/
structure Operator where
  literal : String
  arity : Arity
  selector : Selector
  description : String
  negated : Bool
deriving DecidableEq, Repr

namespace Operator

def category (o : Operator) : Category :=
  o.selector.category

def isMutating (o : Operator) : Bool :=
  o.selector.isMutating

end Operator

/-! ## Tables -/

/-- The known operators of each arity. -/
structure OperatorTables where
  binary : List Operator
  unary : List Operator

namespace OperatorTables

def table (t : OperatorTables) : Arity → List Operator
  | .binary => t.binary
  | .unary => t.unary

def find? (t : OperatorTables) (arity : Arity) (literal : String) : Option Operator :=
  (t.table arity).find? (·.literal == literal)

/-- The tables with one more operator, unless its token is taken. -/
def register? (t : OperatorTables) (o : Operator) : Option OperatorTables :=
  if (t.find? o.arity o.literal).isSome then none
  else match o.arity with
    | .binary => some { t with binary := t.binary ++ [o] }
    | .unary => some { t with unary := t.unary ++ [o] }

/-- The tokens backed by a selector, binary ones first. -/
def literalsOf (t : OperatorTables) (s : Selector) : List String :=
  ((t.binary ++ t.unary).filter (·.selector == s)).map (·.literal)

/-- The operators of the language. -/
def standard : OperatorTables where
  binary := [
    ⟨"==", .binary, .equals, "Loose equality", false⟩,
    ⟨"!=", .binary, .equals, "Negated loose equality", true⟩,
    ⟨"===", .binary, .strictEquals, "Strict equality", false⟩,
    ⟨"!==", .binary, .strictEquals, "Negated strict equality", true⟩,
    ⟨">", .binary, .greaterThan, "Greater than", false⟩,
    ⟨">=", .binary, .greaterThanEqual, "Greater than or equal", false⟩,
    ⟨"<", .binary, .lessThan, "Less than", false⟩,
    ⟨"<=", .binary, .lessThanEqual, "Less than or equal", false⟩,
    ⟨"+", .binary, .add, "Addition", false⟩,
    ⟨"-", .binary, .subtract, "Subtraction", false⟩,
    ⟨"*", .binary, .multiply, "Multiplication", false⟩,
    ⟨"/", .binary, .divide, "Division", false⟩,
    ⟨"%", .binary, .modulus, "Remainder", false⟩,
    ⟨"**", .binary, .exponent, "Exponentiation", false⟩,
    ⟨"&", .binary, .bitwiseAnd, "Bitwise and", false⟩,
    ⟨"|", .binary, .bitwiseOr, "Bitwise or", false⟩,
    ⟨"^", .binary, .bitwiseXor, "Bitwise exclusive or", false⟩,
    ⟨"<<", .binary, .leftShift, "Left shift", false⟩,
    ⟨">>", .binary, .rightShift, "Sign-propagating right shift", false⟩,
    ⟨">>>", .binary, .unsignedRightShift, "Zero-fill right shift", false⟩]
  unary := [
    ⟨"-", .unary, .unaryNegate, "Negation", false⟩,
    ⟨"++", .unary, .unaryAdd, "Increment in place", false⟩,
    ⟨"--", .unary, .unarySubtract, "Decrement in place", false⟩,
    ⟨"~", .unary, .bitwiseComplement, "Bitwise complement", false⟩]

end OperatorTables

/-! ## Positions -/

/-- Where a unary token stands. -/
inductive Position where
  | before | after | unspecified
deriving DecidableEq, Repr

namespace Position

/-- The position that a text names; no text leaves it unspecified. -/
def ofText? : Option String → Option Position
  | none => some .unspecified
  | some "prefix" => some .before
  | some "postfix" => some .after
  | some "none" => some .unspecified
  | some _ => none

end Position

/-! ## Compound assignment -/

/-- The compound assignment tokens and the binary tokens that they apply. -/
def compoundAssignments : List (String × String) :=
  [("+=", "+"), ("-=", "-"), ("*=", "*"), ("/=", "/"), ("%=", "%"), ("**=", "**"),
    ("&=", "&"), ("|=", "|"), ("^=", "^"), ("<<=", "<<"), (">>=", ">>"), (">>>=", ">>>")]

/-- The binary token behind a compound assignment token. -/
def compoundOperator? (literal : String) : Option String :=
  compoundAssignments.lookup literal

end OperatorDispatch
