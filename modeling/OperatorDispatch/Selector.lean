/-!
# Selectors and their categories

A selector names the behaviour that an operator stands for, and is what a
handler is registered under.  The set is closed.  Every selector belongs to
one category, and the category decides what happens where no handler is found.
-/

namespace OperatorDispatch

/-! ## The vocabulary -/

inductive Selector where
  | equals | strictEquals
  | greaterThan | greaterThanEqual | lessThan | lessThanEqual
  | add | subtract | multiply | divide | modulus | exponent
  | unaryNegate | unaryAdd | unarySubtract
  | bitwiseAnd | bitwiseOr | bitwiseXor | bitwiseComplement
  | leftShift | rightShift | unsignedRightShift
deriving DecidableEq, Repr

inductive Category where
  | equality | relational | arithmeticBinary | unaryArithmetic
  | bitwiseBinary | bitwiseUnary | shift
deriving DecidableEq, Repr

namespace Selector

/-- Every selector, in declaration order. -/
def all : List Selector :=
  [.equals, .strictEquals,
    .greaterThan, .greaterThanEqual, .lessThan, .lessThanEqual,
    .add, .subtract, .multiply, .divide, .modulus, .exponent,
    .unaryNegate, .unaryAdd, .unarySubtract,
    .bitwiseAnd, .bitwiseOr, .bitwiseXor, .bitwiseComplement,
    .leftShift, .rightShift, .unsignedRightShift]

/-- The identifier that hosts use, in camel case. -/
def identifier : Selector → String
  | .equals => "equals"
  | .strictEquals => "strictEquals"
  | .greaterThan => "greaterThan"
  | .greaterThanEqual => "greaterThanEqual"
  | .lessThan => "lessThan"
  | .lessThanEqual => "lessThanEqual"
  | .add => "add"
  | .subtract => "subtract"
  | .multiply => "multiply"
  | .divide => "divide"
  | .modulus => "modulus"
  | .exponent => "exponent"
  | .unaryNegate => "unaryNegate"
  | .unaryAdd => "unaryAdd"
  | .unarySubtract => "unarySubtract"
  | .bitwiseAnd => "bitwiseAnd"
  | .bitwiseOr => "bitwiseOr"
  | .bitwiseXor => "bitwiseXor"
  | .bitwiseComplement => "bitwiseComplement"
  | .leftShift => "leftShift"
  | .rightShift => "rightShift"
  | .unsignedRightShift => "unsignedRightShift"

/-- The identifier in capitals, its words joined by underscores. -/
def constantName (s : Selector) : String :=
  String.ofList (s.identifier.toList.flatMap fun c =>
    if c.isUpper then ['_', c] else [c.toUpper])

/-- The position in declaration order. -/
def rank (s : Selector) : Nat :=
  all.idxOf s

/-- The selector with the given camel-case identifier. -/
def ofIdentifier? (name : String) : Option Selector :=
  all.find? (·.identifier == name)

/-- The selector with the given identifier, in either spelling. -/
def ofName? (name : String) : Option Selector :=
  ofIdentifier? name <|> all.find? (·.constantName == name)

def category : Selector → Category
  | .equals | .strictEquals => .equality
  | .greaterThan | .greaterThanEqual | .lessThan | .lessThanEqual => .relational
  | .add | .subtract | .multiply | .divide | .modulus | .exponent => .arithmeticBinary
  | .unaryNegate | .unaryAdd | .unarySubtract => .unaryArithmetic
  | .bitwiseAnd | .bitwiseOr | .bitwiseXor => .bitwiseBinary
  | .bitwiseComplement => .bitwiseUnary
  | .leftShift | .rightShift | .unsignedRightShift => .shift

/-- Whether handlers change the receiver in place. -/
def isMutating : Selector → Bool
  | .unaryAdd | .unarySubtract => true
  | _ => false

/-- Whether handlers take no operand but the receiver. -/
def isUnary : Selector → Bool
  | .unaryNegate | .unaryAdd | .unarySubtract | .bitwiseComplement => true
  | _ => false

theorem mem_all (s : Selector) : s ∈ all := by
  cases s <;> decide

end Selector

namespace Category

/-- Every category, in declaration order. -/
def all : List Category :=
  [.equality, .relational, .arithmeticBinary, .unaryArithmetic,
    .bitwiseBinary, .bitwiseUnary, .shift]

def name : Category → String
  | .equality => "Equality"
  | .relational => "Relational"
  | .arithmeticBinary => "ArithmeticBinary"
  | .unaryArithmetic => "UnaryArithmetic"
  | .bitwiseBinary => "BitwiseBinary"
  | .bitwiseUnary => "BitwiseUnary"
  | .shift => "Shift"

def ofName? (s : String) : Option Category :=
  all.find? (·.name == s)

/-- The selectors of a category, in declaration order. -/
def selectors (c : Category) : List Selector :=
  Selector.all.filter (·.category == c)

theorem mem_selectors {c : Category} {s : Selector} : s ∈ c.selectors ↔ s.category = c := by
  simp [selectors, Selector.mem_all]

end Category

end OperatorDispatch
