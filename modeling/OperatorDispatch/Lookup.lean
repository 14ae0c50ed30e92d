import OperatorDispatch.Heap

/-!
# Classification and lookup

An operand is a primitive or a value that may carry handlers.  The latter has
a lookup path: its own registry, where it has one, then the registry of each
type definition on its delegation chain, the most derived first.  `resolve`
takes the first handler along the path.
-/

namespace OperatorDispatch

namespace Heap

/-! ## Delegation chains -/

/-- A type definition and its ancestors, at most `fuel` of them. -/
def chainFrom (h : Heap) : (fuel : Nat) → Address → List Address
  | 0, _ => []
  | fuel + 1, a =>
    match h.typeAt? a with
    | none => []
    | some t =>
      match t.parent with
      | none => [a]
      | some parent => a :: chainFrom h fuel parent

/-- The delegation chain of a type definition, itself first.  A parent is
older than its children, so a chain has no more members than the heap has
objects up to the definition. -/
def chain (h : Heap) (a : Address) : List Address :=
  h.chainFrom (a.index + 1) a

/-- Whether `b` stands on the delegation chain of `a`. -/
def isSubtype (h : Heap) (a b : Address) : Bool :=
  (h.chain a).contains b

/-- The registries of the type definitions on a chain. -/
def chainRegistries (h : Heap) (chain : List Address) : List Address :=
  chain.filterMap fun a => (h.typeAt? a).map (·.registry)

/-- The lookup path of an instance. -/
def lookupPath (h : Heap) (i : Instance) : List Address :=
  i.registry.toList ++
    match i.type with
    | none => []
    | some t => h.chainRegistries (h.chain t)

end Heap

/-! ## Operands -/

/-- A value that may carry handlers. -/
structure Taggable where
  value : Value
  typeName : String
  type : Option Address
  path : List Address

inductive Operand where
  | primitive (p : Primitive)
  | taggable (t : Taggable)

namespace Operand

/-- What the operand is called where an operator is refused on it. -/
def typeName : Operand → String
  | .primitive p => p.kind.name
  | .taggable t => t.typeName

end Operand

namespace Heap

/-- The view of a value as an operand. -/
def classify (h : Heap) : Value → Operand
  | .primitive p => .primitive p
  | .function f => .taggable ⟨.function f, "function", none, []⟩
  | .object a =>
    match h.get? a with
    | some (.inst i) => .taggable ⟨.object a, h.typeNameOf i, i.type, h.lookupPath i⟩
    | some o => .taggable ⟨.object a, h.objectName o, none, []⟩
    | none => .taggable ⟨.object a, "", none, []⟩

/-- The handler of the registry at `a` for a selector. -/
def handlerAt (h : Heap) (s : Selector) (a : Address) : Option Function :=
  (h.registryAt? a).bind (·.handlers.get? s)

/-- The first handler along the lookup path. -/
def resolve (h : Heap) (operand : Operand) (s : Selector) : Option Function :=
  match operand with
  | .primitive _ => none
  | .taggable t => t.path.findSome? (h.handlerAt s)

end Heap

/-- Whether the right operand may be strictly equal to the left one by a
handler for `equals`: a tagged left operand wants an instance of the very same
type definition, an untagged one anything but a primitive. -/
def nominallyCompatible (lhs : Taggable) : Operand → Bool
  | .primitive _ => false
  | .taggable rhs => lhs.type.isNone || rhs.type == lhs.type

end OperatorDispatch
