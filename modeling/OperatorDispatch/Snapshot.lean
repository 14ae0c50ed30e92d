import OperatorDispatch.Registry

/-!
# Snapshots

A snapshot is a read-only instance that shares nothing changeable with the
value it was taken of.  `closure` lists the objects that the fields lead to,
without entering type definitions; each of them is cloned once, at the address
that `cloneAddress` gives it, with every reference inside it renamed.  So the
clones are an image of what they were taken of, sharing and cycles included.

The value itself is an object like any other where its own fields lead back to
it, and is then cloned among the rest; the snapshot proper is one more
instance on top.
-/

namespace OperatorDispatch

/-! ## References -/

namespace Value

/-- The value with its address renamed. -/
def rename (φ : Address → Address) : Value → Value
  | .object a => .object (φ a)
  | v => v

/-- The address that a value refers to, as a list. -/
def references (v : Value) : List Address :=
  v.address?.toList

end Value

namespace Object

/-- The addresses that a copy of the object has to follow. -/
def references : Object → List Address
  | .inst i => i.fields.values.flatMap Value.references ++ i.registry.toList
  | .cell v => v.references
  | .list vs => vs.flatMap Value.references
  | .dict es => es.values.flatMap Value.references
  | .typeDefinition _ | .registry _ | .reading _ => []

/-- Whether copies have an object of their own; the others are shared. -/
def isCopied : Object → Bool
  | .inst _ | .registry _ | .cell _ | .list _ | .dict _ => true
  | .typeDefinition _ | .reading _ => false

/-- The object with every reference renamed, types apart. -/
def rename (φ : Address → Address) : Object → Object
  | .inst i =>
    .inst { i with
      fields := i.fields.mapValues (Value.rename φ)
      registry := i.registry.map φ }
  | .cell v => .cell (v.rename φ)
  | .list vs => .list (vs.map (Value.rename φ))
  | .dict es => .dict (es.mapValues (Value.rename φ))
  | .typeDefinition t => .typeDefinition t
  | .registry r => .registry r
  | .reading r => .reading r

end Object

/-! ## What is cloned -/

namespace Heap

/-- The copied object at an address. -/
def copied? (h : Heap) (a : Address) : Option Object :=
  match h.get? a with
  | some o => if o.isCopied then some o else none
  | none => none

/-- The copied objects that `pending` leads to, behind those already `seen`. -/
def closureFrom (h : Heap) : (fuel : Nat) → (pending seen : List Address) → List Address
  | 0, _, seen => seen
  | _ + 1, [], seen => seen
  | fuel + 1, a :: pending, seen =>
    match h.copied? a with
    | some o =>
      if seen.contains a then closureFrom h fuel pending seen
      else closureFrom h fuel (o.references ++ pending) (seen ++ [a])
    | none => closureFrom h fuel pending seen

/-- The number of references held anywhere on the heap. -/
def referenceCount (h : Heap) : Nat :=
  h.objects.foldl (fun n o => n + o.references.length) 0

/-- The copied objects that `roots` lead to, in the order of their discovery.
Each step takes one reference off the list of pending ones, and each object
puts its own on it once. -/
def closure (h : Heap) (roots : List Address) : List Address :=
  h.closureFrom (roots.length + h.referenceCount + 1) roots []

/-- The addresses of the clones: consecutive ones from `base` on. -/
def cloneAddress (base : Nat) (cloned : List Address) (a : Address) : Address :=
  if cloned.contains a then ⟨base + cloned.idxOf a⟩ else a

/-- The clones of the given objects. -/
def clones (h : Heap) (cloned : List Address) : List Object :=
  cloned.filterMap fun a =>
    (h.get? a).map (Object.rename (cloneAddress h.size cloned))

/-- The fields of a snapshot and the objects that have to come with it. -/
def cloneFields (h : Heap) (fields : OrderedMap String Value) :
    OrderedMap String Value × List Object :=
  let cloned := h.closure (fields.values.flatMap Value.references)
  (fields.mapValues (Value.rename (cloneAddress h.size cloned)), h.clones cloned)

end Heap

/-! ## The snapshot -/

namespace Action

/-- An open copy of the registry at `a`. -/
def copyRegistryAt (a : Address) : Action Address := do
  let r ← registryAt a
  allocate (.registry (r.copy none))

/-- A read-only deep copy of an instance.  Its registry holds the same
handlers and is open. -/
def snapshot (i : Instance) : Action Address := do
  let (fields, objects) := (← heap).cloneFields i.fields
  extend objects
  let registry ← i.registry.mapM copyRegistryAt
  allocate (.inst ⟨i.type, fields, registry, true⟩)

end Action

end OperatorDispatch
