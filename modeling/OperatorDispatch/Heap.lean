import OperatorDispatch.OrderedMap
import OperatorDispatch.Telemetry.Journal
import OperatorDispatch.Telemetry.Ledger
import OperatorDispatch.Value

/-!
# The heap

Everything with an identity lives on the heap: instances, type definitions,
handler registries, cells, lists, string-keyed maps and readings.  Addresses
are handed out in ascending order and objects are never removed, so an address
stays good and an object is younger than everything it was made from.
-/

namespace OperatorDispatch

/-! ## Objects -/

/-- A value with fields.  It has a type definition or is a bare record, and
may own a registry of handlers that come before those of its type. -/
structure Instance where
  type : Option Address
  fields : OrderedMap String Value
  registry : Option Address
  readOnly : Bool

/-- A named type with a registry of its own, delegating to a parent. -/
structure TypeDefinition where
  name : String
  parent : Option Address
  registry : Address

/-- One level of handlers.  `allowReplace` tells a registry of an instance,
whose handlers may be replaced, from one of a type. -/
structure Registry where
  owner : String
  allowReplace : Bool
  isSealed : Bool
  handlers : OrderedMap Selector Function

/-- What was read off the engine at some moment. -/
inductive Reading where
  | metrics (spans : List Span) (counters : List (CounterKey × Double))
  | rows (rows : List LogRow)
  | settings (traceSpans recordMetrics : Bool) (ledgerLimit : Int)
  | primitive (p : Primitive)
  | taggable (typeName : String) (untagged : Bool) (path : List Address)
  | definitions (chain : List Address)

inductive Object where
  | inst (i : Instance)
  | typeDefinition (t : TypeDefinition)
  | registry (r : Registry)
  | cell (v : Value)
  | list (vs : List Value)
  | dict (es : OrderedMap String Value)
  | reading (r : Reading)

structure Heap where
  objects : Array Object

namespace Heap

def empty : Heap := ⟨#[]⟩

def size (h : Heap) : Nat :=
  h.objects.size

def get? (h : Heap) (a : Address) : Option Object :=
  h.objects[a.index]?

/-- A new object, and the heap that holds it. -/
def allocate (h : Heap) (o : Object) : Address × Heap :=
  (⟨h.size⟩, ⟨h.objects.push o⟩)

/-- Several new objects, at ascending addresses. -/
def extend (h : Heap) (os : List Object) : Heap :=
  ⟨h.objects ++ os.toArray⟩

/-- The heap with the object at `a` replaced. -/
def update (h : Heap) (a : Address) (o : Object) : Heap :=
  ⟨h.objects.setIfInBounds a.index o⟩

/-! ## Objects of one kind -/

def instanceAt? (h : Heap) (a : Address) : Option Instance :=
  match h.get? a with
  | some (.inst i) => some i
  | _ => none

def typeAt? (h : Heap) (a : Address) : Option TypeDefinition :=
  match h.get? a with
  | some (.typeDefinition t) => some t
  | _ => none

def registryAt? (h : Heap) (a : Address) : Option Registry :=
  match h.get? a with
  | some (.registry r) => some r
  | _ => none

def cellAt? (h : Heap) (a : Address) : Option Value :=
  match h.get? a with
  | some (.cell v) => some v
  | _ => none

/-- The instance that a value is. -/
def instanceOf? (h : Heap) (v : Value) : Option (Address × Instance) :=
  v.address?.bind fun a => (h.instanceAt? a).map (a, ·)

/-- The type definition that a value is. -/
def typeOf? (h : Heap) (v : Value) : Option (Address × TypeDefinition) :=
  v.address?.bind fun a => (h.typeAt? a).map (a, ·)

/-- The registry that a value is. -/
def registryOf? (h : Heap) (v : Value) : Option (Address × Registry) :=
  v.address?.bind fun a => (h.registryAt? a).map (a, ·)

/-- The cell that a value is, with its content. -/
def cellOf? (h : Heap) (v : Value) : Option (Address × Value) :=
  v.address?.bind fun a => (h.cellAt? a).map (a, ·)

/-! ## Names -/

/-- The name of an instance's type; a bare record has none of its own. -/
def typeNameOf (h : Heap) (i : Instance) : String :=
  match i.type.bind h.typeAt? with
  | some t => t.name
  | none => "Object"

/-- What an object is called where an operator is refused on it. -/
def objectName (h : Heap) : Object → String
  | .inst i => h.typeNameOf i
  | .typeDefinition _ => "TypeDefinition"
  | .registry _ => "HandlerRegistry"
  | .cell _ => "Cell"
  | .list _ => "list"
  | .dict _ => "dict"
  | .reading _ => "Reading"

/-- Whether a type definition takes no more handlers. -/
def isSealed (h : Heap) (t : TypeDefinition) : Bool :=
  match h.registryAt? t.registry with
  | some r => r.isSealed
  | none => false

/-! ## Truth -/

/-- Empty containers and instances without fields are false. -/
def truthyObject : Object → Bool
  | .inst i => !i.fields.isEmpty
  | .registry r => !r.handlers.isEmpty
  | .list vs => !vs.isEmpty
  | .dict es => !es.isEmpty
  | .typeDefinition _ | .cell _ | .reading _ => true

/-- The truth value of a value. -/
def truthy (h : Heap) : Value → Bool
  | .primitive p => p.truthy
  | .function _ => true
  | .object a =>
    match h.get? a with
    | some o => truthyObject o
    | none => true

/-! ## Laws of allocation and update -/

theorem get?_allocate (h : Heap) (o : Object) (a : Address) :
    (h.allocate o).2.get? a = if a.index = h.size then some o else h.get? a := by
  show (h.objects.push o)[a.index]? = _
  rw [Array.getElem?_push]
  rfl

theorem get?_update (h : Heap) (a b : Address) (o : Object) :
    (h.update a o).get? b = if a = b ∧ a.index < h.size then some o else h.get? b := by
  obtain ⟨i⟩ := a
  obtain ⟨j⟩ := b
  simp only [update, get?, size, Array.getElem?_setIfInBounds, Address.mk.injEq]
  by_cases hij : i = j
  · subst hij
    by_cases hi : i < h.objects.size
    · simp [hi]
    · simp [hi]
  · simp [hij]

theorem size_update (h : Heap) (a : Address) (o : Object) : (h.update a o).size = h.size := by
  simp [update, size]

theorem size_allocate (h : Heap) (o : Object) : (h.allocate o).2.size = h.size + 1 := by
  simp [allocate, size]

end Heap

end OperatorDispatch
