import OperatorDispatch.Registry

/-!
# Type definitions and instances

A type definition is open until it is sealed, and making an instance of it
seals it.  `define` makes a sealed one at once: the texts of all selectors are
looked up first, then the handlers are registered in the declaration order of
the selectors, so the order in which they were given does not matter.

Instances are made by `instantiate` from a type definition, by `newRecord`
without one, and by copying (`Snapshot`).  Left out is the bare constructor of
instances, which takes a type definition and does not seal it: an instance that
was tagged that way is none of those that are spoken of here.
-/

namespace OperatorDispatch

/-- What a value is called where handlers are attached to it in vain. -/
def Heap.kindName (h : Heap) : Value → String
  | .primitive .null => "NoneType"
  | .primitive (.boolean _) => "bool"
  | .primitive (.integer _) => "int"
  | .primitive (.double _) => "float"
  | .primitive (.text _) => "str"
  | .function _ => "function"
  | .object a =>
    match h.get? a with
    | some o => h.objectName o
    | none => ""

/-! ## Type definitions -/

/-- An entry put before the first one of a later selector. -/
def insertBySelector (e : Selector × Value) : List (Selector × Value) → List (Selector × Value)
  | [] => [e]
  | f :: fs => if e.1.rank ≤ f.1.rank then e :: f :: fs else f :: insertBySelector e fs

/-- Entries in the declaration order of their selectors; equal ones keep their
order. -/
def sortBySelector (es : List (Selector × Value)) : List (Selector × Value) :=
  es.foldr insertBySelector []

namespace Action

/-- The parent that a value stands for: a type definition, or none for null. -/
def parentOf (v : Value) : Action (Option Address) := do
  match v with
  | .primitive .null => return none
  | _ =>
    let (a, _) ← demand .unusable ((← heap).typeOf? v)
    return some a

/-- An open type definition with an empty registry. -/
def openType (name : String) (parent : Option Address) : Action Address := do
  let registry ← allocate (.registry (.fresh ("type '" ++ name ++ "'") false))
  allocate (.typeDefinition ⟨name, parent, registry⟩)

/-- No more handlers for a type.  A second seal changes nothing. -/
def sealType (a : Address) : Action Unit := do
  let t ← demand .unusable ((← heap).typeAt? a)
  let r ← registryAt t.registry
  if !r.isSealed then
    sealRegistry t.registry
    log (.sealedType t.name r.handlers.size)

/-- The handlers added one after the other. -/
def addHandlers (a : Address) : List (Selector × Value) → Action Unit
  | [] => pure ()
  | (s, handler) :: es => do
    addHandler a s handler
    addHandlers a es

/-- The selectors of all entries, or the first unknown one. -/
def findSelectors : List (String × Value) → Except Fault (List (Selector × Value))
  | [] => .ok []
  | (name, handler) :: es =>
    match findSelector name with
    | .error fault => .error fault
    | .ok s =>
      match findSelectors es with
      | .error fault => .error fault
      | .ok rest => .ok ((s, handler) :: rest)

/-- A sealed type definition with the given handlers. -/
def define (name : String) (handlers : OrderedMap String Value) (parent : Option Address) :
    Action Address := do
  let a ← openType name parent
  let entries ← ofExcept (findSelectors handlers.entries)
  let t ← demand .unusable ((← heap).typeAt? a)
  addHandlers t.registry (sortBySelector entries)
  sealType a
  return a

/-! ## Instances -/

/-- The name under which the constructor of instances knows the type itself. -/
def reservedField : String := "self"

/-- An instance of a type, which is sealed by it. -/
def instantiate (type : Address) (fields : OrderedMap String Value) : Action Address := do
  if fields.contains reservedField then
    raise .reservedField
  sealType type
  allocate (.inst ⟨some type, fields, none, false⟩)

/-- A bare record. -/
def newRecord (fields : OrderedMap String Value) : Action Address :=
  allocate (.inst ⟨none, fields, none, false⟩)

/-- The registry of an instance, made where it has none. -/
def ownRegistry (a : Address) (i : Instance) : Action Address := do
  match i.registry with
  | some r => return r
  | none =>
    let owner := "instance of '" ++ (← heap).typeNameOf i ++ "'"
    let r ← allocate (.registry (.fresh owner true))
    write a (.inst { i with registry := some r })
    return r

/-- A handler for one instance.  The registry of the instance is there
afterwards even if it refuses the handler. -/
def overrideHandler (v : Value) (selector : String) (handler : Value) : Action Unit := do
  match (← heap).instanceOf? v with
  | none => raise (.notAttachable ((← heap).kindName v))
  | some (a, i) =>
    let r ← ownRegistry a i
    addNamed r selector handler

end Action

end OperatorDispatch
