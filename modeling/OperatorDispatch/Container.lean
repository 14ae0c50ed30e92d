import OperatorDispatch.Describe
import OperatorDispatch.Native.Comparison

/-!
# Containers

Access to the fields of instances, to string-keyed maps and to lists.  Writing
to a read-only instance is refused, and only at the moment of the write: an
operation that turns out to write nothing does what it does to any instance.
-/

namespace OperatorDispatch

/-! ## Keys and indexes -/

/-- The text of a string key. -/
def Value.key? : Value → Option String
  | .primitive (.text s) => some s
  | _ => none

/-- The position in a list of the given length; negative indexes count from
the end. -/
def listIndex? (length : Nat) (index : Value) : Option Nat :=
  match index with
  | .primitive (.integer n) =>
    let i := if n < 0 then n + length else n
    if 0 ≤ i ∧ i < length then some i.toNat else none
  | _ => none

namespace Action

/-- The fault of a key that is not there. -/
def missingKey {α : Type} (key : Value) : Action α := do
  raise (.missingKey ((← heap).keyText key))

/-! ## Fields -/

/-- The instance that a value is. -/
def instanceOf (v : Value) : Action (Address × Instance) := do
  demand .unusable ((← heap).instanceOf? v)

/-- The fields of an instance replaced, unless it is read-only. -/
def writeFields (a : Address) (i : Instance) (fields : OrderedMap String Value) :
    Action Unit := do
  if i.readOnly then
    raise (.readOnly ((← heap).typeNameOf i))
  write a (.inst { i with fields })

/-- A field bound to a value. -/
def setField (target : Value) (key : String) (v : Value) : Action Unit := do
  let (a, i) ← instanceOf target
  writeFields a i (i.fields.insert key v)

/-- A field removed.  A read-only instance refuses before the key is looked
up. -/
def deleteField (target : Value) (key : Value) : Action Unit := do
  let (a, i) ← instanceOf target
  if i.readOnly then
    raise (.readOnly ((← heap).typeNameOf i))
  match key.key? with
  | none => missingKey key
  | some k =>
    if i.fields.contains k then writeFields a i (i.fields.erase k) else missingKey key

/-- The value of a field. -/
def getField (target key : Value) : Action Value := do
  let (_, i) ← instanceOf target
  match key.key?.bind i.fields.get? with
  | some v => return v
  | none => missingKey key

/-- A field removed and handed back; the default where it is missing. -/
def popField (target key : Value) (default : Option Value) : Action Value := do
  let (_, i) ← instanceOf target
  match key.key?.bind i.fields.get?, default with
  | some v, _ =>
    deleteField target key
    return v
  | none, some d => return d
  | none, none => missingKey key

/-- The first field removed. -/
def popFirst (target : Value) : Action (String × Value) := do
  let (_, i) ← instanceOf target
  match i.fields.entries with
  | [] => raise .emptyMapping
  | (k, v) :: _ =>
    deleteField target (.text k)
    return (k, v)

/-- The fields removed one after the other, the first one first. -/
def clearFields (target : Value) : (fields : List (String × Value)) → Action Unit
  | [] => pure ()
  | (k, _) :: rest => do
    deleteField target (.text k)
    clearFields target rest

/-- The value of a field, which is set where it is missing. -/
def setDefault (target key default : Value) : Action Value := do
  let (_, i) ← instanceOf target
  match key.key? with
  | none => raise .unusable
  | some k =>
    match i.fields.get? k with
    | some v => return v
    | none =>
      setField target k default
      return default

/-- Fields set one after the other. -/
def setFields (target : Value) : List (String × Value) → Action Unit
  | [] => pure ()
  | (k, v) :: rest => do
    setField target k v
    setFields target rest

/-! ## Any container -/

/-- The object behind a value. -/
def objectOf (v : Value) : Action (Address × Object) := do
  let a ← demand .unusable v.address?
  let o ← demand .unusable ((← heap).get? a)
  return (a, o)

def getItem (target key : Value) : Action Value := do
  match ← objectOf target with
  | (_, .inst _) => getField target key
  | (_, .dict es) =>
    match key.key?.bind es.get? with
    | some v => return v
    | none => missingKey key
  | (_, .list vs) =>
    demand (.indexOutOfRange false) ((listIndex? vs.length key).bind (vs[·]?))
  | _ => raise .unusable

def setItem (target key v : Value) : Action Unit := do
  match ← objectOf target with
  | (_, .inst _) =>
    let k ← demand .unusable key.key?
    setField target k v
  | (a, .dict es) =>
    let k ← demand .unusable key.key?
    write a (.dict (es.insert k v))
  | (a, .list vs) =>
    let i ← demand (.indexOutOfRange true) (listIndex? vs.length key)
    write a (.list (vs.set i v))
  | _ => raise .unusable

def deleteItem (target key : Value) : Action Unit := do
  match ← objectOf target with
  | (_, .inst _) => deleteField target key
  | (a, .dict es) =>
    match key.key? with
    | none => missingKey key
    | some k => if es.contains k then write a (.dict (es.erase k)) else missingKey key
  | (a, .list vs) =>
    let i ← demand (.indexOutOfRange true) (listIndex? vs.length key)
    write a (.list (vs.eraseIdx i))
  | _ => raise .unusable

/-- Whether a key is there, or an equal primitive stands in a list. -/
def hasItem (target key : Value) : Action Bool := do
  match ← objectOf target with
  | (_, .inst i) => return (key.key?.bind i.fields.get?).isSome
  | (_, .dict es) => return (key.key?.bind es.get?).isSome
  | (_, .list vs) => return vs.any fun v =>
      match v, key with
      | .primitive p, .primitive q => p.looseEqual q
      | v, w => v.identical w
  | _ => raise .unusable

def length (target : Value) : Action Nat := do
  match ← objectOf target with
  | (_, .inst i) => return i.fields.size
  | (_, .registry r) => return r.handlers.size
  | (_, .list vs) => return vs.length
  | (_, .dict es) => return es.size
  | _ => raise .unusable

/-- The entries of a map or the fields of an instance. -/
def entriesOf (v : Value) : Action (List (String × Value)) := do
  match ← objectOf v with
  | (_, .inst i) => return i.fields.entries
  | (_, .dict es) => return es.entries
  | _ => raise .unusable

/-! ## The commands -/

/-- A new object as a value. -/
def newObject (o : Object) : Action Value := do
  return .object (← allocate o)

/-- The keys paired with the values; a repeated key keeps its first place and
takes its last value. -/
def entriesFrom (keys : List String) (values : List Value) : OrderedMap String Value :=
  .ofList (keys.zip values)

def container : ContainerCommand → List Value → Action Value
  | .newList, vs => newObject (.list vs)
  | .newDict keys, vs => newObject (.dict (entriesFrom keys vs))
  | .newCell, [v] => newObject (.cell v)
  | .readCell, [c] => do
    let (_, v) ← demand .unusable ((← heap).cellOf? c)
    return v
  | .writeCell, [c, v] => do
    let (a, _) ← demand .unusable ((← heap).cellOf? c)
    write a (.cell v)
    return .null
  | .get, [o, k] => getItem o k
  | .set, [o, k, v] => do
    setItem o k v
    return .null
  | .delete, [o, k] => do
    deleteItem o k
    return .null
  | .has, [o, k] => return .boolean (← hasItem o k)
  | .length, [o] => return .integer (← length o)
  | .pop, [o, k] => popField o k none
  | .pop, [o, k, d] => popField o k (some d)
  | .popItem, [o] => do
    let (k, v) ← popFirst o
    newObject (.list [.text k, v])
  | .clear, [o] => do
    let (_, i) ← instanceOf o
    clearFields o i.fields.entries
    return .null
  | .setDefault, [o, k, d] => setDefault o k d
  | .merge, [o, m] => do
    let (_, _) ← instanceOf o
    setFields o (← entriesOf m)
    return .null
  | _, _ => raise .unusable

end Action
end OperatorDispatch
