import OperatorDispatch.Command
import OperatorDispatch.Proofs.Steps

/-!
# Plain actions

Most of what a program can ask for reads and writes the heap, and may log a
registration or a seal.  It has nothing to do with dispatches, the ledger and the
settings, and it cannot take a row out of the journal.

`Action.Plain` says this of an action by what the action is made of.  The functions
of the engine are gone through here once, from the bottom up, each put together
from those that it calls.  What is true of the few parts and carries over to
sequences is then true of all these functions, by induction on how they are made.
-/

namespace OperatorDispatch

/-! ## Rows handed out -/

/-- The rows that an object hands out: those of a reading of the journal. -/
def Object.rows : Object → List LogRow
  | .reading (.rows rows) => rows
  | .inst _ | .typeDefinition _ | .registry _ | .cell _ | .list _ | .dict _
  | .reading (.metrics ..) | .reading (.settings ..) | .reading (.primitive _)
  | .reading (.taggable ..) | .reading (.definitions _) => []

namespace Object

theorem rows_of_isCopied {o : Object} (ho : o.isCopied = true) (φ : Address → Address) :
    (o.rename φ).rows = [] := by
  cases o with
  | inst | registry | cell | list | dict => rfl
  | typeDefinition | reading => cases ho

end Object

/-- No clone hands out rows. -/
theorem Heap.rows_of_mem_cloneFields {h : Heap} {fields : OrderedMap String Value} {o : Object}
    (ho : o ∈ (h.cloneFields fields).2) : o.rows = [] := by
  obtain ⟨a, ha, found⟩ := List.mem_filterMap.mp ho
  obtain ⟨p, hp, rfl⟩ := Option.map_eq_some_iff.mp found
  obtain ⟨p', hp'⟩ := copied?_of_mem_closure ha
  obtain ⟨hget, hcopied⟩ := copied?_eq_some.mp hp'
  obtain rfl : p' = p := Option.some.inj (hget.symm.trans hp)
  exact Object.rows_of_isCopied hcopied _

namespace Action

/-! ## What plain actions are made of -/

/-- An action made of looks at the heap, writes to the heap, and rows about other
things than fallbacks. -/
inductive Plain : {α : Type} → Action α → Prop
  | pure {α : Type} (x : α) : Plain (pure x)
  | throw {α : Type} (e : Interruption) : Plain (throw e : Action α)
  | heap : Plain heap
  | allocate {o : Object} (silent : o.rows = []) : Plain (allocate o)
  | write (a : Address) {o : Object} (silent : o.rows = []) : Plain (write a o)
  | extend {os : List Object} (silent : ∀ o ∈ os, o.rows = []) : Plain (extend os)
  | log {row : LogRow} (other : row.isFallback = false) : Plain (log row)
  | bind {α β : Type} {m : Action α} {f : α → Action β} (first : Plain m)
      (rest : ∀ x, Plain (f x)) : Plain (m >>= f)

variable {α : Type}

theorem plain_raise (fault : Fault) : Plain (raise fault : Action α) :=
  .throw (.raised fault)

theorem plain_ofExcept (r : Except Fault α) : Plain (ofExcept r) := by
  cases r with
  | ok x => exact .pure x
  | error fault => exact plain_raise fault

theorem plain_demand (fault : Fault) (o : Option α) : Plain (demand fault o) := by
  cases o with
  | some x => exact .pure x
  | none => exact plain_raise fault

theorem plain_heap_bind {f : Heap → Action α} (hf : ∀ h, Plain (f h)) : Plain (heap >>= f) :=
  .bind .heap hf

/-- An action for its effect, with null as its answer. -/
theorem plain_null {m : Action Unit} (hm : Plain m) :
    Plain (do m; return .null : Action Value) :=
  .bind hm fun _ => .pure _

/-! ## Containers -/

theorem plain_missingKey (key : Value) : Plain (missingKey key : Action α) :=
  plain_heap_bind fun _ => plain_raise _

theorem plain_instanceOf (v : Value) : Plain (instanceOf v) :=
  plain_heap_bind fun _ => plain_demand _ _

/-- What refuses a write to a read-only instance. -/
theorem plain_readOnly (i : Instance) {f : Unit → Action α} (hf : ∀ x, Plain (f x)) :
    Plain (do raise (.readOnly ((← heap).typeNameOf i)) >>= f) :=
  plain_heap_bind fun _ => .bind (plain_raise _) hf

theorem plain_writeFields (a : Address) (i : Instance) (fields : OrderedMap String Value) :
    Plain (writeFields a i fields) := by
  unfold writeFields
  dsimp only
  split
  · exact plain_readOnly i fun _ => .write _ rfl
  · exact .write _ rfl

theorem plain_setField (target : Value) (key : String) (v : Value) :
    Plain (setField target key v) :=
  .bind (plain_instanceOf target) fun _ => plain_writeFields _ _ _

theorem plain_deleteField (target key : Value) : Plain (deleteField target key) := by
  refine .bind (plain_instanceOf target) ?_
  rintro ⟨a, i⟩
  dsimp only
  cases key.key? with
  | none =>
      have missing : Plain (missingKey key : Action Unit) := plain_missingKey key
      split
      · exact plain_readOnly i fun _ => missing
      · exact missing
  | some k =>
      have deleted : Plain (if i.fields.contains k then writeFields a i (i.fields.erase k)
          else missingKey key) := by
        split
        · exact plain_writeFields _ _ _
        · exact plain_missingKey key
      split
      · exact plain_readOnly i fun _ => deleted
      · exact deleted

theorem plain_getField (target key : Value) : Plain (getField target key) := by
  refine .bind (plain_instanceOf target) ?_
  rintro ⟨a, i⟩
  dsimp only
  split
  · exact .pure _
  · exact plain_missingKey key

theorem plain_popField (target key : Value) (default : Option Value) :
    Plain (popField target key default) := by
  refine .bind (plain_instanceOf target) ?_
  rintro ⟨a, i⟩
  dsimp only
  split
  · exact .bind (plain_deleteField _ _) fun _ => .pure _
  · exact .pure _
  · exact plain_missingKey key

theorem plain_popFirst (target : Value) : Plain (popFirst target) := by
  refine .bind (plain_instanceOf target) ?_
  rintro ⟨a, i⟩
  dsimp only
  split
  · exact plain_raise _
  · exact .bind (plain_deleteField _ _) fun _ => .pure _

theorem plain_clearFields (target : Value) (fields : List (String × Value)) :
    Plain (clearFields target fields) := by
  induction fields with
  | nil => exact .pure ()
  | cons e rest ih => exact .bind (plain_deleteField _ _) fun _ => ih

theorem plain_setDefault (target key default : Value) :
    Plain (setDefault target key default) := by
  refine .bind (plain_instanceOf target) ?_
  rintro ⟨a, i⟩
  dsimp only
  split
  · exact plain_raise _
  · split
    · exact .pure _
    · exact .bind (plain_setField _ _ _) fun _ => .pure _

theorem plain_setFields (target : Value) (fields : List (String × Value)) :
    Plain (setFields target fields) := by
  induction fields with
  | nil => exact .pure ()
  | cons e rest ih => exact .bind (plain_setField _ _ _) fun _ => ih

theorem plain_objectOf (v : Value) : Plain (objectOf v) := by
  refine .bind (plain_demand _ _) fun _ => plain_heap_bind fun _ => ?_
  exact .bind (plain_demand _ _) fun _ => .pure _

theorem plain_getItem (target key : Value) : Plain (getItem target key) := by
  refine .bind (plain_objectOf target) fun _ => ?_
  split
  · exact plain_getField target key
  · split
    · exact .pure _
    · exact plain_missingKey key
  · exact plain_demand _ _
  · exact plain_raise _

theorem plain_setItem (target key v : Value) : Plain (setItem target key v) := by
  refine .bind (plain_objectOf target) fun _ => ?_
  split
  · exact .bind (plain_demand _ _) fun _ => plain_setField _ _ _
  · exact .bind (plain_demand _ _) fun _ => .write _ rfl
  · exact .bind (plain_demand _ _) fun _ => .write _ rfl
  · exact plain_raise _

theorem plain_deleteItem (target key : Value) : Plain (deleteItem target key) := by
  refine .bind (plain_objectOf target) fun _ => ?_
  split
  · exact plain_deleteField target key
  · split
    · exact plain_missingKey key
    · split
      · exact .write _ rfl
      · exact plain_missingKey key
  · exact .bind (plain_demand _ _) fun _ => .write _ rfl
  · exact plain_raise _

theorem plain_hasItem (target key : Value) : Plain (hasItem target key) := by
  refine .bind (plain_objectOf target) fun _ => ?_
  split
  · exact .pure _
  · exact .pure _
  · exact .pure _
  · exact plain_raise _

theorem plain_length (target : Value) : Plain (length target) := by
  refine .bind (plain_objectOf target) fun _ => ?_
  split
  · exact .pure _
  · exact .pure _
  · exact .pure _
  · exact .pure _
  · exact plain_raise _

theorem plain_entriesOf (v : Value) : Plain (entriesOf v) := by
  refine .bind (plain_objectOf v) fun _ => ?_
  split
  · exact .pure _
  · exact .pure _
  · exact plain_raise _

theorem plain_newObject {o : Object} (silent : o.rows = []) : Plain (newObject o) :=
  .bind (.allocate silent) fun _ => .pure _

theorem plain_container (c : ContainerCommand) (vs : List Value) : Plain (container c vs) := by
  unfold container
  split
  · exact plain_newObject rfl
  · exact plain_newObject rfl
  · exact plain_newObject rfl
  · exact plain_heap_bind fun _ => .bind (plain_demand _ _) fun _ => .pure _
  · refine plain_heap_bind fun _ => .bind (plain_demand _ _) fun _ => ?_
    exact plain_null (.write _ rfl)
  · exact plain_getItem _ _
  · exact plain_null (plain_setItem _ _ _)
  · exact plain_null (plain_deleteItem _ _)
  · exact .bind (plain_hasItem _ _) fun _ => .pure _
  · exact .bind (plain_length _) fun _ => .pure _
  · exact plain_popField _ _ _
  · exact plain_popField _ _ _
  · exact .bind (plain_popFirst _) fun _ => plain_newObject rfl
  · exact .bind (plain_instanceOf _) fun _ => plain_null (plain_clearFields _ _)
  · exact plain_setDefault _ _ _
  · refine .bind (plain_instanceOf _) fun _ => .bind (plain_entriesOf _) fun _ => ?_
    exact plain_null (plain_setFields _ _)
  · exact plain_raise _

/-! ## Definitions -/

theorem plain_registryAt (a : Address) : Plain (registryAt a) :=
  plain_heap_bind fun _ => plain_demand _ _

theorem plain_typeOf (v : Value) : Plain (typeOf v) :=
  plain_heap_bind fun _ => plain_demand _ _

theorem plain_registryOf (v : Value) : Plain (registryOf v) :=
  plain_heap_bind fun _ => plain_demand _ _

theorem plain_addHandler (a : Address) (sel : Selector) (handler : Value) :
    Plain (addHandler a sel handler) := by
  refine .bind (plain_registryAt a) fun _ => .bind (plain_ofExcept _) fun _ => ?_
  exact .bind (.write _ rfl) fun _ => .log rfl

theorem plain_addNamed (a : Address) (selector : String) (handler : Value) :
    Plain (addNamed a selector handler) :=
  .bind (plain_ofExcept _) fun _ => plain_addHandler _ _ _

theorem plain_addHandlers (a : Address) (es : List (Selector × Value)) :
    Plain (addHandlers a es) := by
  induction es with
  | nil => exact .pure ()
  | cons e rest ih => exact .bind (plain_addHandler _ _ _) fun _ => ih

theorem plain_sealRegistry (a : Address) : Plain (sealRegistry a) :=
  .bind (plain_registryAt a) fun _ => .write _ rfl

theorem plain_sealType (a : Address) : Plain (sealType a) := by
  refine plain_heap_bind fun _ => .bind (plain_demand _ _) fun _ => ?_
  refine .bind (plain_registryAt _) fun _ => ?_
  split
  · exact .bind (plain_sealRegistry _) fun _ => .log rfl
  · exact .pure _

theorem plain_parentOf (v : Value) : Plain (parentOf v) := by
  unfold parentOf
  split
  · exact .pure _
  · exact plain_heap_bind fun _ => .bind (plain_demand _ _) fun _ => .pure _

theorem plain_openType (name : String) (parent : Option Address) : Plain (openType name parent) :=
  .bind (.allocate rfl) fun _ => .allocate rfl

theorem plain_define (name : String) (handlers : OrderedMap String Value)
    (parent : Option Address) : Plain (define name handlers parent) := by
  refine .bind (plain_openType _ _) fun _ => .bind (plain_ofExcept _) fun _ => ?_
  refine plain_heap_bind fun _ => .bind (plain_demand _ _) fun _ => ?_
  refine .bind (plain_addHandlers _ _) fun _ => ?_
  exact .bind (plain_sealType _) fun _ => .pure _

theorem plain_instantiate (type : Address) (fields : OrderedMap String Value) :
    Plain (instantiate type fields) := by
  have made : Plain (do sealType type; allocate (.inst ⟨some type, fields, none, false⟩)) :=
    .bind (plain_sealType _) fun _ => .allocate rfl
  unfold instantiate
  dsimp only
  split
  · exact .bind (plain_raise _) fun _ => made
  · exact made

theorem plain_ownRegistry (a : Address) (i : Instance) : Plain (ownRegistry a i) := by
  unfold ownRegistry
  split
  · exact .pure _
  · refine plain_heap_bind fun _ => .bind (.allocate rfl) fun _ => ?_
    exact .bind (.write _ rfl) fun _ => .pure _

theorem plain_overrideHandler (v : Value) (selector : String) (handler : Value) :
    Plain (overrideHandler v selector handler) := by
  refine plain_heap_bind fun _ => ?_
  split
  · exact plain_heap_bind fun _ => plain_raise _
  · exact .bind (plain_ownRegistry _ _) fun _ => plain_addNamed _ _ _

theorem plain_copyRegistryAt (a : Address) : Plain (copyRegistryAt a) :=
  .bind (plain_registryAt a) fun _ => .allocate rfl

theorem plain_snapshot (i : Instance) : Plain (snapshot i) := by
  have copied : Plain (i.registry.mapM copyRegistryAt) := by
    cases i.registry with
    | none => exact .pure none
    | some a => exact .bind (plain_copyRegistryAt a) fun _ => .pure _
  refine plain_heap_bind fun _ => .bind (.extend fun _ => Heap.rows_of_mem_cloneFields) fun _ => ?_
  exact .bind copied fun _ => .allocate rfl

theorem plain_definition (c : DefinitionCommand) (vs : List Value) : Plain (definition c vs) := by
  unfold definition
  split
  · refine .bind (plain_parentOf _) fun _ => ?_
    exact .bind (plain_openType _ _) fun _ => .pure _
  · refine .bind (plain_parentOf _) fun _ => ?_
    exact .bind (plain_define _ _ _) fun _ => .pure _
  · exact .bind (plain_typeOf _) fun _ => plain_null (plain_addNamed _ _ _)
  · exact plain_null (plain_overrideHandler _ _ _)
  · refine .bind (plain_typeOf _) fun _ => ?_
    exact .bind (plain_sealType _) fun _ => .pure _
  · refine .bind (plain_typeOf _) fun _ => ?_
    exact .bind (plain_instantiate _ _) fun _ => .pure _
  · exact .bind (.allocate rfl) fun _ => .pure _
  · refine .bind (plain_instanceOf _) fun _ => ?_
    exact .bind (plain_snapshot _) fun _ => .pure _
  · exact plain_newObject rfl
  · exact .bind (plain_registryOf _) fun _ => plain_null (plain_addNamed _ _ _)
  · exact .bind (plain_registryOf _) fun _ => plain_null (plain_sealRegistry _)
  · exact .bind (plain_registryOf _) fun _ => plain_newObject rfl
  · exact plain_raise _

/-! ## Inspection and native operations -/

theorem rows_readOperand (o : Operand) : (Object.reading (readOperand o)).rows = [] := by
  cases o <;> rfl

theorem plain_inspection (c : InspectionCommand) (vs : List Value) : Plain (inspection c vs) := by
  unfold inspection
  split
  · exact plain_heap_bind fun _ => .bind (plain_ofExcept _) fun _ => .pure _
  · exact .pure _
  · exact plain_heap_bind fun _ => .pure _
  · exact plain_heap_bind fun _ => .pure _
  · refine .bind (plain_typeOf _) fun _ => .bind (plain_typeOf _) fun _ => ?_
    exact plain_heap_bind fun _ => .pure _
  · exact .bind (plain_typeOf _) fun _ => plain_heap_bind fun _ => plain_newObject rfl
  · exact plain_heap_bind fun _ => plain_newObject (rows_readOperand _)
  · refine .bind (plain_ofExcept _) fun _ => plain_heap_bind fun _ => ?_
    refine plain_heap_bind fun _ => ?_
    split
    · exact .pure _
    · exact .pure _
  · refine plain_heap_bind fun _ => ?_
    split
    · exact plain_heap_bind fun _ => .pure _
    · exact plain_raise _
  · exact .bind (plain_typeOf _) fun _ => .pure _
  · exact .bind (plain_instanceOf _) fun _ => .pure _
  · refine .bind (plain_registryOf _) fun _ => ?_
    exact .bind (plain_ofExcept _) fun _ => .pure _
  · exact plain_raise _

theorem plain_ofNative (r : Except NativeFault Primitive) : Plain (ofNative r) := by
  cases r with
  | ok p => exact .pure _
  | error fault => exact plain_raise _

theorem plain_native (sel : Selector) (vs : List Value) : Plain (native sel vs) := by
  unfold native
  split
  · exact plain_heap_bind fun _ => .bind (plain_ofExcept _) fun _ => plain_ofNative _
  · refine plain_heap_bind fun _ => .bind (plain_ofExcept _) fun _ => ?_
    exact plain_heap_bind fun _ => .bind (plain_ofExcept _) fun _ => plain_ofNative _
  · exact plain_raise _

end Action

end OperatorDispatch
