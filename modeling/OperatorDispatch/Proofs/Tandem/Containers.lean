import OperatorDispatch.Proofs.Tandem

/-!
# Containers in tandem

Cells, lists, maps and the fields of instances are read and written alike on the two
sides of a gap.  Keys are texts, positions in a list are numbers, and neither has
addresses in it; so a key finds on one side what it finds on the other.
-/

namespace OperatorDispatch
namespace Action

variable {α : Type} [Movable α] {g : Gap}

/-! ## Containers -/

theorem tandem_missingKey (key : Value) :
    Tandem g (missingKey key : Action α) (missingKey (across g key)) := by
  refine tandem_heap_bind fun h h' moved => ?_
  rw [moved.keyText]
  exact tandem_raise _

/-- What refuses a write to a read-only instance. -/
theorem tandem_readOnly (i : Instance) {f f' : Unit → Action α}
    (hf : ∀ x, Tandem g (f x) (f' x)) :
    Tandem g (do raise (.readOnly ((← heap).typeNameOf i)) >>= f)
      (do raise (.readOnly ((← heap).typeNameOf (across g i))) >>= f') := by
  refine tandem_heap_bind fun h h' moved => ?_
  rw [moved.typeNameOf]
  exact tandem_bind (tandem_raise _) hf

section Containers

variable (v : Value)

theorem tandem_instanceOf_bind {f f' : Address × Instance → Action α}
    (hf : ∀ a i, Tandem g (f (a, i)) (f' (g.shift a, across g i))) :
    Tandem g (instanceOf v >>= f) (instanceOf (across g v) >>= f') := by
  have found : Tandem g (instanceOf v) (instanceOf (across g v)) := by
    refine tandem_heap_bind fun h h' moved => ?_
    rw [moved.instanceOf?]
    exact tandem_demand _ _
  exact tandem_bind found fun x => hf x.1 x.2

theorem tandem_objectOf_bind {f f' : Address × Object → Action α}
    (hf : ∀ a o o', o.Matches g o' → Tandem g (f (a, o)) (f' (g.shift a, o'))) :
    Tandem g (objectOf v >>= f) (objectOf (across g v) >>= f') := by
  simp only [objectOf, bind_assoc, pure_bind, Value.address?_across]
  refine tandem_demand_bind fun a => tandem_heap_bind fun h h' moved => ?_
  refine moved.lookup a (fun _ _ hs => .error _ hs) fun o o' matching => ?_
  exact hf a o o' matching

variable (target key : Value)

theorem tandem_writeFields (a : Address) (i : Instance) (fields : OrderedMap String Value) :
    Tandem g (writeFields a i fields) (writeFields (g.shift a) (across g i) (across g fields)) := by
  have written : Tandem g (write a (.inst { i with fields }))
      (write (g.shift a) (.inst { across g i with fields := across g fields })) :=
    tandem_write a (.inst { i with fields }) rfl
  have mark : (across g i).readOnly = i.readOnly := rfl
  unfold writeFields
  rw [mark]
  dsimp only
  split
  · exact tandem_readOnly i fun _ => written
  · exact written

theorem tandem_setField (name : String) :
    Tandem g (setField target name v) (setField (across g target) name (across g v)) := by
  refine tandem_instanceOf_bind target fun a i => ?_
  have inserted : (across g i).fields.insert name (across g v) =
      across g (i.fields.insert name v) := OrderedMap.insert_mapValues (across g) i.fields name v
  show Tandem g (writeFields a i _) (writeFields _ (across g i) _)
  rw [inserted]
  exact tandem_writeFields a i _

theorem tandem_deleteField :
    Tandem g (deleteField target key) (deleteField (across g target) (across g key)) := by
  refine tandem_instanceOf_bind target fun a i => ?_
  have mark : (across g i).readOnly = i.readOnly := rfl
  dsimp only
  rw [mark, Value.key?_across]
  cases key.key? with
  | none =>
      have missing : Tandem g (missingKey key : Action Unit) (missingKey (across g key)) :=
        tandem_missingKey key
      split
      · exact tandem_readOnly i fun _ => missing
      · exact missing
  | some k =>
      have deleted : Tandem g
          (if i.fields.contains k then writeFields a i (i.fields.erase k) else missingKey key)
          (if (across g i).fields.contains k then
            writeFields (g.shift a) (across g i) ((across g i).fields.erase k)
          else missingKey (across g key)) := by
        have contained : (across g i).fields.contains k = i.fields.contains k :=
          OrderedMap.contains_mapValues (across g) i.fields k
        have erased : (across g i).fields.erase k = across g (i.fields.erase k) :=
          OrderedMap.erase_mapValues (across g) i.fields k
        rw [contained, erased]
        split
        · exact tandem_writeFields a i _
        · exact tandem_missingKey key
      split
      · exact tandem_readOnly i fun _ => deleted
      · exact deleted

/-- The value of a key, if there is one. -/
theorem find_across (fields : OrderedMap String Value) :
    (across g key).key?.bind (across g fields).get? = across g (key.key?.bind fields.get?) := by
  rw [Value.key?_across]
  cases key.key? with
  | none => rfl
  | some k => exact OrderedMap.get?_mapValues (across g) fields k

theorem tandem_getField :
    Tandem g (getField target key) (getField (across g target) (across g key)) := by
  refine tandem_instanceOf_bind target fun a i => ?_
  have found : (across g key).key?.bind (across g i).fields.get? =
      across g (key.key?.bind i.fields.get?) := find_across key i.fields
  dsimp only
  rw [found]
  cases key.key?.bind i.fields.get? with
  | some v => exact tandem_pure v
  | none => exact tandem_missingKey key

theorem tandem_popField (default : Option Value) :
    Tandem g (popField target key default)
      (popField (across g target) (across g key) (across g default)) := by
  refine tandem_instanceOf_bind target fun a i => ?_
  have found : (across g key).key?.bind (across g i).fields.get? =
      across g (key.key?.bind i.fields.get?) := find_across key i.fields
  dsimp only
  rw [found]
  cases key.key?.bind i.fields.get? with
  | some v => exact tandem_bind (tandem_deleteField target key) fun _ => tandem_pure v
  | none =>
      cases default with
      | some d => exact tandem_pure d
      | none => exact tandem_missingKey key

theorem tandem_popFirst : Tandem g (popFirst target) (popFirst (across g target)) := by
  refine tandem_instanceOf_bind target fun a i => ?_
  obtain ⟨type, ⟨entries, distinct⟩, registry, readOnly⟩ := i
  cases entries with
  | nil => exact tandem_raise _
  | cons e rest =>
      exact tandem_bind (tandem_deleteField target (.text e.1)) fun _ => tandem_pure (e.1, e.2)

theorem tandem_clearFields (fields : List (String × Value)) :
    Tandem g (clearFields target fields) (clearFields (across g target) (across g fields)) := by
  induction fields with
  | nil => exact tandem_pure ()
  | cons e rest ih => exact tandem_bind (tandem_deleteField target (.text e.1)) fun _ => ih

theorem tandem_setDefault :
    Tandem g (setDefault target key v)
      (setDefault (across g target) (across g key) (across g v)) := by
  refine tandem_instanceOf_bind target fun a i => ?_
  dsimp only
  rw [Value.key?_across]
  cases key.key? with
  | none => exact tandem_raise _
  | some k =>
      have found : (across g i).fields.get? k = across g (i.fields.get? k) :=
        OrderedMap.get?_mapValues (across g) i.fields k
      dsimp only
      rw [found]
      cases i.fields.get? k with
      | some w => exact tandem_pure w
      | none => exact tandem_bind (tandem_setField v target k) fun _ => tandem_pure v

theorem tandem_setFields (fields : List (String × Value)) :
    Tandem g (setFields target fields) (setFields (across g target) (across g fields)) := by
  induction fields with
  | nil => exact tandem_pure ()
  | cons e rest ih => exact tandem_bind (tandem_setField e.2 target e.1) fun _ => ih

/-! ### Any container -/

theorem tandem_getItem :
    Tandem g (getItem target key) (getItem (across g target) (across g key)) := by
  refine tandem_objectOf_bind target fun a o o' matching => ?_
  cases matching with
  | inst i => exact tandem_getField target key
  | dict es =>
      have found := find_across (g := g) key es
      dsimp only
      rw [found]
      cases key.key?.bind es.get? with
      | some w => exact tandem_pure w
      | none => exact tandem_missingKey key
  | list vs =>
      have found : (listIndex? (across g vs).length (across g key)).bind ((across g vs)[·]?) =
          across g ((listIndex? vs.length key).bind (vs[·]?)) := by
        have length : (across g vs).length = vs.length := List.length_map _
        rw [listIndex?_across, length]
        cases listIndex? vs.length key with
        | none => rfl
        | some n => exact List.getElem?_map
      dsimp only
      rw [found]
      exact tandem_demand _ _
  | typeDefinition | registry | cell | reading => exact tandem_raise _

theorem tandem_setItem :
    Tandem g (setItem target key v) (setItem (across g target) (across g key) (across g v)) := by
  refine tandem_objectOf_bind target fun a o o' matching => ?_
  cases matching with
  | inst i =>
      dsimp only
      rw [Value.key?_across]
      exact tandem_demand_same fun k => tandem_setField v target k
  | dict es =>
      dsimp only
      rw [Value.key?_across]
      refine tandem_demand_same fun k => ?_
      have inserted : (across g es).insert k (across g v) = across g (es.insert k v) :=
        OrderedMap.insert_mapValues (across g) es k v
      rw [inserted]
      exact tandem_write a (.dict _) rfl
  | list vs =>
      have length : (across g vs).length = vs.length := List.length_map _
      dsimp only
      rw [listIndex?_across, length]
      refine tandem_demand_same fun n => ?_
      have stored : (across g vs).set n (across g v) = across g (vs.set n v) :=
        (List.map_set).symm
      rw [stored]
      exact tandem_write a (.list _) rfl
  | typeDefinition | registry | cell | reading => exact tandem_raise _

theorem tandem_deleteItem :
    Tandem g (deleteItem target key) (deleteItem (across g target) (across g key)) := by
  refine tandem_objectOf_bind target fun a o o' matching => ?_
  cases matching with
  | inst i => exact tandem_deleteField target key
  | dict es =>
      dsimp only
      rw [Value.key?_across]
      cases key.key? with
      | none => exact tandem_missingKey key
      | some k =>
          have contained : (across g es).contains k = es.contains k :=
            OrderedMap.contains_mapValues (across g) es k
          have erased : (across g es).erase k = across g (es.erase k) :=
            OrderedMap.erase_mapValues (across g) es k
          dsimp only
          rw [contained, erased]
          split
          · exact tandem_write a (.dict _) rfl
          · exact tandem_missingKey key
  | list vs =>
      have length : (across g vs).length = vs.length := List.length_map _
      dsimp only
      rw [listIndex?_across, length]
      refine tandem_demand_same fun n => ?_
      have erased : (across g vs).eraseIdx n = across g (vs.eraseIdx n) :=
        List.eraseIdx_map ..
      rw [erased]
      exact tandem_write a (.list _) rfl
  | typeDefinition | registry | cell | reading => exact tandem_raise _

theorem tandem_hasItem :
    Tandem g (hasItem target key) (hasItem (across g target) (across g key)) := by
  have found (fields : OrderedMap String Value) :
      ((across g key).key?.bind (across g fields).get?).isSome =
        (key.key?.bind fields.get?).isSome := by
    rw [find_across]
    cases key.key?.bind fields.get? <;> rfl
  refine tandem_objectOf_bind target fun a o o' matching => ?_
  cases matching with
  | inst i =>
      show Tandem g _ (pure ((across g key).key?.bind (across g i.fields).get?).isSome)
      rw [found]
      exact tandem_pure _
  | dict es =>
      dsimp only
      rw [found]
      exact tandem_pure _
  | list vs =>
      have held : ∀ x x' : Bool, x' = x → Tandem g (pure x : Action Bool) (pure x') := by
        rintro _ x rfl
        exact tandem_pure x
      refine held _ _ ?_
      show (vs.map (across g)).any _ = vs.any _
      rw [List.any_map]
      refine congrArg vs.any (funext fun v => ?_)
      cases v with
      | primitive | function => cases key <;> rfl
      | object a =>
          cases key with
          | primitive | function => rfl
          | object b => exact Value.identical_across g (.object a) (.object b)
  | typeDefinition | registry | cell | reading => exact tandem_raise _

theorem tandem_length : Tandem g (length target) (length (across g target)) := by
  refine tandem_objectOf_bind target fun a o o' matching => ?_
  cases matching with
  | inst i =>
      have size : (across g i).fields.size = i.fields.size := List.length_map _
      dsimp only
      rw [size]
      exact tandem_pure i.fields.size
  | dict es =>
      have size : (across g es).size = es.size := List.length_map _
      dsimp only
      rw [size]
      exact tandem_pure es.size
  | list vs =>
      have length : (across g vs).length = vs.length := List.length_map _
      dsimp only
      rw [length]
      exact tandem_pure vs.length
  | registry r => exact tandem_pure r.handlers.size
  | typeDefinition | cell | reading => exact tandem_raise _

theorem tandem_entriesOf : Tandem g (entriesOf v) (entriesOf (across g v)) := by
  refine tandem_objectOf_bind v fun a o o' matching => ?_
  cases matching with
  | inst i => exact tandem_pure i.fields.entries
  | dict es => exact tandem_pure es.entries
  | typeDefinition | registry | cell | list | reading => exact tandem_raise _

end Containers

theorem tandem_newObject {o o' : Object} (matching : o.Matches g o') (root : o.parent? = none) :
    Tandem g (newObject o) (newObject o') :=
  tandem_bind (tandem_allocate matching root) fun a => tandem_pure (Value.object a)

theorem tandem_cellOf_bind {v : Value} {f f' : Address × Value → Action α}
    (hf : ∀ a w, Tandem g (f (a, w)) (f' (g.shift a, across g w))) :
    Tandem g (heap >>= fun h => demand .unusable (h.cellOf? v) >>= f)
      (heap >>= fun h => demand .unusable (h.cellOf? (across g v)) >>= f') := by
  refine tandem_heap_bind fun h h' moved => ?_
  rw [moved.cellOf?]
  exact tandem_demand_bind fun x => hf x.1 x.2

theorem tandem_container (c : ContainerCommand) (vs : List Value) :
    Tandem g (container c vs) (container c (across g vs)) := by
  have unusable : Tandem g (raise .unusable : Action Value) (raise .unusable) := tandem_raise _
  cases c with
  | newList => exact tandem_newObject (.list vs) rfl
  | newDict keys =>
      show Tandem g (newObject _) (newObject (.dict (entriesFrom keys (across g vs))))
      rw [entriesFrom_across]
      exact tandem_newObject (.dict _) rfl
  | newCell =>
      match vs with
      | [v] => exact tandem_newObject (.cell v) rfl
      | [] | _ :: _ :: _ => exact unusable
  | readCell =>
      match vs with
      | [c] => exact tandem_cellOf_bind fun a w => tandem_pure w
      | [] | _ :: _ :: _ => exact unusable
  | writeCell =>
      match vs with
      | [c, v] => exact tandem_cellOf_bind fun a w => tandem_null (tandem_write a (.cell v) rfl)
      | [] | [_] | _ :: _ :: _ :: _ => exact unusable
  | get =>
      match vs with
      | [o, k] => exact tandem_getItem o k
      | [] | [_] | _ :: _ :: _ :: _ => exact unusable
  | set =>
      match vs with
      | [o, k, v] => exact tandem_null (tandem_setItem v o k)
      | [] | [_] | [_, _] | _ :: _ :: _ :: _ :: _ => exact unusable
  | delete =>
      match vs with
      | [o, k] => exact tandem_null (tandem_deleteItem o k)
      | [] | [_] | _ :: _ :: _ :: _ => exact unusable
  | has =>
      match vs with
      | [o, k] => exact tandem_bind (tandem_hasItem o k) fun b => tandem_pure (Value.boolean b)
      | [] | [_] | _ :: _ :: _ :: _ => exact unusable
  | length =>
      match vs with
      | [o] => exact tandem_bind (tandem_length o) fun n => tandem_pure (Value.integer n)
      | [] | _ :: _ :: _ => exact unusable
  | pop =>
      match vs with
      | [o, k] => exact tandem_popField o k none
      | [o, k, d] => exact tandem_popField o k (some d)
      | [] | [_] | _ :: _ :: _ :: _ :: _ => exact unusable
  | popItem =>
      match vs with
      | [o] =>
          exact tandem_bind (tandem_popFirst o) fun e =>
            tandem_newObject (.list [.text e.1, e.2]) rfl
      | [] | _ :: _ :: _ => exact unusable
  | clear =>
      match vs with
      | [o] =>
          exact tandem_instanceOf_bind o fun a i =>
            tandem_null (tandem_clearFields o i.fields.entries)
      | [] | _ :: _ :: _ => exact unusable
  | setDefault =>
      match vs with
      | [o, k, d] => exact tandem_setDefault d o k
      | [] | [_] | [_, _] | _ :: _ :: _ :: _ :: _ => exact unusable
  | merge =>
      match vs with
      | [o, m] =>
          exact tandem_instanceOf_bind o fun a i => tandem_bind (tandem_entriesOf m) fun es =>
            tandem_null (tandem_setFields o es)
      | [] | [_] | _ :: _ :: _ :: _ => exact unusable

end Action
end OperatorDispatch
