import OperatorDispatch.Proofs.Tandem.Containers

/-!
# Definitions in tandem

Types, registries, instances and snapshots are made alike on the two sides of a gap.
The one thing to see to is that a parent stays older than its children: a type is
opened under a type that has been looked up, which is why the rules for opening one are
about two runs from two given states (`endTandem_openType`).
-/

namespace OperatorDispatch
namespace Action

variable {α : Type} [Movable α] {g : Gap} {s s' : State}

/-! ## Definitions -/

theorem tandem_registryAt (a : Address) :
    Tandem g (registryAt a) (registryAt (g.shift a)) := by
  refine tandem_heap_bind fun h h' moved => ?_
  rw [moved.registryAt?]
  cases h.registryAt? a with
  | none => exact tandem_raise _
  | some r => exact tandem_pure r

theorem tandem_typeOf_bind (v : Value) {f f' : Address × TypeDefinition → Action α}
    (hf : ∀ a t, Tandem g (f (a, t)) (f' (g.shift a, across g t))) :
    Tandem g (typeOf v >>= f) (typeOf (across g v) >>= f') := by
  have found : Tandem g (typeOf v) (typeOf (across g v)) := by
    refine tandem_heap_bind fun h h' moved => ?_
    rw [moved.typeOf?]
    exact tandem_demand _ _
  exact tandem_bind found fun x => hf x.1 x.2

theorem tandem_registryOf_bind (v : Value) {f f' : Address × Registry → Action α}
    (hf : ∀ a r, Tandem g (f (a, r)) (f' (g.shift a, r))) :
    Tandem g (registryOf v >>= f) (registryOf (across g v) >>= f') := by
  have found : Tandem g (registryOf v) (registryOf (across g v)) := by
    refine tandem_heap_bind fun h h' moved => ?_
    rw [moved.registryOf?]
    exact tandem_demand _ _
  exact tandem_bind found fun x => hf x.1 x.2

theorem tandem_addHandler (a : Address) (sel : Selector) (handler : Value) :
    Tandem g (addHandler a sel handler) (addHandler (g.shift a) sel (across g handler)) := by
  refine tandem_bind (tandem_registryAt a) fun r => ?_
  have added : (across g r).add sel (across g handler) = r.add sel handler := by
    show Registry.add r sel _ = _
    unfold Registry.add
    rw [Value.function?_across]
  rw [added]
  refine tandem_ofExcept_same fun r' => ?_
  exact tandem_bind (tandem_write a (.registry r') rfl) fun _ => tandem_log _

theorem tandem_addNamed (a : Address) (selector : String) (handler : Value) :
    Tandem g (addNamed a selector handler) (addNamed (g.shift a) selector (across g handler)) :=
  tandem_ofExcept_same fun sel => tandem_addHandler a sel handler

theorem tandem_addHandlers (a : Address) (es : List (Selector × Value)) :
    Tandem g (addHandlers a es) (addHandlers (g.shift a) (across g es)) := by
  induction es with
  | nil => exact tandem_pure ()
  | cons e rest ih => exact tandem_bind (tandem_addHandler a e.1 e.2) fun _ => ih

theorem tandem_sealRegistry (a : Address) :
    Tandem g (sealRegistry a) (sealRegistry (g.shift a)) :=
  tandem_bind (tandem_registryAt a) fun _ => tandem_write a (.registry _) rfl

theorem tandem_typeAt_bind (a : Address) {f f' : TypeDefinition → Action α}
    (hf : ∀ t, Tandem g (f t) (f' (across g t))) :
    Tandem g (heap >>= fun h => demand .unusable (h.typeAt? a) >>= f)
      (heap >>= fun h => demand .unusable (h.typeAt? (g.shift a)) >>= f') := by
  refine tandem_heap_bind fun h h' moved => ?_
  rw [moved.typeAt?]
  exact tandem_demand_bind hf

theorem tandem_sealType (a : Address) : Tandem g (sealType a) (sealType (g.shift a)) := by
  refine tandem_typeAt_bind a fun t => tandem_bind (tandem_registryAt t.registry) fun r => ?_
  show Tandem g (if !r.isSealed then _ else _) (if !r.isSealed then _ else _)
  split
  · exact tandem_bind (tandem_sealRegistry t.registry) fun _ => tandem_log _
  · exact tandem_pure ()

theorem findSelectors_across (es : List (String × Value)) :
    findSelectors (across g es) = across g (findSelectors es) := by
  induction es with
  | nil => rfl
  | cons e rest ih =>
      show findSelectors ((e.1, across g e.2) :: across g rest) = _
      rw [findSelectors, findSelectors, ih]
      cases findSelector e.1 with
      | error fault => rfl
      | ok s => cases findSelectors rest <;> rfl

theorem sortBySelector_across (es : List (Selector × Value)) :
    sortBySelector (across g es) = across g (sortBySelector es) := by
  have insert (e : Selector × Value) (es : List (Selector × Value)) :
      insertBySelector (across g e) (across g es) = across g (insertBySelector e es) := by
    induction es with
    | nil => rfl
    | cons f fs ih =>
        show (if e.1.rank ≤ f.1.rank then _
          else across g f :: insertBySelector (across g e) (across g fs)) = _
        rw [ih, insertBySelector]
        split <;> rfl
  induction es with
  | nil => rfl
  | cons e rest ih =>
      show insertBySelector (across g e) (sortBySelector (across g rest)) = _
      rw [ih]
      exact insert e _

/-- A new type goes above its parent. -/
theorem endTandem_openType {name : String} {parent : Option Address} (hs : s.Displaced g s')
    (there : ∀ p, parent = some p → p.index < s.heap.size) :
    EndTandem g (openType name parent s) (openType name (across g parent) s') := by
  have registry : Tandem g (allocate (.registry (.fresh ("type '" ++ name ++ "'") false)))
      (allocate (.registry (.fresh ("type '" ++ name ++ "'") false))) :=
    tandem_allocate (.registry _) rfl
  refine (registry s s' hs).bind fun r t t' made ht => ?_
  refine endTandem_allocate ht (.typeDefinition ⟨name, parent, r⟩) fun p hp => ?_
  have grown : t.heap.size = s.heap.size + 1 := by
    cases made
    exact Heap.size_allocate _ _
  have := there p hp
  omega

theorem tandem_parentOf (v : Value) : Tandem g (parentOf v) (parentOf (across g v)) := by
  have read : Tandem g
      (do return some (← demand .unusable ((← heap).typeOf? v)).1 : Action (Option Address))
      (do return some (← demand .unusable ((← heap).typeOf? (across g v))).1) := by
    refine tandem_heap_bind fun h h' moved => ?_
    rw [moved.typeOf?]
    exact tandem_demand_bind fun x => tandem_pure (some x.1)
  cases v with
  | primitive p =>
      cases p with
      | null => exact tandem_pure (none : Option Address)
      | boolean | integer | double | text => exact read
  | function | object => exact read

/-- A parent is a type definition that is there. -/
theorem lt_of_parentOf {v : Value} {parent : Option Address} {t : State}
    (h : parentOf v s = .ok parent t) : t = s ∧ ∀ p, parent = some p → p.index < s.heap.size := by
  have run : Runs (fun _ _ => False) s (parentOf v)
      fun parent _ => ∀ p, parent = some p → p.index < s.heap.size := by
    unfold parentOf
    split
    · exact runs_pure (by simp)
    · refine runs_heap_bind (runs_demand_bind ?_)
      rintro ⟨a, t⟩ hvt
      refine runs_pure ?_
      rintro p ⟨⟩
      exact Heap.lt_size_of_get? (Heap.typeOf?_eq_some.mp hvt).2
  obtain ⟨steps, bound⟩ := run.reached h
  rcases Relation.ReflTransGen.cases_tail steps with same | ⟨_, _, ⟨⟩⟩
  exact ⟨same, bound⟩

theorem endTandem_parentOf_bind (v : Value) (hs : s.Displaced g s')
    {f f' : Option Address → Action α}
    (hf : ∀ parent t', s.Displaced g t' → (∀ p, parent = some p → p.index < s.heap.size) →
      EndTandem g (f parent s) (f' (across g parent) t')) :
    EndTandem g ((parentOf v >>= f) s) ((parentOf (across g v) >>= f') s') := by
  refine (tandem_parentOf v s s' hs).bind fun parent t t' read ht => ?_
  obtain ⟨rfl, bound⟩ := lt_of_parentOf read
  exact hf parent t' ht bound

theorem endTandem_define {name : String} {handlers : OrderedMap String Value}
    {parent : Option Address} (hs : s.Displaced g s')
    (there : ∀ p, parent = some p → p.index < s.heap.size) :
    EndTandem g (define name handlers parent s)
      (define name (across g handlers) (across g parent) s') := by
  refine (endTandem_openType hs there).bind fun a t t' _ ht => ?_
  have entries : findSelectors (across g handlers).entries =
      across g (findSelectors handlers.entries) := findSelectors_across handlers.entries
  rw [entries]
  refine tandem_ofExcept_bind (fun es => ?_) t t' ht
  refine tandem_typeAt_bind a fun type => ?_
  rw [sortBySelector_across]
  refine tandem_bind (tandem_addHandlers type.registry _) fun _ => ?_
  exact tandem_bind (tandem_sealType a) fun _ => tandem_pure a

/-! ### Instances -/

theorem tandem_instantiate (type : Address) (fields : OrderedMap String Value) :
    Tandem g (instantiate type fields) (instantiate (g.shift type) (across g fields)) := by
  have made : Tandem g (do sealType type; allocate (.inst ⟨some type, fields, none, false⟩))
      (do sealType (g.shift type)
          allocate (.inst ⟨some (g.shift type), across g fields, none, false⟩)) :=
    tandem_bind (tandem_sealType type) fun _ =>
      tandem_allocate (.inst ⟨some type, fields, none, false⟩) rfl
  have contained : (across g fields).contains reservedField = fields.contains reservedField :=
    OrderedMap.contains_mapValues (across g) fields reservedField
  unfold instantiate
  rw [contained]
  dsimp only
  split
  · exact tandem_bind (tandem_raise _) fun _ => made
  · exact made

theorem tandem_ownRegistry (a : Address) (i : Instance) :
    Tandem g (ownRegistry a i) (ownRegistry (g.shift a) (across g i)) := by
  have given : (across g i).registry = across g i.registry := rfl
  unfold ownRegistry
  rw [given]
  cases hi : i.registry with
  | some r => exact tandem_pure r
  | none =>
      refine tandem_heap_bind fun h h' moved => ?_
      rw [moved.typeNameOf]
      refine tandem_bind (tandem_allocate (.registry _) rfl) fun r => ?_
      have write := tandem_write (g := g) a (.inst { i with registry := some r }) rfl
      exact tandem_bind write fun _ => tandem_pure r

theorem tandem_overrideHandler (v : Value) (selector : String) (handler : Value) :
    Tandem g (overrideHandler v selector handler)
      (overrideHandler (across g v) selector (across g handler)) := by
  refine tandem_heap_bind fun h h' moved => ?_
  rw [moved.instanceOf?]
  cases h.instanceOf? v with
  | none =>
      refine tandem_heap_bind fun h h' moved => ?_
      rw [moved.kindName]
      exact tandem_raise _
  | some x =>
      exact tandem_bind (tandem_ownRegistry x.1 x.2) fun r => tandem_addNamed r selector handler

/-! ### Snapshots -/

theorem tandem_copyRegistryAt (a : Address) :
    Tandem g (copyRegistryAt a) (copyRegistryAt (g.shift a)) :=
  tandem_bind (tandem_registryAt a) fun _ => tandem_allocate (.registry _) rfl

/-- No clone has a parent, since types are not copied. -/
theorem root_of_mem_clones {h : Heap} {roots : List Address} {o : Object}
    (ho : o ∈ h.clones (h.closure roots)) : o.parent? = none := by
  obtain ⟨a, ha, hoa⟩ := List.mem_filterMap.mp ho
  obtain ⟨p, hp⟩ := Heap.copied?_of_mem_closure ha
  obtain ⟨hp, copied⟩ := Heap.copied?_eq_some.mp hp
  rw [hp] at hoa
  cases hoa
  cases p with
  | typeDefinition t => cases copied
  | inst | registry | cell | list | dict | reading => rfl

theorem tandem_snapshot (i : Instance) : Tandem g (snapshot i) (snapshot (across g i)) := by
  have copied : Tandem g (i.registry.mapM copyRegistryAt)
      ((across g i).registry.mapM copyRegistryAt) := by
    show Tandem g _ ((across g i.registry).mapM copyRegistryAt)
    cases i.registry with
    | none => exact tandem_pure none
    | some a => exact tandem_bind (tandem_copyRegistryAt a) fun r => tandem_pure (some r)
  refine tandem_heap_bind fun h h' moved => ?_
  obtain ⟨fields, clones⟩ := moved.cloneFields i.fields
  have roots : ∀ o ∈ (h.cloneFields i.fields).2, o.parent? = none :=
    fun _ ho => root_of_mem_clones ho
  show Tandem g (extend (h.cloneFields i.fields).2 >>= fun _ => _)
    (extend (h'.cloneFields (across g i.fields)).2 >>= fun _ => _)
  refine tandem_bind (tandem_extend clones roots) fun _ => tandem_bind copied fun registry => ?_
  show Tandem g _ (allocate (.inst ⟨across g i.type, (h'.cloneFields (across g i.fields)).1,
    across g registry, true⟩))
  rw [fields]
  exact tandem_allocate (.inst ⟨i.type, (h.cloneFields i.fields).1, registry, true⟩) rfl

theorem tandem_definition (c : DefinitionCommand) (vs : List Value) :
    Tandem g (definition c vs) (definition c (across g vs)) := by
  have unusable : Tandem g (raise .unusable : Action Value) (raise .unusable) := tandem_raise _
  have object (a : Address) : Tandem g (pure (Value.object a)) (pure (Value.object (g.shift a))) :=
    tandem_pure (Value.object a)
  match c with
  | .openType name =>
      match vs with
      | [parent] =>
          intro s s' hs
          refine endTandem_parentOf_bind parent hs fun p t' ht there => ?_
          exact (endTandem_openType ht there).bind fun a u u' _ hu => object a u u' hu
      | [] | _ :: _ :: _ => exact unusable
  | .define name selectors =>
      intro s s' hs
      show EndTandem g _ ((parentOf ((across g vs).getLast?.getD .null) >>= fun parent =>
        define name (entriesFrom selectors (across g vs).dropLast) parent >>= fun a =>
          pure (Value.object a)) s')
      rw [getLastD_across, dropLast_across, entriesFrom_across]
      refine endTandem_parentOf_bind _ hs fun p t' ht there => ?_
      exact (endTandem_define ht there).bind fun a u u' _ hu => object a u u' hu
  | .register name =>
      match vs with
      | [type, handler] =>
          exact tandem_typeOf_bind type fun a t =>
            tandem_null (tandem_addNamed t.registry name handler)
      | [] | [_] | _ :: _ :: _ :: _ => exact unusable
  | .override name =>
      match vs with
      | [v, handler] => exact tandem_null (tandem_overrideHandler v name handler)
      | [] | [_] | _ :: _ :: _ :: _ => exact unusable
  | .seal =>
      match vs with
      | [type] =>
          exact tandem_typeOf_bind type fun a t =>
            tandem_bind (tandem_sealType a) fun _ => tandem_pure type
      | [] | _ :: _ :: _ => exact unusable
  | .instantiate fields =>
      match vs with
      | type :: vs =>
          refine tandem_typeOf_bind type fun a t => ?_
          show Tandem g _ (instantiate (g.shift a) (entriesFrom fields (across g vs)) >>= _)
          rw [entriesFrom_across]
          exact tandem_bind (tandem_instantiate a _) object
      | [] => exact unusable
  | .record fields =>
      show Tandem g _ (newRecord (entriesFrom fields (across g vs)) >>= fun a =>
        pure (Value.object a))
      rw [entriesFrom_across]
      exact tandem_bind (tandem_allocate (.inst ⟨none, _, none, false⟩) rfl) object
  | .snapshot =>
      match vs with
      | [v] => exact tandem_instanceOf_bind v fun a i => tandem_bind (tandem_snapshot i) object
      | [] | _ :: _ :: _ => exact unusable
  | .newRegistry owner allowReplace =>
      match vs with
      | [] => exact tandem_newObject (.registry _) rfl
      | _ :: _ => exact unusable
  | .addTo name =>
      match vs with
      | [registry, handler] =>
          exact tandem_registryOf_bind registry fun a r =>
            tandem_null (tandem_addNamed a name handler)
      | [] | [_] | _ :: _ :: _ :: _ => exact unusable
  | .sealRegistry =>
      match vs with
      | [registry] =>
          exact tandem_registryOf_bind registry fun a r => tandem_null (tandem_sealRegistry a)
      | [] | _ :: _ :: _ => exact unusable
  | .copyRegistry owner =>
      match vs with
      | [registry] =>
          exact tandem_registryOf_bind registry fun a r => tandem_newObject (.registry _) rfl
      | [] | _ :: _ :: _ => exact unusable

end Action
end OperatorDispatch
