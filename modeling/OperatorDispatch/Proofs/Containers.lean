import OperatorDispatch.Container
import OperatorDispatch.Proofs.Confinement

/-!
# Containers inside a scope

Spec lemmas for the access to fields, maps, lists and cells: from a confined
state, with operands that the scope knows and a target that it may write to,
each goes through steps of the scope only, and what it hands back is known.
-/

namespace OperatorDispatch

/-! ## Known contents -/

namespace Scope.Covers

variable {S : Scope} {h : Heap} {a : Address} (hc : S.Covers h)

include hc

theorem known_field {v w : Value} {i : Instance} (hv : S.Knows h v) (ha : v = .object a)
    (hi : h.get? a = some (.inst i)) (hw : w ∈ i.fields.values) : S.Knows h w := by
  subst ha
  exact (hc.object a _ hv.1 hi).1 w hw

theorem known_entry {v w : Value} {es : OrderedMap String Value} (hv : S.Knows h v)
    (ha : v = .object a) (hes : h.get? a = some (.dict es)) (hw : w ∈ es.values) :
    S.Knows h w := by
  subst ha
  exact hc.object a _ hv.1 hes w hw

theorem known_item {v w : Value} {vs : List Value} (hv : S.Knows h v) (ha : v = .object a)
    (hvs : h.get? a = some (.list vs)) (hw : w ∈ vs) : S.Knows h w := by
  subst ha
  exact hc.object a _ hv.1 hvs w hw

theorem known_content {v w : Value} (hv : S.Knows h v) (ha : v = .object a)
    (hw : h.get? a = some (.cell w)) : S.Knows h w := by
  subst ha
  exact hc.object a _ hv.1 hw

end Scope.Covers

namespace Action

variable {S : Scope} {s : State} {α : Type} {Q : α → State → Prop}

/-! ## Fields -/

theorem runs_missingKey {key : Value} : Runs S.Step s (missingKey key : Action α) Q :=
  runs_heap_bind runs_raise

theorem runs_instanceOf_bind {target : Value} {f : Address × Instance → Action α}
    (h : ∀ a i, target = .object a → s.heap.get? a = some (.inst i) →
      Runs S.Step s (f (a, i)) Q) :
    Runs S.Step s (instanceOf target >>= f) Q := by
  refine runs_bind_congr (demand .unusable (s.heap.instanceOf? target)) rfl ?_
  refine runs_demand_bind ?_
  rintro ⟨a, i⟩ hi
  obtain ⟨ha, hi⟩ := Heap.instanceOf?_eq_some.mp hi
  exact h a i ha hi

/-- A write as a step on the heap. -/
theorem runs_write {a : Address} {o : Object} (hc : S.Change s.heap (s.heap.update a o)) :
    Runs S.Step s (write a o) fun _ _ => True :=
  runs_step rfl (.heap hc) trivial

theorem runs_writeFields {a : Address} {i : Instance} {fields : OrderedMap String Value}
    (hw : S.writable a) (hi : s.heap.get? a = some (.inst i))
    (hf : ∀ v ∈ fields.values, S.Knows s.heap v) :
    Runs S.Step s (writeFields a i fields) fun _ _ => True := by
  unfold writeFields
  dsimp only
  split
  · exact runs_heap_bind runs_raise_bind
  · rename_i hopen
    exact runs_write (.setFields hw hi (by simpa using hopen) hf)

theorem runs_setField (hs : S.Confines s) {target v : Value} (key : String)
    (ht : S.Knows s.heap target) (hw : S.MayWrite target) (hv : S.Knows s.heap v) :
    Runs S.Step s (setField target key v) fun _ _ => True := by
  refine runs_instanceOf_bind ?_
  intro a i ha hi
  refine runs_writeFields (hw a ha) hi ?_
  intro w hw
  rcases OrderedMap.mem_values_insert hw with rfl | hw
  · exact hv
  · exact hs.heap.known_field ht ha hi hw

theorem runs_deleteField (hs : S.Confines s) {target key : Value} (ht : S.Knows s.heap target)
    (hw : S.MayWrite target) :
    Runs S.Step s (deleteField target key) fun _ _ => True := by
  refine runs_instanceOf_bind ?_
  intro a i ha hi
  dsimp only
  split
  · exact runs_heap_bind runs_raise_bind
  · cases key.key? with
    | none => exact runs_missingKey
    | some k =>
        dsimp only
        split
        · refine runs_writeFields (hw a ha) hi ?_
          intro w hw
          exact hs.heap.known_field ht ha hi (OrderedMap.mem_values_erase hw)
        · exact runs_missingKey

theorem runs_getField (hs : S.Confines s) {target key : Value} (ht : S.Knows s.heap target) :
    Runs S.Step s (getField target key) fun v s' => S.Knows s'.heap v := by
  refine runs_instanceOf_bind ?_
  intro a i ha hi
  dsimp only
  cases hk : key.key?.bind i.fields.get? with
  | none => exact runs_missingKey
  | some v =>
      obtain ⟨k, -, hk⟩ := Option.bind_eq_some_iff.mp hk
      exact runs_pure (hs.heap.known_field ht ha hi (OrderedMap.mem_values_of_get? hk))

theorem runs_popField (hs : S.Confines s) {target key : Value} {default : Option Value}
    (ht : S.Knows s.heap target) (hw : S.MayWrite target)
    (hd : ∀ d, default = some d → S.Knows s.heap d) :
    Runs S.Step s (popField target key default) fun v s' => S.Knows s'.heap v := by
  refine runs_instanceOf_bind ?_
  intro a i ha hi
  dsimp only
  split
  · rename_i v hk
    obtain ⟨k, -, hk⟩ := Option.bind_eq_some_iff.mp hk
    have hv := hs.heap.known_field ht ha hi (OrderedMap.mem_values_of_get? hk)
    refine runs_bind (runs_deleteField hs ht hw) ?_
    intro _ s' hsteps _
    exact runs_pure (hv.later (Scope.Steps.later hsteps))
  · rename_i d _
    exact runs_pure (hd d rfl)
  · exact runs_missingKey

theorem runs_popFirst (hs : S.Confines s) {target : Value} (ht : S.Knows s.heap target)
    (hw : S.MayWrite target) :
    Runs S.Step s (popFirst target) fun e s' => S.Knows s'.heap e.2 := by
  refine runs_instanceOf_bind ?_
  intro a i ha hi
  dsimp only
  split
  · exact runs_raise
  · rename_i k v rest hentries
    have hv : S.Knows s.heap v := by
      refine hs.heap.known_field ht ha hi ?_
      exact OrderedMap.mem_values_of_mem (e := (k, v)) (by simp [hentries])
    refine runs_bind (runs_deleteField hs ht hw) ?_
    intro _ s' hsteps _
    exact runs_pure (hv.later (Scope.Steps.later hsteps))

theorem runs_clearFields {target : Value} (hw : S.MayWrite target) :
    ∀ (fields : List (String × Value)) {s : State}, S.Confines s → S.Knows s.heap target →
      Runs S.Step s (clearFields target fields) fun _ _ => True
  | [], _, _, _ => runs_pure trivial
  | (k, _) :: rest, s, hs, ht => by
      refine runs_bind (runs_deleteField hs ht hw) ?_
      intro _ s' hsteps _
      exact runs_clearFields hw rest (Scope.Steps.confines hsteps hs)
        (ht.later (Scope.Steps.later hsteps))

theorem runs_setDefault (hs : S.Confines s) {target key default : Value}
    (ht : S.Knows s.heap target) (hw : S.MayWrite target) (hd : S.Knows s.heap default) :
    Runs S.Step s (setDefault target key default) fun v s' => S.Knows s'.heap v := by
  refine runs_instanceOf_bind ?_
  intro a i ha hi
  dsimp only
  cases key.key? with
  | none => exact runs_raise
  | some k =>
      dsimp only
      cases hk : i.fields.get? k with
      | some v =>
          exact runs_pure (hs.heap.known_field ht ha hi (OrderedMap.mem_values_of_get? hk))
      | none =>
          refine runs_bind (runs_setField hs k ht hw hd) ?_
          intro _ s' hsteps _
          exact runs_pure (hd.later (Scope.Steps.later hsteps))

theorem runs_setFields {target : Value} (hw : S.MayWrite target) :
    ∀ (fields : List (String × Value)) {s : State}, S.Confines s → S.Knows s.heap target →
      (∀ e ∈ fields, S.Knows s.heap e.2) →
      Runs S.Step s (setFields target fields) fun _ _ => True
  | [], _, _, _, _ => runs_pure trivial
  | (k, v) :: rest, s, hs, ht, hf => by
      refine runs_bind (runs_setField hs k ht hw (hf (k, v) List.mem_cons_self)) ?_
      intro _ s' hsteps _
      have hl := Scope.Steps.later hsteps
      refine runs_setFields hw rest (Scope.Steps.confines hsteps hs) (ht.later hl) ?_
      exact fun e he => (hf e (List.mem_cons_of_mem _ he)).later hl

/-! ## Any container -/

theorem runs_objectOf_bind {v : Value} {f : Address × Object → Action α}
    (h : ∀ a o, v = .object a → s.heap.get? a = some o → Runs S.Step s (f (a, o)) Q) :
    Runs S.Step s (objectOf v >>= f) Q := by
  have found : Runs S.Step s (objectOf v)
      fun x s' => s' = s ∧ v = .object x.1 ∧ s.heap.get? x.1 = some x.2 := by
    refine runs_demand_bind fun a ha => runs_heap_bind (runs_demand_bind fun o ho => ?_)
    refine runs_pure ⟨rfl, ?_, ho⟩
    cases v <;> cases ha
    rfl
  refine runs_bind found ?_
  rintro ⟨a, o⟩ s' - ⟨rfl, hv, ho⟩
  exact h a o hv ho

theorem runs_getItem (hs : S.Confines s) {target key : Value} (ht : S.Knows s.heap target) :
    Runs S.Step s (getItem target key) fun v s' => S.Knows s'.heap v := by
  refine runs_objectOf_bind ?_
  intro a o ha ho
  cases o with
  | inst i => exact runs_getField hs ht
  | dict es =>
      dsimp only
      cases hk : key.key?.bind es.get? with
      | none => exact runs_missingKey
      | some v =>
          obtain ⟨k, -, hk⟩ := Option.bind_eq_some_iff.mp hk
          exact runs_pure (hs.heap.known_entry ht ha ho (OrderedMap.mem_values_of_get? hk))
  | list vs =>
      refine runs_demand ?_
      intro v hv
      obtain ⟨n, -, hv⟩ := Option.bind_eq_some_iff.mp hv
      exact hs.heap.known_item ht ha ho (List.mem_of_getElem? hv)
  | typeDefinition | registry | cell | reading => exact runs_raise

theorem runs_setItem (hs : S.Confines s) {target key v : Value} (ht : S.Knows s.heap target)
    (hw : S.MayWrite target) (hv : S.Knows s.heap v) :
    Runs S.Step s (setItem target key v) fun _ _ => True := by
  refine runs_objectOf_bind ?_
  intro a o ha ho
  cases o with
  | inst i =>
      refine runs_demand_bind fun k _ => ?_
      exact runs_setField hs k ht hw hv
  | dict es =>
      refine runs_demand_bind fun k _ => ?_
      refine runs_write (.setDict (hw a ha) ho ?_)
      intro w hw
      rcases OrderedMap.mem_values_insert hw with rfl | hw
      · exact hv
      · exact hs.heap.known_entry ht ha ho hw
  | list vs =>
      refine runs_demand_bind fun n _ => ?_
      refine runs_write (.setList (hw a ha) ho ?_)
      intro w hw
      rcases List.mem_or_eq_of_mem_set hw with hw | rfl
      · exact hs.heap.known_item ht ha ho hw
      · exact hv
  | typeDefinition | registry | cell | reading => exact runs_raise

theorem runs_deleteItem (hs : S.Confines s) {target key : Value} (ht : S.Knows s.heap target)
    (hw : S.MayWrite target) : Runs S.Step s (deleteItem target key) fun _ _ => True := by
  refine runs_objectOf_bind ?_
  intro a o ha ho
  cases o with
  | inst i => exact runs_deleteField hs ht hw
  | dict es =>
      dsimp only
      cases key.key? with
      | none => exact runs_missingKey
      | some k =>
          dsimp only
          split
          · refine runs_write (.setDict (hw a ha) ho ?_)
            exact fun w hw => hs.heap.known_entry ht ha ho (OrderedMap.mem_values_erase hw)
          · exact runs_missingKey
  | list vs =>
      refine runs_demand_bind fun n _ => ?_
      refine runs_write (.setList (hw a ha) ho ?_)
      exact fun w hw => hs.heap.known_item ht ha ho (List.mem_of_mem_eraseIdx hw)
  | typeDefinition | registry | cell | reading => exact runs_raise

theorem runs_hasItem {target key : Value} :
    Runs S.Step s (hasItem target key) fun _ _ => True := by
  refine runs_objectOf_bind ?_
  intro a o _ _
  cases o with
  | inst | dict | list => exact runs_pure trivial
  | typeDefinition | registry | cell | reading => exact runs_raise

theorem runs_length {target : Value} : Runs S.Step s (length target) fun _ _ => True := by
  refine runs_objectOf_bind ?_
  intro a o _ _
  cases o with
  | inst | registry | list | dict => exact runs_pure trivial
  | typeDefinition | cell | reading => exact runs_raise

theorem runs_entriesOf (hs : S.Confines s) {v : Value} (hv : S.Knows s.heap v) :
    Runs S.Step s (entriesOf v) fun es s' => ∀ e ∈ es, S.Knows s'.heap e.2 := by
  refine runs_objectOf_bind ?_
  intro a o ha ho
  cases o with
  | inst i =>
      refine runs_pure fun e he => ?_
      exact hs.heap.known_field hv ha ho (OrderedMap.mem_values_of_mem he)
  | dict es =>
      refine runs_pure fun e he => ?_
      exact hs.heap.known_entry hv ha ho (OrderedMap.mem_values_of_mem he)
  | typeDefinition | registry | cell | list | reading => exact runs_raise

/-! ## The commands -/

theorem runs_newObject {o : Object} (hc : o.isContainer = true) (ho : S.Admits s.heap o)
    (ha : S.known ⟨s.heap.size⟩) :
    Runs S.Step s (newObject o) fun v s' => S.Knows s'.heap v := by
  refine runs_step_bind (t := { s with heap := (s.heap.allocate o).2 }) rfl
    (.heap (.newContainer hc ho)) (runs_pure ⟨ha, ?_⟩)
  simp [Heap.allocate, Heap.size]

theorem knows_entriesFrom {h : Heap} {keys : List String} {vs : List Value}
    (hvs : ∀ v ∈ vs, S.Knows h v) : ∀ v ∈ (entriesFrom keys vs).values, S.Knows h v := by
  intro v hv
  obtain ⟨e, he, rfl⟩ := List.mem_map.mp (OrderedMap.mem_values_ofList hv)
  exact hvs _ (List.of_mem_zip he).2

/-- A command on containers, whose target is its first operand. -/
theorem runs_container (hs : S.Confines s) {c : ContainerCommand} {vs : List Value}
    (hvs : ∀ v ∈ vs, S.Knows s.heap v)
    (hw : ∀ v, vs.head? = some v → S.MayWrite v) :
    Runs S.Step s (container c vs) fun v s' => S.Knows s'.heap v := by
  have fresh := (hs.heap.frontier ⟨s.heap.size⟩ (Nat.le_refl _)).1
  unfold container
  split
  · exact runs_newObject rfl hvs fresh
  · exact runs_newObject rfl (knows_entriesFrom hvs) fresh
  · exact runs_newObject rfl (hvs _ (by simp)) fresh
  · rename_i c
    refine runs_heap_bind (runs_demand_bind ?_)
    rintro ⟨a, v⟩ hc
    obtain ⟨ha, hv⟩ := Heap.cellOf?_eq_some.mp hc
    exact runs_pure (hs.heap.known_content (hvs c (by simp)) ha hv)
  · rename_i c v
    refine runs_heap_bind (runs_demand_bind ?_)
    rintro ⟨a, w⟩ hc
    obtain ⟨ha, hw'⟩ := Heap.cellOf?_eq_some.mp hc
    refine runs_bind (runs_write (.setCell (hw c rfl a ha) hw' (hvs v (by simp)))) ?_
    exact fun _ _ _ _ => runs_pure trivial
  · exact runs_getItem hs (hvs _ (by simp))
  · refine runs_bind (runs_setItem hs (hvs _ (by simp)) (hw _ rfl) (hvs _ (by simp))) ?_
    exact fun _ _ _ _ => runs_pure trivial
  · refine runs_bind (runs_deleteItem hs (hvs _ (by simp)) (hw _ rfl)) ?_
    exact fun _ _ _ _ => runs_pure trivial
  · exact runs_bind runs_hasItem fun _ _ _ _ => runs_pure trivial
  · exact runs_bind runs_length fun _ _ _ _ => runs_pure trivial
  · exact runs_popField hs (hvs _ (by simp)) (hw _ rfl) (by simp)
  · refine runs_popField hs (hvs _ (by simp)) (hw _ rfl) ?_
    rintro d ⟨⟩
    exact hvs _ (by simp)
  · refine runs_bind (runs_popFirst hs (hvs _ (by simp)) (hw _ rfl)) ?_
    rintro ⟨k, v⟩ s' hsteps hv
    refine runs_newObject rfl ?_ ?_
    · intro w hw
      rcases List.mem_cons.mp hw with rfl | hw
      · trivial
      · exact List.mem_singleton.mp hw ▸ hv
    · exact ((Scope.Steps.confines hsteps hs).heap.frontier _ (Nat.le_refl _)).1
  · refine runs_instanceOf_bind fun a i _ _ => ?_
    refine runs_bind (runs_clearFields (hw _ rfl) _ hs (hvs _ (by simp))) ?_
    exact fun _ _ _ _ => runs_pure trivial
  · exact runs_setDefault hs (hvs _ (by simp)) (hw _ rfl) (hvs _ (by simp))
  · rename_i o m
    refine runs_instanceOf_bind fun a i _ _ => ?_
    refine runs_bind (runs_entriesOf hs (hvs m (by simp))) ?_
    intro es s' hsteps hes
    have hl := Scope.Steps.later hsteps
    refine runs_bind (runs_setFields (hw o rfl) es (Scope.Steps.confines hsteps hs)
      ((hvs o (by simp)).later hl) hes) ?_
    exact fun _ _ _ _ => runs_pure trivial
  · exact runs_raise

end Action

end OperatorDispatch
