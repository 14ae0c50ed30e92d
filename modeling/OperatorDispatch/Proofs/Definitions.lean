import OperatorDispatch.Command
import OperatorDispatch.Proofs.Containers

/-!
# Definitions inside a scope

Spec lemmas for the commands that make type definitions, instances and
registries, and for the registration of handlers.  Where the target of a
command is a value, the registry behind it is what the command writes to, so
these lemmas ask for a registry that the scope may write to.
-/

namespace OperatorDispatch

/-- A sealed type definition. -/
def Heap.SealedAt (h : Heap) (a : Address) : Prop :=
  ∃ t r, h.get? a = some (.typeDefinition t) ∧ h.get? t.registry = some (.registry r) ∧
    r.isSealed = true

namespace Action

variable {S : Scope} {s : State} {α : Type} {Q : α → State → Prop}

/-! ## Registries -/

theorem runs_registryAt_bind {a : Address} {f : Registry → Action α}
    (h : ∀ r, s.heap.get? a = some (.registry r) → Runs S.Step s (f r) Q) :
    Runs S.Step s (registryAt a >>= f) Q := by
  refine runs_bind_congr (demand .unusable (s.heap.registryAt? a)) rfl ?_
  exact runs_demand_bind fun r hr => h r (Heap.registryAt?_eq_some.mp hr)

/-- A row that is not about a dispatch. -/
theorem runs_log {row : LogRow} (plain : row.isFallback = false) :
    Runs S.Step s (log row) fun _ _ => True :=
  runs_step rfl (.log plain) trivial

theorem runs_addHandler {a : Address} {sel : Selector} {handler : Value} (hw : S.writable a)
    (hv : S.Knows s.heap handler) : Runs S.Step s (addHandler a sel handler) fun _ _ => True := by
  refine runs_registryAt_bind fun r hr => ?_
  refine runs_ofExcept_bind fun r' hadd => ?_
  exact runs_bind (runs_write (.addHandler hw hr hv hadd)) fun _ _ _ _ => runs_log rfl

theorem runs_addNamed {a : Address} {selector : String} {handler : Value} (hw : S.writable a)
    (hv : S.Knows s.heap handler) :
    Runs S.Step s (addNamed a selector handler) fun _ _ => True :=
  runs_ofExcept_bind fun _ _ => runs_addHandler hw hv

theorem runs_addHandlers {a : Address} (hw : S.writable a) :
    ∀ (es : List (Selector × Value)) {s : State}, (∀ e ∈ es, S.Knows s.heap e.2) →
      Runs S.Step s (addHandlers a es) fun _ _ => True
  | [], _, _ => runs_pure trivial
  | (sel, handler) :: es, s, hes => by
      refine runs_bind (runs_addHandler hw (hes (sel, handler) List.mem_cons_self)) ?_
      intro _ s' hsteps _
      refine runs_addHandlers hw es fun e he => ?_
      exact (hes e (List.mem_cons_of_mem _ he)).later (Scope.Steps.later hsteps)

theorem runs_sealRegistry {a : Address} (hw : S.writable a) :
    Runs S.Step s (sealRegistry a) fun _ s' =>
      ∃ r, s'.heap.get? a = some (.registry r) ∧ r.isSealed = true := by
  refine runs_registryAt_bind fun r hr => ?_
  exact runs_step rfl (.heap (.sealRegistry hw hr)) ⟨_, Heap.get?_update_self hr, rfl⟩

/-! ## Type definitions -/

theorem runs_parentOf {v : Value} (hv : S.Knows s.heap v) :
    Runs S.Step s (parentOf v) fun parent s' =>
      ∀ p, parent = some p → S.KnowsType s'.heap p := by
  unfold parentOf
  split
  · exact runs_pure (by simp)
  · refine runs_heap_bind (runs_demand_bind ?_)
    rintro ⟨a, t⟩ hvt
    obtain ⟨rfl, ht⟩ := Heap.typeOf?_eq_some.mp hvt
    refine runs_pure ?_
    rintro p ⟨⟩
    exact ⟨hv.1, t, Heap.typeAt?_eq_some.mpr ht⟩

/-- A new type definition lies above all that was there, its registry right
below it. -/
theorem runs_openType {name : String} {parent : Option Address}
    (hp : ∀ p, parent = some p → S.KnowsType s.heap p) :
    Runs S.Step s (openType name parent) fun a s' =>
      s.heap.size ≤ a.index ∧ a.index < s'.heap.size ∧
        ∃ t, s'.heap.get? a = some (.typeDefinition t) ∧ s.heap.size ≤ t.registry.index := by
  let fresh := Object.registry (.fresh ("type '" ++ name ++ "'") false)
  have hsize : (s.heap.allocate fresh).2.size = s.heap.size + 1 := Heap.size_allocate _ _
  refine runs_step (x := (s.heap.allocate fresh).2.allocate _ |>.1)
    (t := { s with heap := s.heap.withType name parent }) rfl (.heap (.openType name hp)) ?_
  refine ⟨?_, ?_, ⟨name, parent, ⟨s.heap.size⟩⟩, Heap.get?_allocate_self _ _, Nat.le_refl _⟩
  · show s.heap.size ≤ (s.heap.allocate fresh).2.size
    omega
  · show (s.heap.allocate fresh).2.size < (s.heap.withType name parent).size
    simp [Heap.withType, fresh]

theorem runs_sealType {a : Address}
    (hw : ∀ t, s.heap.get? a = some (.typeDefinition t) → S.writable t.registry) :
    Runs S.Step s (sealType a) fun _ s' => s'.heap.SealedAt a := by
  refine runs_heap_bind (runs_demand_bind fun t ht => ?_)
  rw [Heap.typeAt?_eq_some] at ht
  refine runs_registryAt_bind fun r hr => ?_
  split
  · refine runs_bind (runs_sealRegistry (hw t ht)) ?_
    rintro _ s' hsteps ⟨r', hr', hsealed⟩
    refine (runs_log rfl).mono fun _ s'' hlog _ => ?_
    have hl := Scope.Steps.later hsteps
    have ht' := (Scope.Steps.later hlog).typeAt? (hl.typeAt? (Heap.typeAt?_eq_some.mpr ht))
    obtain ⟨o, ho, hb⟩ := (Scope.Steps.later hlog).object _ _ hr'
    cases hb with
    | registry _ _ frozen _ =>
        cases frozen hsealed
        exact ⟨t, r', Heap.typeAt?_eq_some.mp ht', ho, hsealed⟩
  · rename_i hclosed
    exact runs_pure ⟨t, r, ht, hr, by simpa using hclosed⟩

/-- Only handlers that were given are registered. -/
theorem mem_values_findSelectors {h : Heap} : ∀ {es : List (String × Value)}
    {fs : List (Selector × Value)}, findSelectors es = .ok fs →
    (∀ e ∈ es, S.Knows h e.2) → ∀ f ∈ fs, S.Knows h f.2
  | [], fs, hf, _ => by
      cases hf
      simp
  | (name, handler) :: es, fs, hf, hes => by
      unfold findSelectors at hf
      split at hf
      · cases hf
      · rename_i sel _
        split at hf
        · cases hf
        · rename_i rest hrest
          cases hf
          intro f hmem
          rcases List.mem_cons.mp hmem with rfl | hmem
          · exact hes (name, handler) List.mem_cons_self
          · exact mem_values_findSelectors hrest
              (fun e he => hes e (List.mem_cons_of_mem _ he)) f hmem

theorem mem_insertBySelector {e f : Selector × Value} :
    ∀ {es : List (Selector × Value)}, f ∈ insertBySelector e es → f = e ∨ f ∈ es
  | [], hf => .inl (List.mem_singleton.mp hf)
  | g :: gs, hf => by
      unfold insertBySelector at hf
      split at hf
      · exact List.mem_cons.mp hf
      · rcases List.mem_cons.mp hf with rfl | hf
        · exact .inr List.mem_cons_self
        · exact (mem_insertBySelector hf).imp_right (List.mem_cons_of_mem _)

theorem mem_sortBySelector {f : Selector × Value} :
    ∀ {es : List (Selector × Value)}, f ∈ sortBySelector es → f ∈ es
  | [], hf => hf
  | _ :: _, hf => by
      rcases mem_insertBySelector hf with rfl | hf
      · exact List.mem_cons_self
      · exact List.mem_cons_of_mem _ (mem_sortBySelector hf)

theorem runs_define (hs : S.Confines s) {name : String} {handlers : OrderedMap String Value}
    {parent : Option Address} (hh : ∀ v ∈ handlers.values, S.Knows s.heap v)
    (hp : ∀ p, parent = some p → S.KnowsType s.heap p) :
    Runs S.Step s (define name handlers parent) fun a s' => S.Knows s'.heap (.object a) := by
  refine runs_bind (runs_openType hp) ?_
  rintro a s₁ hopen ⟨hle, hlt, t, ht, hreg⟩
  have hw : S.writable t.registry := (hs.heap.frontier _ hreg).2
  refine runs_ofExcept_bind fun es hes => ?_
  refine runs_heap_bind (runs_demand_bind fun t' ht' => ?_)
  obtain rfl : t = t' := by
    rw [Heap.typeAt?_eq_some, ht] at ht'
    cases ht'
    rfl
  have known : ∀ e ∈ sortBySelector es, S.Knows s₁.heap e.2 := by
    intro e he
    refine mem_values_findSelectors hes ?_ e (mem_sortBySelector he)
    exact fun e he => (hh _ (OrderedMap.mem_values_of_mem he)).later (Scope.Steps.later hopen)
  refine runs_bind (runs_addHandlers hw _ known) ?_
  intro _ s₂ hadded _
  have hl := Scope.Steps.later hadded
  refine runs_bind (runs_sealType ?_) ?_
  · intro t' ht₂
    have same := hl.typeAt? ht'
    rw [Heap.typeAt?_eq_some, ht₂] at same
    cases same
    exact hw
  · intro _ s₃ hsealed _
    refine runs_pure ⟨(hs.heap.frontier a hle).1, ?_⟩
    exact Nat.lt_of_lt_of_le hlt (Nat.le_trans hl.size_le (Scope.Steps.later hsealed).size_le)

/-! ## Instances -/

theorem runs_allocate {o : Object} (hs : S.Confines s)
    (hc : S.Change s.heap (s.heap.allocate o).2) :
    Runs S.Step s (allocate o) fun a s' => S.Knows s'.heap (.object a) := by
  refine runs_step (t := { s with heap := (s.heap.allocate o).2 }) rfl (.heap hc) ⟨?_, ?_⟩
  · exact (hs.heap.frontier _ (Nat.le_refl _)).1
  · simp [Heap.allocate, Heap.size]

theorem runs_instantiate (hs : S.Confines s) {a : Address} {fields : OrderedMap String Value}
    (ha : S.known a) (hf : ∀ v ∈ fields.values, S.Knows s.heap v)
    (hw : ∀ t, s.heap.get? a = some (.typeDefinition t) → S.writable t.registry) :
    Runs S.Step s (instantiate a fields) fun b s' => S.Knows s'.heap (.object b) := by
  unfold instantiate
  split
  · exact runs_raise_bind
  · refine runs_bind (runs_sealType hw) ?_
    rintro _ s' hsteps ⟨t, r, ht, hr, hsealed⟩
    have hl := Scope.Steps.later hsteps
    exact runs_allocate (Scope.Steps.confines hsteps hs)
      (.instantiate ha ht hr hsealed fun v hv => (hf v hv).later hl)

theorem runs_ownRegistry (hs : S.Confines s) {a : Address} {i : Instance}
    (hi : s.heap.get? a = some (.inst i)) (hw : S.writable a)
    (hr : ∀ r, i.registry = some r → S.writable r) :
    Runs S.Step s (ownRegistry a i) fun r _ => S.writable r := by
  unfold ownRegistry
  cases hreg : i.registry with
  | some r => exact runs_pure (hr r hreg)
  | none =>
      refine runs_step (x := ⟨s.heap.size⟩)
        (t := { s with heap := s.heap.withOwnRegistry a i }) rfl
        (.heap (.ownRegistry hw hi hreg)) ?_
      exact (hs.heap.frontier _ (Nat.le_refl _)).2

/-- A handler for one instance is written to the registry of the instance, and
to the instance where it has none yet. -/
theorem runs_overrideHandler (hs : S.Confines s) {v handler : Value} {selector : String}
    (hw : S.MayWrite v) (hh : S.Knows s.heap handler)
    (hr : ∀ a i r, v = .object a → s.heap.get? a = some (.inst i) → i.registry = some r →
      S.writable r) :
    Runs S.Step s (overrideHandler v selector handler) fun _ _ => True := by
  refine runs_heap_bind ?_
  split
  · exact runs_heap_bind runs_raise
  · rename_i a i hi
    obtain ⟨ha, hi⟩ := Heap.instanceOf?_eq_some.mp hi
    refine runs_bind (runs_ownRegistry hs hi (hw a ha) fun r => hr a i r ha hi) ?_
    intro r s' hsteps hwr
    exact runs_addNamed hwr (hh.later (Scope.Steps.later hsteps))

/-- A snapshot is taken in one step and never fails. -/
theorem runs_snapshot (hs : S.Confines s) {a : Address} {i : Instance} (ha : S.known a)
    (hi : s.heap.get? a = some (.inst i)) :
    Runs S.Step s (snapshot i) fun b s' =>
      b = (s.heap.takeSnapshot i).1 ∧ s' = { s with heap := (s.heap.takeSnapshot i).2 } := by
  have admitted := hs.heap.object a _ ha hi
  have hsnap := snapshot_eq (s := s) (i := i) fun r hr => (admitted.2.2 r hr).2
  exact runs_step hsnap (.heap (.snapshot ha hi)) ⟨rfl, rfl⟩

/-! ## The commands -/

theorem runs_typeOf_bind {v : Value} {f : Address × TypeDefinition → Action α}
    (h : ∀ a t, v = .object a → s.heap.get? a = some (.typeDefinition t) →
      Runs S.Step s (f (a, t)) Q) :
    Runs S.Step s (typeOf v >>= f) Q := by
  refine runs_bind_congr (demand .unusable (s.heap.typeOf? v)) rfl ?_
  refine runs_demand_bind ?_
  rintro ⟨a, t⟩ ht
  obtain ⟨hv, ht⟩ := Heap.typeOf?_eq_some.mp ht
  exact h a t hv ht

theorem runs_registryOf_bind {v : Value} {f : Address × Registry → Action α}
    (h : ∀ a r, v = .object a → s.heap.get? a = some (.registry r) →
      Runs S.Step s (f (a, r)) Q) :
    Runs S.Step s (registryOf v >>= f) Q := by
  refine runs_bind_congr (demand .unusable (s.heap.registryOf? v)) rfl ?_
  refine runs_demand_bind ?_
  rintro ⟨a, r⟩ hr
  obtain ⟨hv, hr⟩ := Heap.registryOf?_eq_some.mp hr
  exact h a r hv hr

/-- An action for its effect, with null as its answer. -/
theorem runs_null {m : Action Unit} {P : Unit → State → Prop} (hm : Runs S.Step s m P) :
    Runs S.Step s (do m; return .null : Action Value) fun v s' => S.Knows s'.heap v :=
  runs_bind hm fun _ _ _ _ => runs_pure trivial

/-- An action that hands back a known address. -/
theorem runs_object {m : Action Address}
    (hm : Runs S.Step s m fun a s' => S.Knows s'.heap (.object a)) :
    Runs S.Step s (do return .object (← m) : Action Value) fun v s' => S.Knows s'.heap v :=
  runs_bind hm fun _ _ _ ha => runs_pure ha

/-- Where all that is known may be written to, a command that makes or extends
definitions stays in the scope. -/
theorem runs_definition (hs : S.Confines s) (hw : ∀ a, S.known a → S.writable a)
    {c : DefinitionCommand} {vs : List Value} (hvs : ∀ v ∈ vs, S.Knows s.heap v) :
    Runs S.Step s (definition c vs) fun v s' => S.Knows s'.heap v := by
  have registry : ∀ {v : Value} {a : Address} {t : TypeDefinition}, S.Knows s.heap v →
      v = .object a → s.heap.get? a = some (.typeDefinition t) → S.writable t.registry := by
    rintro v a t hv rfl ht
    have admitted := hs.heap.object a _ hv.1 ht
    exact hw _ admitted.1.1
  have fresh := (hs.heap.frontier ⟨s.heap.size⟩ (Nat.le_refl _)).1
  unfold definition
  split
  · rename_i parent
    refine runs_bind (runs_parentOf (hvs parent (by simp))) ?_
    intro p s' hsteps hp
    refine runs_object ((runs_openType hp).mono ?_)
    rintro a s'' - ⟨hle, hlt, -⟩
    exact ⟨((Scope.Steps.confines hsteps hs).heap.frontier a hle).1, hlt⟩
  · have parent : S.Knows s.heap (vs.getLast?.getD .null) := by
      cases hlast : vs.getLast? with
      | none => exact trivial
      | some v => exact hvs v (List.mem_of_getLast? hlast)
    refine runs_bind (runs_parentOf parent) ?_
    intro p s' hsteps hp
    have hl := Scope.Steps.later hsteps
    refine runs_object (runs_define (Scope.Steps.confines hsteps hs) ?_ hp)
    refine knows_entriesFrom fun v hv => ?_
    exact (hvs v (List.dropLast_subset vs hv)).later hl
  · rename_i type handler
    refine runs_typeOf_bind fun a t ha ht => ?_
    exact runs_null (runs_addNamed (registry (hvs type (by simp)) ha ht) (hvs handler (by simp)))
  · rename_i v handler
    refine runs_null (runs_overrideHandler hs ?_ (hvs handler (by simp)) ?_)
    · rintro a rfl
      have hv := hvs (.object a) (by simp)
      exact hw a hv.1
    · rintro a i r rfl hi hr
      have hv := hvs (.object a) (by simp)
      have admitted := hs.heap.object a _ hv.1 hi
      exact hw r (admitted.2.2 r hr).1
  · rename_i type
    have htype := hvs type (by simp)
    refine runs_typeOf_bind fun a t ha ht => ?_
    refine runs_bind (runs_sealType fun t' ht' => registry htype ha ht') ?_
    exact fun _ _ hsteps _ => runs_pure (htype.later (Scope.Steps.later hsteps))
  · rename_i type vs
    have htype := hvs type (by simp)
    refine runs_typeOf_bind fun a t ha ht => ?_
    refine runs_object (runs_instantiate hs ?_ ?_ fun t' ht' => registry htype ha ht')
    · subst ha
      exact htype.1
    · exact knows_entriesFrom fun v hv => hvs v (List.mem_cons_of_mem _ hv)
  · exact runs_object (runs_allocate hs (.newRecord (knows_entriesFrom hvs)))
  · rename_i v
    refine runs_instanceOf_bind ?_
    rintro a i rfl hi
    have hv := hvs (.object a) (by simp)
    refine runs_object ((runs_snapshot hs hv.1 hi).mono ?_)
    rintro b s' - ⟨rfl, rfl⟩
    have hb := Heap.takeSnapshot_index s.heap i
    exact ⟨(hs.heap.frontier _ hb.1).1, hb.2⟩
  · exact runs_object (runs_allocate hs (.newRegistry _ _))
  · rename_i registry handler
    refine runs_registryOf_bind ?_
    rintro a r rfl hr
    have ha := hvs (.object a) (by simp)
    exact runs_null (runs_addNamed (hw a ha.1) (hvs handler (by simp)))
  · rename_i registry
    refine runs_registryOf_bind ?_
    rintro a r rfl hr
    have ha := hvs (.object a) (by simp)
    exact runs_null (runs_sealRegistry (hw a ha.1))
  · rename_i registry
    refine runs_registryOf_bind ?_
    rintro a r rfl hr
    have ha := hvs (.object a) (by simp)
    exact runs_object (runs_allocate hs (.copyRegistry ha.1 hr _))
  · exact runs_raise

end Action

end OperatorDispatch
