import OperatorDispatch.Proofs.Dispatching

/-!
# Commands inside a scope

The remaining commands, and all of them together: from a confined state, with
known operands and a caller that keeps to the scope, a command of the
vocabulary goes through steps of the scope and answers with a known value
(`runs_command`).  Where a handler may be called, all that is known may be
written to as well.
-/

namespace OperatorDispatch
namespace Action

variable {S : Scope} {s : State} {engine : Engine} {settings : Settings}
  {call : Function → Arguments → Action Value}

/-! ## Settings -/

theorem runs_setLimit {n : Int} : Runs S.Step s (setLimit n) fun _ _ => True :=
  runs_ofExcept_bind fun _ hlimit => runs_get_bind (runs_step rfl (.limit hlimit) trivial)

theorem runs_configure (hsent : S.Knows s.heap settings.sentinel) :
    Runs S.Step s (configure settings) fun _ _ => True := by
  refine runs_bind runs_setLimit fun _ _ hsteps _ => ?_
  exact runs_step rfl (.share (hsent.later (Scope.Steps.later hsteps))) trivial

/-- The environment has no say in the sentinel. -/
theorem sentinel_ofEnvironment {environment : Environment} {settings : Settings}
    (h : Settings.ofEnvironment environment = .ok settings) :
    settings.sentinel = .double .nan := by
  unfold Settings.ofEnvironment at h
  split at h <;> cases h
  rfl

theorem runs_settingsOf (hs : S.Confines s) (he : S.KnowsEngine s.heap engine) :
    Runs S.Step s (settingsOf engine) fun settings s' => S.Knows s'.heap settings.sentinel := by
  cases engine with
  | own settings => exact runs_pure he
  | shared environment =>
      refine runs_get_bind ?_
      cases hshared : s.shared with
      | some settings => exact runs_pure (hs.shared settings hshared)
      | none =>
          refine runs_ofExcept_bind fun settings hread => ?_
          have primitive := sentinel_ofEnvironment hread
          have known : ∀ h : Heap, S.Knows h settings.sentinel := by
            intro h
            rw [primitive]
            trivial
          exact runs_bind (runs_configure (known _)) fun _ _ _ _ => runs_pure (known _)

/-! ## Dispatch -/

section Dispatch

variable (hcall : S.Serves engine call) (hs : S.Confines s) (he : S.KnowsEngine s.heap engine)

include hcall hs he

theorem runs_dispatchBinary {literal : String} {lhs rhs : Value}
    (hsent : S.Knows s.heap settings.sentinel) (hl : S.Knows s.heap lhs)
    (hr : S.Knows s.heap rhs) :
    Runs S.Step s (dispatchBinary call settings literal lhs rhs)
      fun v s' => S.Knows s'.heap v := by
  refine runs_get_bind (runs_ofExcept_bind fun a ha => ?_)
  exact runs_apply hcall hs he hsent (Scope.knowsApplication_binary hl hr ha)

theorem runs_dispatchUnary {literal : String} {position : Option String} {operand : Value}
    (hsent : S.Knows s.heap settings.sentinel) (hv : S.Knows s.heap operand) :
    Runs S.Step s (dispatchUnary call settings literal position operand)
      fun v s' => S.Knows s'.heap v := by
  refine runs_get_bind (runs_ofExcept_bind fun a ha => ?_)
  exact runs_apply hcall hs he hsent (Scope.knowsApplication_unary hv ha)

theorem runs_dispatchAt {literal : String} {position : Position} {operand : Value}
    (hsent : S.Knows s.heap settings.sentinel) (hv : S.Knows s.heap operand) :
    Runs S.Step s (dispatchAt call settings literal position operand)
      fun v s' => S.Knows s'.heap v := by
  refine runs_get_bind (runs_ofExcept_bind fun o _ => ?_)
  refine runs_ofExcept_bind fun a ha => ?_
  exact runs_apply hcall hs he hsent (Scope.knowsApplication_unaryAt hv ha)

end Dispatch

/-! ## Slots -/

theorem runs_cellAt_bind {α : Type} {R : State → State → Prop} {Q : α → State → Prop}
    {a : Address} {f : Value → Action α}
    (h : ∀ v, s.heap.get? a = some (.cell v) → Runs R s (f v) Q) :
    Runs R s (cellAt a >>= f) Q := by
  refine runs_bind_congr (demand .unusable (s.heap.cellAt? a)) rfl ?_
  exact runs_demand_bind fun v hv => h v (Heap.cellAt?_eq_some.mp hv)

/-- The cell is still a cell when the dispatch on its content is over. -/
theorem runs_setCell {a : Address} {v w : Value} {h : Heap} (hw : S.writable a)
    (there : h.get? a = some (.cell w)) (hl : h.Later s.heap) (hv : S.Knows s.heap v) :
    Runs S.Step s (setCell a v) fun _ _ => True := by
  obtain ⟨w', hw'⟩ := hl.cellAt? (Heap.cellAt?_eq_some.mpr there)
  exact runs_write (.setCell hw (Heap.cellAt?_eq_some.mp hw') hv)

section Slots

variable (hcall : S.Serves engine call) (hs : S.Confines s) (he : S.KnowsEngine s.heap engine)
  {a : Address} (ha : S.known a) (hw : S.writable a)

include hcall hs he ha hw

theorem runs_assign {literal : String} {rhs : Value} (hr : S.Knows s.heap rhs) :
    Runs S.Step s (assign call engine a literal rhs) fun v s' => S.Knows s'.heap v := by
  refine runs_ofExcept_bind fun binary _ => ?_
  refine runs_bind (runs_settingsOf hs he) fun settings s₁ hset hsent => ?_
  have hs₁ := Scope.Steps.confines hset hs
  have hl₁ := Scope.Steps.later hset
  refine runs_cellAt_bind fun current hcell => ?_
  have hcurrent : S.Knows s₁.heap current := hs₁.heap.object a _ ha hcell
  refine runs_bind (runs_dispatchBinary hcall hs₁ (he.later hl₁) hsent hcurrent (hr.later hl₁)) ?_
  intro v s₂ hdisp hv
  refine runs_bind (runs_setCell hw hcell (Scope.Steps.later hdisp) hv) ?_
  exact fun _ _ hset _ => runs_pure (hv.later (Scope.Steps.later hset))

theorem runs_step_slot {literal : String} {position : Position}
    (hsent : S.Knows s.heap settings.sentinel) :
    Runs S.Step s (step call settings a literal position) fun v s' => S.Knows s'.heap v := by
  refine runs_cellAt_bind fun current hcell => ?_
  have hcurrent : S.Knows s.heap current := hs.heap.object a _ ha hcell
  cases current with
  | primitive p =>
      refine runs_bind (runs_dispatchAt hcall hs he hsent hcurrent) ?_
      intro v s₁ hdisp hv
      refine runs_bind (runs_setCell hw hcell (Scope.Steps.later hdisp) hv) ?_
      intro _ s₂ hset _
      refine runs_pure ?_
      split
      · trivial
      · exact hv.later (Scope.Steps.later hset)
  | function | object => exact runs_dispatchAt hcall hs he hsent hcurrent

theorem runs_update {literal : String} {position : Option String} :
    Runs S.Step s (update call engine a literal position) fun v s' => S.Knows s'.heap v := by
  refine runs_bind (runs_settingsOf hs he) fun settings s₁ hset hsent => ?_
  have hs₁ := Scope.Steps.confines hset hs
  have he₁ := he.later (Scope.Steps.later hset)
  refine runs_ofExcept_bind fun p _ => ?_
  cases p with
  | unspecified => exact runs_raise
  | before | after => exact runs_step_slot hcall hs₁ he₁ ha hw hsent

end Slots

/-! ## Operators and native operations -/

theorem runs_registerOperator {o : Operator} :
    Runs S.Step s (registerOperator o) fun _ _ => True := by
  refine runs_get_bind ?_
  cases h : s.operators.register? o with
  | some t => exact runs_step rfl (.operators h) trivial
  | none => exact runs_raise

theorem runs_ofNative {r : Except NativeFault Primitive} :
    Runs S.Step s (ofNative r) fun v s' => S.Knows s'.heap v := by
  cases r with
  | ok p => exact runs_pure trivial
  | error fault => exact runs_raise

theorem runs_native {sel : Selector} {vs : List Value} :
    Runs S.Step s (native sel vs) fun v s' => S.Knows s'.heap v := by
  unfold native
  split
  · exact runs_heap_bind (runs_ofExcept_bind fun _ _ => runs_ofNative)
  · refine runs_heap_bind (runs_ofExcept_bind fun _ _ => ?_)
    exact runs_heap_bind (runs_ofExcept_bind fun _ _ => runs_ofNative)
  · exact runs_raise

theorem runs_dispatch (hcall : S.Serves engine call) (hs : S.Confines s)
    (he : S.KnowsEngine s.heap engine) (hw : ∀ a, S.known a → S.writable a)
    {c : DispatchCommand} {vs : List Value} (hvs : ∀ v ∈ vs, S.Knows s.heap v) :
    Runs S.Step s (dispatch call engine c vs) fun v s' => S.Knows s'.heap v := by
  have settled : ∀ {f : Settings → Action Value},
      (∀ settings s', S.Confines s' → s.heap.Later s'.heap → S.Knows s'.heap settings.sentinel →
        Runs S.Step s' (f settings) fun v s' => S.Knows s'.heap v) →
      Runs S.Step s (settingsOf engine >>= f) fun v s' => S.Knows s'.heap v := by
    intro f hf
    refine runs_bind (runs_settingsOf hs he) fun settings s' hset hsent => ?_
    exact hf settings s' (Scope.Steps.confines hset hs) (Scope.Steps.later hset) hsent
  unfold dispatch
  split
  · rename_i v w
    refine settled fun settings s' hs' hl hsent => ?_
    exact runs_dispatchBinary hcall hs' (he.later hl) hsent ((hvs v (by simp)).later hl)
      ((hvs w (by simp)).later hl)
  · rename_i v
    refine settled fun settings s' hs' hl hsent => ?_
    exact runs_dispatchUnary hcall hs' (he.later hl) hsent ((hvs v (by simp)).later hl)
  · rename_i v
    refine settled fun settings s' hs' hl hsent => ?_
    exact runs_dispatchAt hcall hs' (he.later hl) hsent ((hvs v (by simp)).later hl)
  · rename_i v
    refine settled fun settings s' hs' hl hsent => ?_
    exact runs_dispatchAt hcall hs' (he.later hl) hsent ((hvs v (by simp)).later hl)
  · rename_i v w
    refine settled fun settings s' hs' hl hsent => ?_
    exact runs_dispatchBinary hcall hs' (he.later hl) hsent ((hvs v (by simp)).later hl)
      ((hvs w (by simp)).later hl)
  · rename_i v w
    refine settled fun settings s' hs' hl hsent => ?_
    exact runs_dispatchBinary hcall hs' (he.later hl) hsent ((hvs v (by simp)).later hl)
      ((hvs w (by simp)).later hl)
  · exact runs_ofExcept_bind fun _ _ => runs_native
  · rename_i cell v
    refine runs_heap_bind (runs_demand_bind ?_)
    rintro ⟨a, w⟩ hcell
    obtain ⟨rfl, -⟩ := Heap.cellOf?_eq_some.mp hcell
    have ha := hvs (.object a) (by simp)
    exact runs_assign hcall hs he ha.1 (hw a ha.1) (hvs v (by simp))
  · rename_i cell
    refine runs_heap_bind (runs_demand_bind ?_)
    rintro ⟨a, w⟩ hcell
    obtain ⟨rfl, -⟩ := Heap.cellOf?_eq_some.mp hcell
    have ha := hvs (.object a) (by simp)
    exact runs_update hcall hs he ha.1 (hw a ha.1)
  · exact runs_ofExcept_bind fun _ _ => runs_null runs_registerOperator
  · exact runs_raise

/-! ## Inspection -/

theorem runs_reading {r : Reading} (hs : S.Confines s) :
    Runs S.Step s (newObject (.reading r)) fun v s' => S.Knows s'.heap v :=
  runs_newObject rfl trivial (hs.heap.frontier _ (Nat.le_refl _)).1

theorem runs_inspection (hs : S.Confines s) {c : InspectionCommand} {vs : List Value}
    (hvs : ∀ v ∈ vs, S.Knows s.heap v) :
    Runs S.Step s (inspection c vs) fun v s' => S.Knows s'.heap v := by
  unfold inspection
  split
  · exact runs_heap_bind (runs_ofExcept_bind fun _ _ => runs_pure trivial)
  · exact runs_pure trivial
  · exact runs_heap_bind (runs_pure trivial)
  · exact runs_heap_bind (runs_pure trivial)
  · refine runs_typeOf_bind fun _ _ _ _ => runs_typeOf_bind fun _ _ _ _ => ?_
    exact runs_heap_bind (runs_pure trivial)
  · exact runs_typeOf_bind fun _ _ _ _ => runs_heap_bind (runs_reading hs)
  · exact runs_heap_bind (runs_reading hs)
  · rename_i v
    refine runs_ofExcept_bind fun sel _ => runs_heap_bind (runs_heap_bind ?_)
    cases hf : s.heap.resolve (s.heap.classify v) sel with
    | some f => exact runs_pure (hs.heap.within_of_resolve (hvs v (by simp)) hf)
    | none => exact runs_pure trivial
  · rename_i v w
    refine runs_heap_bind ?_
    split
    · exact runs_heap_bind (runs_pure trivial)
    · exact runs_raise
  · refine runs_typeOf_bind ?_
    rintro a t rfl ht
    have ha := hvs (.object a) (by simp)
    have admitted := hs.heap.object a _ ha.1 ht
    obtain ⟨hk, r, hr⟩ := admitted.1
    exact runs_pure ⟨hk, Heap.lt_size_of_get? (Heap.registryAt?_eq_some.mp hr)⟩
  · refine runs_instanceOf_bind ?_
    rintro a i rfl hi
    have ha := hvs (.object a) (by simp)
    have admitted := hs.heap.object a _ ha.1 hi
    dsimp only
    cases hreg : i.registry with
    | none => exact runs_pure trivial
    | some r =>
        obtain ⟨hk, reg, hr⟩ := admitted.2.2 r hreg
        exact runs_pure ⟨hk, Heap.lt_size_of_get? (Heap.registryAt?_eq_some.mp hr)⟩
  · refine runs_registryOf_bind fun _ _ _ _ => runs_ofExcept_bind fun _ _ => ?_
    exact runs_pure trivial
  · exact runs_raise

/-! ## Telemetry -/

theorem knows_settingsFrom {h : Heap} : ∀ {es : List (String × Value)} {settings : Settings},
    settingsFrom h es = .ok settings → (∀ e ∈ es, S.Knows h e.2) →
      S.Knows h settings.sentinel
  | [], _, hset, _ => by
      cases hset
      trivial
  | (name, v) :: es, settings, hset, hes => by
      unfold settingsFrom at hset
      split at hset
      · cases hset
      · rename_i rest hrest
        have hrest := knows_settingsFrom hrest fun e he => hes e (List.mem_cons_of_mem _ he)
        split at hset
        · cases hset; exact hrest
        · cases hset; exact hrest
        · cases hset; exact hes (_, v) List.mem_cons_self
        · split at hset <;> cases hset
          exact hrest
        · cases hset

theorem runs_increment {name : String} {keys : List String} {attributes : Attributes}
    {amount : Double}
    (allowed : S.vocabulary.commands (.telemetry (.increment name keys)) = true) :
    Runs S.Step s (increment ⟨name, attributes⟩ amount) fun _ _ => True := by
  have step : S.Step s { s with ledger := (s.ledger.increment ⟨name, attributes⟩ amount).1 } :=
    .increment allowed attributes amount
  unfold Runs
  rw [increment_apply]
  split
  · exact ⟨.single step, trivial⟩
  · exact .single step

theorem runs_telemetry (hs : S.Confines s) {c : TelemetryCommand} {vs : List Value}
    (allowed : S.vocabulary.commands (.telemetry c) = true)
    (hvs : ∀ v ∈ vs, S.Knows s.heap v) :
    Runs S.Step s (telemetry c vs) fun v s' => S.Knows s'.heap v := by
  unfold telemetry
  split
  · refine runs_heap_bind (runs_ofExcept_bind fun settings hset => ?_)
    refine runs_null (runs_configure (knows_settingsFrom hset ?_))
    exact fun e he => knows_entriesFrom hvs _ (OrderedMap.mem_values_of_mem he)
  · exact runs_ofExcept_bind fun _ _ => runs_reading hs
  · exact runs_get_bind (runs_pure trivial)
  · exact runs_ofExcept_bind fun _ _ => runs_null runs_setLimit
  · have reset : Runs S.Step s (do setLedger (← get).ledger.reset) fun _ _ => True :=
      runs_get_bind (runs_step rfl (.reset allowed) trivial)
    exact runs_null reset
  · refine runs_heap_bind (runs_ofExcept_bind fun _ _ => runs_ofExcept_bind fun _ _ => ?_)
    exact runs_null (runs_increment allowed)
  · refine runs_heap_bind (runs_ofExcept_bind fun _ _ => ?_)
    exact runs_get_bind (runs_pure trivial)
  · exact runs_get_bind (runs_reading hs)
  · refine runs_step_bind (t := { s with journal := [] }) rfl .takeRows ?_
    exact runs_reading ⟨hs.heap, hs.bindings, hs.shared⟩
  · exact runs_raise

/-! ## All commands -/

theorem runs_command (hcall : S.Serves engine call) (hs : S.Confines s)
    (he : S.KnowsEngine s.heap engine) (hw : ∀ a, S.known a → S.writable a) {c : Command}
    {vs : List Value} (allowed : S.vocabulary.commands c = true)
    (hvs : ∀ v ∈ vs, S.Knows s.heap v) :
    Runs S.Step s (command call engine c vs) fun v s' => S.Knows s'.heap v := by
  cases c with
  | container c =>
      refine runs_container hs hvs ?_
      rintro v hv a rfl
      have ha := hvs _ (List.mem_of_head? hv)
      exact hw a ha.1
  | definition c => exact runs_definition hs hw hvs
  | inspection c => exact runs_inspection hs hvs
  | dispatch c => exact runs_dispatch hcall hs he hw hvs
  | telemetry c => exact runs_telemetry hs allowed hvs

end Action
end OperatorDispatch
