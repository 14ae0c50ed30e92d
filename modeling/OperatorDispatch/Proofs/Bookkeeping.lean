import OperatorDispatch.Proofs.Books
import OperatorDispatch.Proofs.Requests

/-!
# Keeping the books

Code of a vocabulary does nothing to the books but bookings
(`ReachableWithin.books`).  The functions of the engine are taken in order, from
the settings over dispatches to expressions.  Where one function goes on after
another, it starts from a state about which the scope knows what it has to, so the
bookings of the parts are put together and nothing is said twice.
-/

namespace OperatorDispatch
namespace Action

variable {V : Vocabulary} {s : State} {engine : Engine} {settings : Settings}
  {call : Function → Arguments → Action Value}

/-! ## Settings -/

theorem keepsBooks_setLimit (allowed : V.commands (.telemetry .setLimit) = true) (n : Int) :
    KeepsBooks V s (setLimit n) :=
  runs_ofExcept_bind fun _ checked => runs_get_bind (runs_step rfl (.limit allowed checked) trivial)

theorem keepsBooks_configure
    (asked : (∃ fields, V.commands (.telemetry (.configure fields)) = true) ∨
      s.shared = none ∧ ∃ environment, Settings.ofEnvironment environment = .ok settings) :
    KeepsBooks V s (configure settings) := by
  cases checked : checkLimit settings.ledgerLimit with
  | ok limit => exact runs_step (configure_ok checked s) (.adopt asked checked) trivial
  | error fault =>
      refine keepsBooks_iff.mpr ?_
      rw [configure_error checked s]
      exact .refl

/-- The environment is read where there are no settings yet. -/
theorem keepsBooks_settingsOf : KeepsBooks V s (settingsOf engine) := by
  cases engine with
  | own settings => exact runs_pure trivial
  | shared environment =>
      refine runs_get_bind ?_
      cases hshared : s.shared with
      | some settings => exact runs_pure trivial
      | none =>
          refine runs_ofExcept_bind fun settings read => ?_
          refine runs_bind (keepsBooks_configure (.inr ⟨hshared, environment, read⟩)) ?_
          exact fun _ _ _ _ => runs_pure trivial

theorem keepsBooks_registerOperator {o : Operator} : KeepsBooks V s (registerOperator o) := by
  refine runs_get_bind ?_
  cases s.operators.register? o with
  | some t => exact runs_step rfl (.elsewhere rfl rfl rfl rfl rfl) trivial
  | none => exact runs_raise

/-! ## Dispatches -/

/-- Closing a dispatch is the last that is done. -/
theorem finalState_concluded (r : DispatchRecord)
    {answer : State → EStateM.Result Interruption State Value}
    (h : ∀ t, finalState (answer t) = t) (t : State) :
    finalState (concluded r answer t) = t.close r := by
  unfold concluded
  split
  · exact h _
  · rfl

/-- A call of a known handler on known arguments keeps the books. -/
def CallsKeepBooks (V : Vocabulary) (engine : Engine)
    (call : Function → Arguments → Action Value) : Prop :=
  ∀ (f : Function) (arguments : Arguments) (s : State), (Scope.whole V).Confines s →
    (Scope.whole V).KnowsEngine s.heap engine → f.body.within V = true →
    (Scope.whole V).KnowsArguments s.heap arguments → KeepsBooks V s (call f arguments)

section Calls

variable (hcall : (Scope.whole V).Serves engine call) (hbooks : CallsKeepBooks V engine call)
  (hs : (Scope.whole V).Confines s) (he : (Scope.whole V).KnowsEngine s.heap engine)

include hs he in
/-- A command that goes on from the settings of the engine. -/
theorem keepsBooks_settled {f : Settings → Action Value}
    (hf : ∀ settings t, (Scope.whole V).Steps s t →
      (Scope.whole V).Knows t.heap settings.sentinel → KeepsBooks V t (f settings)) :
    KeepsBooks V s (settingsOf engine >>= f) :=
  keepsBooks_bind keepsBooks_settingsOf (runs_settingsOf hs he) hf

include hbooks hs he in
theorem keepsBooks_invoke {f : Function} {arguments : Arguments} (use : Use)
    (hf : f.body.within V = true) (ha : (Scope.whole V).KnowsArguments s.heap arguments) :
    KeepsBooks V s (invoke call f arguments use) := by
  have called := hbooks f arguments s hs he hf ha
  cases use with
  | answer | receiver => exact runs_bind called fun _ _ _ _ => runs_pure trivial
  | truth => exact runs_bind called fun _ _ _ _ => runs_heap_bind (runs_pure trivial)
  | snapshot =>
      refine runs_heap_bind (runs_demand_bind ?_)
      rintro ⟨a, i⟩ hi
      obtain ⟨-, hi⟩ := Heap.instanceOf?_eq_some.mp hi
      have taken := runs_snapshot hs (a := a) trivial hi
      refine keepsBooks_bind (keepsBooks_plain (plain_snapshot i) taken) taken ?_
      rintro b t steps -
      have hl := Scope.Steps.later steps
      refine runs_bind (hbooks f arguments t (Scope.Steps.confines steps hs) (he.later hl) hf
        (ha.later hl)) ?_
      exact fun _ _ _ _ => runs_pure trivial

include hcall hbooks hs he

/-- A dispatch that calls no handler makes one booking.  Where a handler is called,
the bookings of the call come first and then the one of the dispatch. -/
theorem keepsBooks_apply {a : Application} (ha : (Scope.whole V).KnowsApplication s.heap a) :
    KeepsBooks V s (apply call settings a) := by
  have named : ∀ ending h, s.heap.Later h →
      (⟨settings, a, a.decide s.heap, ending⟩ : DispatchRecord).operandName h =
        (⟨settings, a, a.decide s.heap, ending⟩ : DispatchRecord).operandName s.heap :=
    fun _ _ hl => hs.heap.typeName_later ha.this hl
  cases called : (a.decide s.heap).invokes with
  | false =>
      obtain ⟨r, ending⟩ := a.exists_ending settings s.heap called
      have alone : apply call settings a s = _ := apply_alone ending
      have performed : perform call settings a (a.decide s.heap) s = _ := perform_alone ending
      have settled : s.Booking V (s.settle ⟨settings, a, a.decide s.heap, .ofExcept r⟩) := by
        refine .settle (.refl _) ⟨rfl, ?_, ?_, named _⟩
        · intro outcome returned
          cases r with
          | ok x =>
              cases returned
              exact perform_outcome performed
          | error fault => cases returned
        · intro result given
          exact congrArg DispatchEnding.ofExcept (Option.some.inj (ending.symm.trans given))
      refine keepsBooks_of_booking ?_
      rw [alone]
      generalize upheld s.ledger _ (r.map Prod.fst) = answer
      cases answer <;> exact settled
  | true =>
      obtain ⟨f, use, decided⟩ := Application.exists_handler_of_invokes called
      have known := hs.heap.knows_decide ha
      rw [decided] at named known
      have inside : Runs (Scope.whole V).Step s
          (perform call settings a (.invoke f a.arguments use))
          fun x s' => (Scope.whole V).Knows s'.heap x.1 :=
        runs_perform hcall hs he known (by simp)
      have work : KeepsBooks V s (perform call settings a (.invoke f a.arguments use)) := by
        refine runs_bind (keepsBooks_invoke hbooks hs he use known.1 known.2) fun x t _ _ => ?_
        dsimp only
        split
        · exact runs_heap_bind (runs_pure trivial)
        · exact runs_pure trivial
      -- the record is closed on the state that the work has left
      have closed : ∀ t ending, (Scope.whole V).Steps s t →
          (∀ outcome, ending = .returned outcome →
            (Decision.invoke f a.arguments use).outcome? = some outcome) →
          t.Booking V (t.close ⟨settings, a, .invoke f a.arguments use, ending⟩) := by
        intro t ending steps outcome
        rw [State.close_eq_settle (rows_eq_nil (by simp))]
        refine .settle (Scope.Steps.later steps) ⟨decided.symm, outcome, ?_, named ending⟩
        rintro result ⟨⟩
      have steps := inside.steps
      have booked := keepsBooks_iff.mp work
      refine keepsBooks_iff.mpr ?_
      rw [apply_eq, decided]
      cases hp : perform call settings a (.invoke f a.arguments use) s with
      | ok x t =>
          rw [hp] at steps booked
          rw [conclusion, finalState_concluded _ fun _ => rfl]
          refine booked.tail (closed t _ steps ?_)
          rintro outcome ⟨⟩
          exact perform_outcome hp
      | error e t =>
          rw [hp] at steps booked
          cases e with
          | raised fault =>
              rw [conclusion, finalState_concluded _ fun _ => rfl]
              exact booked.tail (closed t _ steps nofun)
          | aborted text =>
              rw [conclusion, finalState_concluded _ fun _ => rfl]
              exact booked.tail (closed t _ steps nofun)
          | exhausted => exact booked

theorem keepsBooks_serve {request : Request} (hr : request.Known (Scope.whole V) s.heap) :
    KeepsBooks V s (serve call settings request) := by
  cases accepted : request.application s.operators with
  | error fault =>
      refine keepsBooks_iff.mpr ?_
      rw [serve_refused accepted]
      exact .refl
  | ok a =>
      have applied : KeepsBooks V s (apply call settings a) :=
        keepsBooks_apply hcall hbooks hs he (Request.knowsApplication hr accepted)
      refine keepsBooks_iff.mpr ?_
      rw [serve_accepted accepted]
      exact applied.steps

/-- A request served with the settings of the engine. -/
theorem keepsBooks_request {request : Request} (hr : request.Known (Scope.whole V) s.heap) :
    KeepsBooks V s (do serve call (← settingsOf engine) request) := by
  refine keepsBooks_settled hs he fun settings t steps _ => ?_
  have hl := Scope.Steps.later steps
  exact keepsBooks_serve hcall hbooks (Scope.Steps.confines steps hs) (he.later hl)
    (Request.Known.later hl hr)

/-! ### Slots -/

theorem keepsBooks_assign {a : Address} {literal : String} {rhs : Value}
    (hr : (Scope.whole V).Knows s.heap rhs) :
    KeepsBooks V s (assign call engine a literal rhs) := by
  refine runs_ofExcept_bind fun binary _ => ?_
  refine keepsBooks_settled hs he fun settings t steps hsent => ?_
  have ht := Scope.Steps.confines steps hs
  have hl := Scope.Steps.later steps
  refine runs_cellAt_bind fun current hcell => ?_
  have hcurrent : (Scope.whole V).Knows t.heap current := ht.heap.object a _ trivial hcell
  have served : KeepsBooks V t (serve call settings (.binary binary current rhs)) :=
    keepsBooks_serve hcall hbooks ht (he.later hl) ⟨hcurrent, hr.later hl⟩
  have inside : Runs (Scope.whole V).Step t (dispatchBinary call settings binary current rhs)
      fun v s' => (Scope.whole V).Knows s'.heap v :=
    runs_dispatchBinary hcall ht (he.later hl) hsent hcurrent (hr.later hl)
  refine keepsBooks_bind served inside fun v u steps' hv => ?_
  have rebound := runs_setCell (a := a) trivial hcell (Scope.Steps.later steps') hv
  exact runs_bind (keepsBooks_plain (.write a rfl) rebound) fun _ _ _ _ => runs_pure trivial

theorem keepsBooks_step {a : Address} {literal : String} {position : Position}
    (hsent : (Scope.whole V).Knows s.heap settings.sentinel) :
    KeepsBooks V s (step call settings a literal position) := by
  refine runs_cellAt_bind fun current hcell => ?_
  have hcurrent : (Scope.whole V).Knows s.heap current := hs.heap.object a _ trivial hcell
  cases current with
  | primitive p =>
      have served : KeepsBooks V s (serve call settings (.placed literal .before (.primitive p))) :=
        keepsBooks_serve hcall hbooks hs he hcurrent
      have inside : Runs (Scope.whole V).Step s
          (dispatchAt call settings literal .before (.primitive p))
          fun v s' => (Scope.whole V).Knows s'.heap v :=
        runs_dispatchAt hcall hs he hsent hcurrent
      refine keepsBooks_bind served inside fun v u steps hv => ?_
      have rebound := runs_setCell (a := a) trivial hcell (Scope.Steps.later steps) hv
      exact runs_bind (keepsBooks_plain (.write a rfl) rebound) fun _ _ _ _ => runs_pure trivial
  | function f =>
      have served : KeepsBooks V s (serve call settings (.placed literal position (.function f))) :=
        keepsBooks_serve hcall hbooks hs he hcurrent
      exact served
  | object b =>
      have served : KeepsBooks V s (serve call settings (.placed literal position (.object b))) :=
        keepsBooks_serve hcall hbooks hs he hcurrent
      exact served

theorem keepsBooks_update {a : Address} {literal : String} {position : Option String} :
    KeepsBooks V s (update call engine a literal position) := by
  refine keepsBooks_settled hs he fun settings t steps hsent => ?_
  have hl := Scope.Steps.later steps
  refine runs_ofExcept_bind fun p _ => ?_
  cases p with
  | unspecified => exact runs_raise
  | before | after =>
      exact keepsBooks_step hcall hbooks (Scope.Steps.confines steps hs) (he.later hl) hsent

/-! ### All that dispatches -/

theorem keepsBooks_dispatch {c : DispatchCommand} {vs : List Value}
    (hvs : ∀ v ∈ vs, (Scope.whole V).Knows s.heap v) :
    KeepsBooks V s (dispatch call engine c vs) := by
  have request : ∀ request : Request, request.Known (Scope.whole V) s.heap →
      KeepsBooks V s (do serve call (← settingsOf engine) request) :=
    fun _ => keepsBooks_request hcall hbooks hs he
  unfold dispatch
  split
  · rename_i literal v w
    exact request (.binary literal v w) ⟨hvs v (by simp), hvs w (by simp)⟩
  · rename_i literal position v
    exact request (.unary literal position v) (hvs v (by simp))
  · rename_i literal v
    exact request (.placed literal .before v) (hvs v (by simp))
  · rename_i literal v
    exact request (.placed literal .after v) (hvs v (by simp))
  · rename_i v w
    exact request (.binary "==" v w) ⟨hvs v (by simp), hvs w (by simp)⟩
  · rename_i v w
    exact request (.binary "===" v w) ⟨hvs v (by simp), hvs w (by simp)⟩
  · exact runs_ofExcept_bind fun sel _ => keepsBooks_plain (plain_native sel _) runs_native
  · rename_i cell v
    refine runs_heap_bind (runs_demand_bind fun _ _ => ?_)
    exact keepsBooks_assign hcall hbooks hs he (hvs v (by simp))
  · refine runs_heap_bind (runs_demand_bind fun _ _ => ?_)
    exact keepsBooks_update hcall hbooks hs he
  · refine runs_ofExcept_bind fun _ _ => ?_
    exact runs_bind keepsBooks_registerOperator fun _ _ _ _ => runs_pure trivial
  · exact runs_raise

end Calls

/-! ## Telemetry -/

theorem keepsBooks_increment {name : String} {keys : List String}
    (allowed : V.commands (.telemetry (.increment name keys)) = true)
    {m : OrderedMap String Value} {attributes : Attributes}
    (read : attributesFrom s.heap m = .ok attributes) (amount : Double) :
    KeepsBooks V s (increment ⟨name, attributes⟩ amount) := by
  refine keepsBooks_of_booking ?_
  rw [increment_apply]
  cases (s.ledger.increment ⟨name, attributes⟩ amount).2 with
  | none => exact .increment allowed read amount
  | some refusal => exact .increment allowed read amount

theorem keepsBooks_telemetry (hs : (Scope.whole V).Confines s) {c : TelemetryCommand}
    {vs : List Value} (allowed : V.commands (.telemetry c) = true) :
    KeepsBooks V s (telemetry c vs) := by
  -- the command is done for its effect, with null as its answer
  have null : ∀ {m : Action Unit}, KeepsBooks V s m →
      KeepsBooks V s (do m; return .null : Action Value) :=
    fun hm => runs_bind hm fun _ _ _ _ => runs_pure trivial
  unfold telemetry
  split
  · refine runs_heap_bind (runs_ofExcept_bind fun _ _ => ?_)
    exact null (keepsBooks_configure (.inl ⟨_, allowed⟩))
  · exact runs_ofExcept_bind fun _ _ => keepsBooks_plain (plain_newObject rfl) (runs_reading hs)
  · exact runs_get_bind (runs_pure trivial)
  · exact runs_ofExcept_bind fun n _ => null (keepsBooks_setLimit allowed n)
  · have reset : KeepsBooks V s (do setLedger (← get).ledger.reset) :=
      runs_get_bind (runs_step rfl (.reset allowed) trivial)
    exact null reset
  · refine runs_heap_bind (runs_ofExcept_bind fun _ read => ?_)
    refine runs_ofExcept_bind fun amount _ => ?_
    exact null (keepsBooks_increment allowed read amount)
  · refine runs_heap_bind (runs_ofExcept_bind fun _ _ => ?_)
    exact runs_get_bind (runs_pure trivial)
  · exact runs_get_bind (keepsBooks_plain (plain_newObject rfl) (runs_reading hs))
  · exact keepsBooks_of_booking .read
  · exact runs_raise

theorem keepsBooks_command (hcall : (Scope.whole V).Serves engine call)
    (hbooks : CallsKeepBooks V engine call) (hs : (Scope.whole V).Confines s)
    (he : (Scope.whole V).KnowsEngine s.heap engine) {c : Command} {vs : List Value}
    (allowed : V.commands c = true) (hvs : ∀ v ∈ vs, (Scope.whole V).Knows s.heap v) :
    KeepsBooks V s (command call engine c vs) := by
  cases c with
  | container c =>
      exact keepsBooks_plain (plain_container c vs) (runs_container hs hvs fun _ _ _ _ => trivial)
  | definition c =>
      exact keepsBooks_plain (plain_definition c vs) (runs_definition hs (fun _ h => h) hvs)
  | inspection c => exact keepsBooks_plain (plain_inspection c vs) (runs_inspection hs hvs)
  | dispatch c => exact keepsBooks_dispatch hcall hbooks hs he hvs
  | telemetry c => exact keepsBooks_telemetry hs allowed

/-! ## Expressions -/

theorem keepsBooks_readVariable (frame : Option Arguments) (name : String) :
    KeepsBooks V s (readVariable frame name) := by
  refine keepsBooks_iff.mpr ?_
  unfold readVariable
  dsimp only
  split
  · exact .refl
  · split <;> exact .refl

theorem keepsBooks_attempt {body fallback : Action Value} (hb : KeepsBooks V s body)
    (hf : ∀ fault t, body s = .error (.raised fault) t → KeepsBooks V t fallback) :
    KeepsBooks V s (attempt body fallback) := by
  have booked := hb.steps
  refine keepsBooks_iff.mpr ?_
  unfold attempt
  cases given : body s with
  | ok v t =>
      rw [given] at booked
      exact booked
  | error e t =>
      rw [given] at booked
      cases e with
      | raised fault => exact booked.trans (hf fault t given).steps
      | aborted | exhausted => exact booked

theorem keepsBooks_spanned (allowed : V.spans = true) (name : String) (attributes : Attributes)
    {work : Action Value} (hw : KeepsBooks V s work) :
    KeepsBooks V s (spanned name attributes work) := by
  have booked := hw.steps
  refine keepsBooks_iff.mpr ?_
  unfold spanned
  cases given : work s with
  | ok v t =>
      rw [given] at booked
      exact booked.tail (.span allowed _)
  | error e t =>
      rw [given] at booked
      cases e with
      | raised | aborted => exact booked.tail (.span allowed _)
      | exhausted => exact booked

mutual

theorem keepsBooks_evaluate {frame : Option Arguments} (hcall : (Scope.whole V).Serves engine call)
    (hbooks : CallsKeepBooks V engine call) :
    ∀ (e : Expr) {s : State}, (Scope.whole V).Confines s →
    (Scope.whole V).KnowsEngine s.heap engine → (Scope.whole V).KnowsFrame s.heap frame →
    e.within V = true → KeepsBooks V s (evaluate call engine frame e)
  | .literal _, _, _, _, _, _ => runs_pure trivial
  | .variable name, _, _, _, _, _ => keepsBooks_readVariable frame name
  | .assign _ e, _, hs, he, hf, hin => by
      refine runs_bind (keepsBooks_evaluate hcall hbooks e hs he hf hin) fun _ _ _ _ => ?_
      exact runs_step_bind rfl (.elsewhere rfl rfl rfl rfl rfl) (runs_pure trivial)
  | .handler _ _, _, _, _, _, _ =>
      runs_step_bind rfl (.elsewhere rfl rfl rfl rfl rfl) (runs_pure trivial)
  | .sequence es, _, hs, he, hf, hin => by
      refine runs_bind (keepsBooks_evaluateAll hcall hbooks es hs he hf hin) fun _ _ _ _ => ?_
      exact runs_pure trivial
  | .choose condition accept decline, _, hs, he, hf, hin => by
      simp only [Expr.within, Bool.and_eq_true] at hin
      have inside := runs_evaluate hcall (fun _ h => h) condition hs he hf hin.1.1
      refine keepsBooks_bind (keepsBooks_evaluate hcall hbooks condition hs he hf hin.1.1) inside ?_
      intro v t steps _
      have ht := Scope.Steps.confines steps hs
      have hl := Scope.Steps.later steps
      refine runs_heap_bind ?_
      split
      · exact keepsBooks_evaluate hcall hbooks accept ht (he.later hl) (hf.later hl) hin.1.2
      · exact keepsBooks_evaluate hcall hbooks decline ht (he.later hl) (hf.later hl) hin.2
  | .attempt body fallback, _, hs, he, hf, hin => by
      simp only [Expr.within, Bool.and_eq_true] at hin
      have inside := runs_evaluate hcall (fun _ h => h) body hs he hf hin.1
      refine keepsBooks_attempt (keepsBooks_evaluate hcall hbooks body hs he hf hin.1) ?_
      intro fault t raised
      have steps := inside.steps
      rw [raised] at steps
      have hl := Scope.Steps.later steps
      exact keepsBooks_evaluate hcall hbooks fallback (Scope.Steps.confines steps hs) (he.later hl)
        (hf.later hl) hin.2
  | .raise _ _, _, _, _, _, _ => runs_raise
  | .abort _, _, _, _, _, _ => runs_throw
  | .trace e, _, hs, he, hf, hin => by
      refine runs_bind (keepsBooks_evaluate hcall hbooks e hs he hf hin) fun _ _ _ _ => ?_
      exact runs_step_bind rfl (.elsewhere rfl rfl rfl rfl rfl) (runs_pure trivial)
  | .span name _ attributes body, _, hs, he, hf, hin => by
      simp only [Expr.within, Bool.and_eq_true] at hin
      have inside := runs_evaluateAll hcall (fun _ h => h) attributes hs he hf hin.1.2
      refine keepsBooks_bind
        (keepsBooks_evaluateAll hcall hbooks attributes hs he hf hin.1.2) inside ?_
      intro vs t steps _
      have hl := Scope.Steps.later steps
      refine runs_heap_bind (runs_ofExcept_bind fun texts _ => ?_)
      exact keepsBooks_spanned hin.1.1 name texts (keepsBooks_evaluate hcall hbooks body
        (Scope.Steps.confines steps hs) (he.later hl) (hf.later hl) hin.2)
  | .call c operands, _, hs, he, hf, hin => by
      simp only [Expr.within, Bool.and_eq_true] at hin
      have inside := runs_evaluateAll hcall (fun _ h => h) operands hs he hf hin.2
      refine keepsBooks_bind (keepsBooks_evaluateAll hcall hbooks operands hs he hf hin.2) inside ?_
      intro vs t steps hvs
      exact keepsBooks_command hcall hbooks (Scope.Steps.confines steps hs)
        (he.later (Scope.Steps.later steps)) hin.1 hvs

theorem keepsBooks_evaluateAll {frame : Option Arguments}
    (hcall : (Scope.whole V).Serves engine call) (hbooks : CallsKeepBooks V engine call) :
    ∀ (es : List Expr) {s : State}, (Scope.whole V).Confines s →
    (Scope.whole V).KnowsEngine s.heap engine → (Scope.whole V).KnowsFrame s.heap frame →
    Expr.allWithin V es = true → KeepsBooks V s (evaluateAll call engine frame es)
  | [], _, _, _, _, _ => runs_pure trivial
  | e :: es, _, hs, he, hf, hin => by
      simp only [Expr.allWithin, Bool.and_eq_true] at hin
      have inside := runs_evaluate hcall (fun _ h => h) e hs he hf hin.1
      refine keepsBooks_bind (keepsBooks_evaluate hcall hbooks e hs he hf hin.1) inside ?_
      intro v t steps _
      have hl := Scope.Steps.later steps
      have rest := keepsBooks_evaluateAll hcall hbooks es (Scope.Steps.confines steps hs)
        (he.later hl) (hf.later hl) hin.2
      exact runs_bind rest fun _ _ _ _ => runs_pure trivial

end

/-- However deep handlers call each other, a call keeps the books. -/
theorem callsKeepBooks_callAt (engine : Engine) :
    ∀ depth, CallsKeepBooks V engine (callAt engine depth)
  | 0 => fun _ _ _ _ _ _ _ => runs_throw
  | depth + 1 => by
      intro f arguments s hs he hf ha
      refine keepsBooks_evaluate (serves_callAt (fun _ h => h) engine depth)
        (callsKeepBooks_callAt engine depth) f.body hs he ?_ hf
      rintro _ ⟨⟩
      exact ha

end Action

/-! ## Runs -/

variable {V : Vocabulary} {s s' : State}

/-- What a stretch of code does to the books. -/
theorem State.Stretch.books (hs : (Scope.whole V).Confines s) (h : s.Stretch V s') :
    (Scope.whole V).Confines s' ∧ s.Bookings V s' := by
  cases h with
  | @evaluate engine frame e depth engineKnown frameKnown within =>
      have inside := Action.runs_whole depth hs engineKnown frameKnown within
      have served := Action.serves_callAt (S := Scope.whole V) (fun _ h => h) engine depth
      have booked := Action.keepsBooks_evaluate served (Action.callsKeepBooks_callAt engine depth) e
        hs engineKnown frameKnown within
      exact ⟨Scope.Steps.confines inside.steps hs, booked.steps⟩
  | rest => exact ⟨⟨hs.heap, hs.bindings, hs.shared⟩, .single (.elsewhere rfl rfl rfl rfl rfl)⟩

theorem State.LeadsTo.books (hs : (Scope.whole V).Confines s) (h : s.LeadsTo V s') :
    (Scope.whole V).Confines s' ∧ s.Bookings V s' := by
  induction h with
  | refl => exact ⟨hs, .refl⟩
  | tail _ last ih =>
      obtain ⟨confined, booked⟩ := ih
      obtain ⟨confined', booked'⟩ := last.books confined
      exact ⟨confined', booked.trans booked'⟩

theorem ReachableWithin.leadsTo_initial (hs : ReachableWithin V s) :
    ∃ collector, State.LeadsTo V (.initial collector) s := by
  induction hs with
  | @initial collector => exact ⟨collector, .refl⟩
  | evaluate before depth engineKnown frameKnown within ih =>
      obtain ⟨collector, h⟩ := ih
      exact ⟨collector, h.tail (.evaluate depth engineKnown frameKnown within)⟩
  | rest before ih =>
      obtain ⟨collector, h⟩ := ih
      exact ⟨collector, h.tail .rest⟩

/-- Every reachable state comes about by bookings. -/
theorem ReachableWithin.books (hs : ReachableWithin V s) :
    ∃ collector, State.Bookings V (.initial collector) s := by
  obtain ⟨collector, h⟩ := hs.leadsTo_initial
  exact ⟨collector, (State.LeadsTo.books Scope.confines_initial h).2⟩

end OperatorDispatch
