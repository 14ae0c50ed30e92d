import OperatorDispatch.Dispatch
import OperatorDispatch.Proofs.Actions

/-!
# What a finished dispatch leaves behind

A dispatch that is over has a record, and the record alone determines what is
written about it: the span, the counter that goes up, the row of the journal.
`apply_eq` takes a dispatch apart accordingly.  First its work is done; then the
state that the work left is closed with the record, in one go and with nothing
in between; and the answer is the one of the work, unless the collector refuses
the count.  A dispatch that was cut short leaves no record.
-/

namespace OperatorDispatch

/-! ## Outcomes of decisions -/

/-- The outcome with which a decision is carried out, unless something fails. -/
def Decision.outcome? : Decision → Option Outcome
  | .answer _ outcome => some outcome
  | .fallBack .refuse _ | .fail _ => none
  | .fallBack _ _ => some .default
  | .invoke _ _ .truth => some .derived
  | .invoke _ _ _ => some .handler

namespace Decision

/-- A decision that is carried out, if it is, with a regular outcome. -/
def Regular (d : Decision) : Prop :=
  d.outcome? ≠ some .error

variable {h : Heap} {lhs rhs : Value} {o : Operator}

theorem regular_ofNative {c : Category} {typeName : String} {result : Primitive → Primitive}
    {r : Except NativeFault Primitive} : (ofNative c typeName result r).Regular := by
  unfold ofNative
  split
  · simp [Regular, outcome?]
  · cases c <;> simp [Regular, outcome?, Category.primitiveFallback]
  · simp [Regular, outcome?]

theorem regular_fallBack {fallback : Fallback} {typeName : String} :
    (Decision.fallBack fallback typeName).Regular := by
  cases fallback <;> simp [Regular, outcome?]

theorem regular_invoke {f : Function} {arguments : Arguments} {use : Use} :
    (Decision.invoke f arguments use).Regular := by
  cases use <;> simp [Regular, outcome?]

theorem regular_equality : (equality h lhs rhs).Regular := by
  unfold equality
  split
  · simp [Regular, outcome?]
  · split
    · exact regular_invoke
    · split <;> simp [Regular, outcome?]

theorem regular_strictEquality : (strictEquality h lhs rhs).Regular := by
  unfold strictEquality
  split
  · simp [Regular, outcome?]
  · split
    · exact regular_invoke
    · unfold derivedEquality
      split
      · split
        · exact regular_invoke
        · simp [Regular, outcome?]
      · split <;> simp [Regular, outcome?]

theorem regular_binary : (binary h o lhs rhs).Regular := by
  unfold binary
  split
  · exact regular_ofNative
  · exact regular_fallBack
  · split
    · exact regular_invoke
    · exact regular_fallBack

theorem regular_unary {operand : Value} {native : Primitive → Primitive} {use : Use} :
    (unary h o operand native use).Regular := by
  unfold unary
  split
  · exact regular_ofNative
  · split
    · exact regular_invoke
    · exact regular_fallBack

end Decision

/-- No decision is to be counted as an error. -/
theorem Application.regular_decide (h : Heap) (a : Application) : (a.decide h).Regular := by
  unfold decide
  split
  · split
    · exact Decision.regular_equality
    · exact Decision.regular_strictEquality
    · exact Decision.regular_binary
  · exact Decision.regular_unary
  · exact Decision.regular_unary

/-! ## Readings of a record -/

/-- Whether the dispatch ended by an ordinary failure. -/
def DispatchEnding.failed : DispatchEnding → Bool
  | .raised _ => true
  | .returned _ | .aborted => false

namespace DispatchRecord

variable (r : DispatchRecord)

def literal : String := r.application.operator.literal

/-- The span around the dispatch. -/
def span : Span :=
  ⟨Action.dispatchSpan,
    [("operator", r.literal), ("selector", r.application.operator.selector.identifier)],
    r.ending.failed⟩

/-- The counter that the dispatch is counted under. -/
def counter? : Option CounterKey :=
  r.ending.outcome?.map fun outcome =>
    ⟨Action.dispatchCounter, [("operator", r.literal), ("outcome", outcome.name)]⟩

/-- The row about a fallback. -/
def rows : List LogRow :=
  match r.decision with
  | .fallBack fallback typeName => [.fallback r.literal typeName fallback]
  | _ => []

/-- What every record is like: the decision is the one that the application
led to, and an outcome is the one that the decision led to. -/
structure Genuine : Prop where
  decided : ∃ h, r.decision = r.application.decide h
  outcome : ∀ outcome, r.ending = .returned outcome → r.decision.outcome? = some outcome

/-- A dispatch is counted as an error exactly if it failed. -/
theorem Genuine.outcome?_eq_error {r : DispatchRecord} (hr : r.Genuine) :
    r.ending.outcome? = some .error ↔ r.ending.failed = true := by
  cases h : r.ending with
  | raised fault => simp [DispatchEnding.outcome?, DispatchEnding.failed]
  | aborted => simp [DispatchEnding.outcome?, DispatchEnding.failed]
  | returned outcome =>
      obtain ⟨heap, hdecided⟩ := hr.decided
      have led := hr.outcome outcome h
      rw [hdecided] at led
      have regular := Application.regular_decide heap r.application
      have : outcome ≠ .error := by
        rintro rfl
        exact regular led
      simpa [DispatchEnding.outcome?, DispatchEnding.failed] using this

end DispatchRecord

/-! ## Closing a dispatch -/

namespace Ledger

/-- The ledger with a dispatch entered, and what the collector objects. -/
def enter (l : Ledger) (r : DispatchRecord) : Ledger × Option IncrementRefusal :=
  let l := if r.settings.traceSpans then l.record r.span else l
  match r.counter? with
  | some key => if r.settings.recordMetrics then l.increment key .one else (l, none)
  | none => (l, none)

/-- What holds of the ledger before a dispatch is entered, and is kept by its span and by
its count, holds afterwards. -/
theorem enter_induction {P : Ledger → Prop} {l : Ledger} {r : DispatchRecord} (start : P l)
    (span : P l → P (l.record r.span))
    (count : ∀ l key, r.counter? = some key → P l → P (l.increment key .one).1) :
    P (l.enter r).1 := by
  have traced : P (if r.settings.traceSpans then l.record r.span else l) := by
    split
    · exact span start
    · exact start
  unfold enter
  dsimp only
  split
  next key counted =>
    split
    · exact count _ key counted traced
    · exact traced
  next => exact traced

/-! ### One collector -/

theorem collector_of_announce {l l' : Ledger} {s : Series} (h : l.announce s = .ok l') :
    l'.collector = l.collector := by
  unfold announce at h
  split at h
  · cases h
    rfl
  · split at h <;> cases h
    rfl

theorem collector_increment (l : Ledger) (key : CounterKey) (amount : Double) :
    (l.increment key amount).1.collector = l.collector := by
  unfold increment
  dsimp only
  split
  · rfl
  next announced =>
    have same := collector_of_announce announced
    split <;> exact same

theorem collector_enter (l : Ledger) (r : DispatchRecord) :
    (l.enter r).1.collector = l.collector :=
  enter_induction (P := fun l' => l'.collector = l.collector) rfl (fun same => same)
    fun l key _ same => (collector_increment l key .one).trans same

end Ledger

namespace State

/-- The state with one more dispatch on record and in the ledger. -/
def close (s : State) (r : DispatchRecord) : State :=
  { s with dispatches := s.dispatches ++ [r], ledger := (s.ledger.enter r).1 }

/-- The same with the row about the dispatch. -/
def settle (s : State) (r : DispatchRecord) : State :=
  { s with
    journal := s.journal ++ r.rows
    dispatches := s.dispatches ++ [r]
    ledger := (s.ledger.enter r).1 }

theorem close_eq_settle {s : State} {r : DispatchRecord} (hr : r.rows = []) :
    s.close r = s.settle r := by
  simp [close, settle, hr]

end State

/-- What leaves a dispatch where its work raises a fault: a span has the fault
told, and without a span nobody asks for its text. -/
def Settings.told (settings : Settings) (fault : Fault) : Fault :=
  if settings.traceSpans then fault.told else fault

/-- To tell a fault again changes nothing. -/
theorem Fault.told_told (fault : Fault) : fault.told.told = fault.told := by
  cases fault with
  | missingKey key => cases key <;> rfl
  | _ => rfl

theorem Settings.told_told (settings : Settings) (fault : Fault) :
    (settings.told fault).told = fault.told := by
  unfold Settings.told
  split
  · exact fault.told_told
  · rfl

namespace Action

/-- The fault of an objection of the collector. -/
def refusalFault : IncrementRefusal → Fault
  | .duplicateSeries => .duplicateSeries
  | .negativeAmount => .negativeIncrement

/-- A dispatch closed: the answer stands unless the collector objects. -/
def concluded (r : DispatchRecord) (answer : State → EStateM.Result Interruption State Value)
    (s : State) : EStateM.Result Interruption State Value :=
  match (s.ledger.enter r).2 with
  | none => answer (s.close r)
  | some refusal => .error (.raised (refusalFault refusal)) (s.close r)

theorem concluded_of_accepted {r : DispatchRecord}
    {answer : State → EStateM.Result Interruption State Value} {s : State}
    (h : (s.ledger.enter r).2 = none) : concluded r answer s = answer (s.close r) := by
  simp only [concluded, h]

/-- What becomes of a dispatch when its work has ended. -/
def conclusion (settings : Settings) (a : Application) (d : Decision) :
    EStateM.Result Interruption State (Value × Outcome) → EStateM.Result Interruption State Value
  | .ok (v, outcome) s => concluded ⟨settings, a, d, .returned outcome⟩ (.ok v) s
  | .error (.raised fault) s =>
    concluded ⟨settings, a, d, .raised (settings.told fault)⟩
      (.error (.raised (settings.told fault))) s
  | .error (.aborted text) s =>
    concluded ⟨settings, a, d, .aborted⟩ (.error (.aborted text)) s
  | .error .exhausted s => .error .exhausted s

theorem increment_apply (key : CounterKey) (amount : Double) (s : State) :
    increment key amount s =
      match (s.ledger.increment key amount).2 with
      | none => .ok () { s with ledger := (s.ledger.increment key amount).1 }
      | some refusal =>
        .error (.raised (refusalFault refusal))
          { s with ledger := (s.ledger.increment key amount).1 } := by
  have read : (get : Action State) s = .ok s s := rfl
  refine (bind_ok read).trans ?_
  generalize s.ledger.increment key amount = counted
  obtain ⟨l, refusal⟩ := counted
  cases refusal with
  | none => rfl
  | some refusal => cases refusal <;> rfl

/-! ## Carrying a decision out -/

/-- The outcome is the one that the decision leads to. -/
theorem perform_outcome {call : Function → Arguments → Action Value} {settings : Settings}
    {a : Application} {d : Decision} {v : Value} {outcome : Outcome} {s t : State}
    (h : perform call settings a d s = .ok (v, outcome) t) : d.outcome? = some outcome := by
  have carried : Runs (fun _ _ => True) s (carryOut call settings a.operator d)
      fun x _ => d.outcome? = some x.2 := by
    cases d with
    | answer => exact runs_pure rfl
    | fail => exact runs_raise
    | fallBack fallback typeName =>
        refine runs_bind runs_any fun _ _ _ _ => ?_
        cases fallback with
        | sentinel | unequal => exact runs_pure rfl
        | refuse => exact runs_raise
    | invoke f arguments use =>
        cases use with
        | answer | receiver => exact runs_bind runs_any fun _ _ _ _ => runs_pure rfl
        | truth => exact runs_bind runs_any fun _ _ _ _ => runs_heap_bind (runs_pure rfl)
        | snapshot =>
            refine runs_heap_bind (runs_demand_bind fun _ _ => ?_)
            refine runs_bind runs_any fun _ _ _ _ => ?_
            exact runs_bind runs_any fun _ _ _ _ => runs_pure rfl
  have performed : Runs (fun _ _ => True) s (perform call settings a d)
      fun x _ => d.outcome? = some x.2 := by
    refine runs_bind carried fun x _ _ hx => ?_
    dsimp only
    split
    · exact runs_heap_bind (runs_pure hx)
    · exact runs_pure hx
  exact performed.result h

/-! ## Taking a dispatch apart -/

section Observation

variable {settings : Settings} {o : Operator} {work : Action (Value × Outcome)} {s t : State}

/-- The ledger after the span of a dispatch, where there is one. -/
def traced (settings : Settings) (o : Operator) (failed : Bool) (s : State) : State :=
  { s with
    ledger :=
      if settings.traceSpans then
        s.ledger.record
          ⟨dispatchSpan, [("operator", o.literal), ("selector", o.selector.identifier)], failed⟩
      else s.ledger }

theorem underSpan_ok {x : Value × Outcome} (hw : work s = .ok x t) :
    underSpan settings o work s = .ok x (traced settings o false t) := by
  unfold underSpan traced
  cases settings.traceSpans
  · simp only [Bool.false_eq_true, if_false, hw]
  · simp only [if_true, spanned, hw]
    rfl

theorem underSpan_raised {fault : Fault} (hw : work s = .error (.raised fault) t) :
    underSpan settings o work s =
      .error (.raised (settings.told fault)) (traced settings o true t) := by
  unfold underSpan Settings.told traced
  cases settings.traceSpans
  · simp only [Bool.false_eq_true, if_false, hw]
  · simp only [if_true, spanned, hw]
    rfl

theorem underSpan_aborted {text : String} (hw : work s = .error (.aborted text) t) :
    underSpan settings o work s = .error (.aborted text) (traced settings o false t) := by
  unfold underSpan traced
  cases settings.traceSpans
  · simp only [Bool.false_eq_true, if_false, hw]
  · simp only [if_true, spanned, hw]
    rfl

theorem underSpan_exhausted (hw : work s = .error .exhausted t) :
    underSpan settings o work s = .error .exhausted t := by
  unfold underSpan
  cases settings.traceSpans
  · simp only [Bool.false_eq_true, if_false, hw]
  · simp only [if_true, spanned, hw]

/-- Counting an outcome and going on is entering the record in the ledger. -/
theorem countOutcome_bind {outcome : Outcome} {next : Action Value}
    {answer : State → EStateM.Result Interruption State Value} {a : Application} {d : Decision}
    {ending : DispatchEnding} (ho : ending.outcome? = some outcome)
    (hnext : ∀ t, next t = answer t) :
    (do countOutcome settings a.operator outcome; next : Action Value)
        (traced settings a.operator ending.failed (s.conclude ⟨settings, a, d, ending⟩)) =
      concluded ⟨settings, a, d, ending⟩ answer s := by
  let key : CounterKey :=
    ⟨dispatchCounter, [("operator", a.operator.literal), ("outcome", outcome.name)]⟩
  have hkey : (⟨settings, a, d, ending⟩ : DispatchRecord).counter? = some key := by
    simp [DispatchRecord.counter?, ho, DispatchRecord.literal, key]
  cases hm : settings.recordMetrics with
  | false =>
      have count : countOutcome settings a.operator outcome = pure () := by
        simp [countOutcome, hm]
      rw [count, concluded, Ledger.enter, hkey]
      simp only [hm, Bool.false_eq_true, if_false]
      exact (hnext _).trans (by simp [State.close, Ledger.enter, hkey, hm]; rfl)
  | true =>
      let t := traced settings a.operator ending.failed (s.conclude ⟨settings, a, d, ending⟩)
      have hcount : countOutcome settings a.operator outcome t = increment key .one t := by
        simp [countOutcome, hm, key]
      have henter : s.ledger.enter ⟨settings, a, d, ending⟩ = t.ledger.increment key .one := by
        rw [Ledger.enter, hkey]
        simp only [hm, if_true]
        rfl
      have hclose : s.close ⟨settings, a, d, ending⟩ =
          { t with ledger := (t.ledger.increment key .one).1 } := by
        rw [State.close, henter]
        rfl
      rw [concluded, henter, hclose]
      rw [increment_apply] at hcount
      cases hi : (t.ledger.increment key .one).2 with
      | none =>
          rw [hi] at hcount
          exact (bind_ok hcount).trans (hnext _)
      | some refusal =>
          rw [hi] at hcount
          exact bind_error hcount

end Observation

/-- A dispatch is its work, closed with the record of how the work ended. -/
theorem apply_eq (call : Function → Arguments → Action Value) (settings : Settings)
    (a : Application) (s : State) :
    apply call settings a s =
      conclusion settings a (a.decide s.heap)
        (perform call settings a (a.decide s.heap) s) := by
  -- the decision is told from the heap, and nothing happens before its work
  have hconduct : conduct call settings a s =
      recorded settings a (a.decide s.heap)
        (underSpan settings a.operator (perform call settings a (a.decide s.heap))) s := rfl
  unfold apply counted
  rw [hconduct]
  unfold recorded
  cases hp : perform call settings a (a.decide s.heap) s with
  | ok x t =>
      have counts : (DispatchEnding.returned x.2).outcome? = some x.2 := rfl
      rw [underSpan_ok hp]
      exact countOutcome_bind counts fun _ => rfl
  | error e t =>
      cases e with
      | raised fault =>
          have counts : (DispatchEnding.raised (settings.told fault)).outcome? = some .error := rfl
          rw [underSpan_raised hp]
          exact countOutcome_bind counts fun _ => rfl
      | aborted text =>
          rw [underSpan_aborted hp]
          rfl
      | exhausted => rw [underSpan_exhausted hp]; rfl

end Action

end OperatorDispatch
