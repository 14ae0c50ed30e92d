import Mathlib.Data.List.Induction
import OperatorDispatch.Proofs.Reachability
import OperatorDispatch.Proofs.Requests
import OperatorDispatch.Proofs.Tally

/-!
# Accounting for dispatches

Code that opens no spans, increments no counters and does not reset the ledger
leaves the ledger to the dispatches.  Then the ledger is what becomes of an
empty one when the dispatches are entered in the order in which they are over,
and the limit is changed in between (`State.Accounted`).  A dispatch is over
after all those that its handler has made, so this order is the post-order of
the tree of calls.

The collector could spoil the account: an increment that it refuses is raised
as a fault.  All that it is asked about is the one series of the dispatches, and
an amount of one; a collector that creates a first series and takes that amount
refuses none of them (`Collector.AdmitsDispatches`).
-/

namespace OperatorDispatch

/-- Everything but spans, increments and resets. -/
def Vocabulary.quiet : Vocabulary where
  commands
    | .telemetry (.increment ..) | .telemetry .reset => false
    | _ => true
  spans := false

/-! ## Entering a dispatch -/

/-- The series that dispatches are counted in. -/
def dispatchSeries : Series :=
  ⟨Action.dispatchCounter, ["operator", "outcome"]⟩

/-- A collector that lets dispatches be counted, as long as nothing else is. -/
structure Collector.AdmitsDispatches (c : Collector) : Prop where
  creates : c.creates [] dispatchSeries = true
  accepts : c.accepts .one = true

theorem Collector.admitsDispatches_standard : standard.AdmitsDispatches :=
  ⟨by decide, by decide⟩

namespace Ledger

variable {l : Ledger} {r : DispatchRecord}

/-- The collector knows of dispatches only, and admits them. -/
structure CountsDispatches (l : Ledger) : Prop where
  series : ∀ x ∈ l.series, x = dispatchSeries
  admits : l.collector.AdmitsDispatches

theorem countsDispatches_empty {c : Collector} (admits : c.AdmitsDispatches) :
    (empty c).CountsDispatches :=
  ⟨fun _ hx => absurd hx List.not_mem_nil, admits⟩

theorem increment_dispatch (hl : l.CountsDispatches) {key : CounterKey}
    (hkey : (⟨key.name, key.attributes.names⟩ : Series) = dispatchSeries) :
    ∃ series, (∀ x ∈ series, x = dispatchSeries) ∧
      l.increment key .one =
        ({ l with counters := l.counters.insert key ((l.total key).add .one), series }, none) := by
  have accepts := hl.admits.accepts
  unfold increment announce
  rw [hkey]
  by_cases hmem : dispatchSeries ∈ l.series
  · exact ⟨l.series, hl.series, by simp [add, hmem, accepts]⟩
  · have hnil : l.series = [] :=
      List.eq_nil_iff_forall_not_mem.mpr fun x hx => hmem (hl.series x hx ▸ hx)
    exact ⟨[dispatchSeries], by simp, by simp [add, hnil, hl.admits.creates, accepts]⟩

/-- The totals with a dispatch counted, unless it was aborted. -/
def counted (l : Ledger) (r : DispatchRecord) : OrderedMap CounterKey Double :=
  match r.counter? with
  | some key => l.counters.insert key ((l.total key).add .one)
  | none => l.counters

/-- What entering a dispatch changes, and that nothing is refused. -/
theorem enter_eq (hl : l.CountsDispatches) (r : DispatchRecord) :
    ∃ series, (∀ x ∈ series, x = dispatchSeries) ∧
      l.enter r =
        (⟨if r.settings.traceSpans then newest l.limit (l.spans ++ [r.span]) else l.spans,
          l.limit, if r.settings.recordMetrics then l.counted r else l.counters, series,
          l.collector⟩, none) := by
  have traced : ∃ l' : Ledger, l' = (if r.settings.traceSpans then l.record r.span else l) ∧
      l' = ⟨if r.settings.traceSpans then newest l.limit (l.spans ++ [r.span]) else l.spans,
        l.limit, l.counters, l.series, l.collector⟩ := by
    refine ⟨_, rfl, ?_⟩
    split <;> rfl
  obtain ⟨l', hl', heq⟩ := traced
  have hcounts : l'.CountsDispatches := by
    rw [heq]
    exact ⟨hl.series, hl.admits⟩
  unfold enter
  simp only [← hl']
  cases hkey : r.counter? with
  | none =>
      refine ⟨l.series, hl.series, ?_⟩
      simp [heq, counted, hkey]
  | some key =>
      cases hm : r.settings.recordMetrics with
      | false =>
          refine ⟨l.series, hl.series, ?_⟩
          simp [heq]
      | true =>
          have named : (⟨key.name, key.attributes.names⟩ : Series) = dispatchSeries := by
            obtain ⟨outcome, -, rfl⟩ := Option.map_eq_some_iff.mp hkey
            rfl
          obtain ⟨series, hseries, hinc⟩ := increment_dispatch hcounts named
          refine ⟨series, hseries, ?_⟩
          simp only [if_true, hinc, counted, hkey]
          simp [heq, total]

end Ledger

/-! ## Replaying a run -/

/-- What changes the ledger of a run. -/
inductive LedgerEvent where
  | dispatched (r : DispatchRecord)
  | limited (limit : Nat)

namespace LedgerEvent

def record? : LedgerEvent → Option DispatchRecord
  | .dispatched r => some r
  | .limited _ => none

def limit? : LedgerEvent → Option Nat
  | .dispatched _ => none
  | .limited limit => some limit

end LedgerEvent

namespace Ledger

/-- The ledger after an event. -/
def after (l : Ledger) : LedgerEvent → Ledger
  | .dispatched r => (l.enter r).1
  | .limited limit => l.withLimit limit

/-- The ledger after all events, the first ones first. -/
def replay (c : Collector) (events : List LedgerEvent) : Ledger :=
  events.foldl after (.empty c)

theorem replay_snoc (c : Collector) (events : List LedgerEvent) (e : LedgerEvent) :
    replay c (events ++ [e]) = (replay c events).after e := by
  simp [replay, List.foldl_append]

/-- The dispatches among the events. -/
def recordsOf (events : List LedgerEvent) : List DispatchRecord :=
  events.filterMap (·.record?)

theorem recordsOf_limited (events : List LedgerEvent) (limit : Nat) :
    recordsOf (events ++ [.limited limit]) = recordsOf events := by
  simp [recordsOf, LedgerEvent.record?]

theorem recordsOf_dispatched (events : List LedgerEvent) (r : DispatchRecord) :
    recordsOf (events ++ [.dispatched r]) = recordsOf events ++ [r] := by
  simp [recordsOf, LedgerEvent.record?]

theorem newest_of_length_le {limit : Nat} {spans : List Span} (h : spans.length ≤ limit) :
    newest limit spans = spans := by
  rw [newest, Nat.sub_eq_zero_of_le h, List.drop_zero]

/-- A total after a number of dispatches under its key; there is none before
the first. -/
def totalOf (n : Nat) : Option Double :=
  if n = 0 then none else some (.tally n)

theorem getD_totalOf (n : Nat) : (totalOf n).getD .zero = .tally n := by
  unfold totalOf
  split
  · rename_i h
    rw [h]
    rfl
  · rfl

section Replay

variable {c : Collector} (admits : c.AdmitsDispatches) (events : List LedgerEvent)
include admits

theorem countsDispatches_replay : (replay c events).CountsDispatches := by
  induction events using List.reverseRecOn with
  | nil => exact countsDispatches_empty admits
  | append_singleton events e ih =>
      rw [replay_snoc]
      cases e with
      | limited limit => exact ⟨ih.series, ih.admits⟩
      | dispatched r =>
          obtain ⟨series, hseries, hr⟩ := enter_eq ih r
          simp only [after, hr]
          exact ⟨hseries, ih.admits⟩

section Snoc

variable (r : DispatchRecord)

theorem limit_replay_dispatched :
    (replay c (events ++ [.dispatched r])).limit = (replay c events).limit := by
  obtain ⟨series, -, hr⟩ := enter_eq (countsDispatches_replay admits events) r
  simp only [replay_snoc, after, hr]

theorem spans_replay_dispatched (traced : r.settings.traceSpans = true) :
    (replay c (events ++ [.dispatched r])).spans =
      newest (replay c events).limit ((replay c events).spans ++ [r.span]) := by
  obtain ⟨series, -, hr⟩ := enter_eq (countsDispatches_replay admits events) r
  simp only [replay_snoc, after, hr, traced, if_true]

theorem counters_replay_dispatched (metered : r.settings.recordMetrics = true) :
    (replay c (events ++ [.dispatched r])).counters = (replay c events).counted r := by
  obtain ⟨series, -, hr⟩ := enter_eq (countsDispatches_replay admits events) r
  simp only [replay_snoc, after, hr, metered, if_true]

end Snoc

/-- The limit is the latest that was set. -/
theorem limit_replay :
    (replay c events).limit ∈ defaultLimit :: events.filterMap (·.limit?) := by
  induction events using List.reverseRecOn with
  | nil => exact List.mem_cons_self
  | append_singleton events e ih =>
      rw [List.filterMap_append]
      cases e with
      | limited limit => simp [replay_snoc, after, withLimit, LedgerEvent.limit?]
      | dispatched r =>
          rw [limit_replay_dispatched admits]
          simpa [LedgerEvent.limit?] using ih

/-- The spans of the ledger are those of the dispatches, but for the oldest
ones that may have gone. -/
theorem spans_replay
    (traced : ∀ r ∈ recordsOf events, r.settings.traceSpans = true) :
    (replay c events).spans <:+ (recordsOf events).map DispatchRecord.span := by
  induction events using List.reverseRecOn with
  | nil => exact List.nil_suffix
  | append_singleton events e ih =>
      cases e with
      | limited limit =>
          rw [recordsOf_limited] at traced ⊢
          rw [replay_snoc]
          exact (List.drop_suffix _ _).trans (ih traced)
      | dispatched r =>
          rw [recordsOf_dispatched] at traced ⊢
          obtain ⟨older, holder⟩ := ih fun r hr => traced r (List.mem_append_left _ hr)
          rw [spans_replay_dispatched admits events r (traced r List.mem_concat_self),
            List.map_append]
          refine (List.drop_suffix _ _).trans ⟨older, ?_⟩
          rw [← List.append_assoc, holder]
          rfl

/-- As long as no limit is passed, no span goes. -/
theorem spans_replay_eq
    (traced : ∀ r ∈ recordsOf events, r.settings.traceSpans = true)
    (room : ∀ n ∈ defaultLimit :: events.filterMap (·.limit?),
      (recordsOf events).length ≤ n) :
    (replay c events).spans = (recordsOf events).map DispatchRecord.span := by
  induction events using List.reverseRecOn with
  | nil => rfl
  | append_singleton events e ih =>
      have earlier : ∀ n ∈ defaultLimit :: events.filterMap (·.limit?),
          (recordsOf (events ++ [e])).length ≤ n := by
        intro n hn
        refine room n ?_
        rw [List.filterMap_append, ← List.cons_append]
        exact List.mem_append_left _ hn
      cases e with
      | limited limit =>
          rw [recordsOf_limited] at traced room earlier ⊢
          have fits := room limit (by simp [LedgerEvent.limit?])
          rw [replay_snoc, after, withLimit, ih traced earlier]
          refine newest_of_length_le ?_
          rwa [List.length_map]
      | dispatched r =>
          have fits := earlier _ (limit_replay admits events)
          rw [recordsOf_dispatched] at traced earlier fits ⊢
          have before := ih (fun r hr => traced r (List.mem_append_left _ hr)) fun n hn =>
            Nat.le_trans (by simp) (earlier n hn)
          rw [spans_replay_dispatched admits events r (traced r List.mem_concat_self), before,
            List.map_append]
          refine newest_of_length_le ?_
          simpa using fits

/-- Each total is the number of dispatches under its key. -/
theorem counters_replay
    (metered : ∀ r ∈ recordsOf events, r.settings.recordMetrics = true) (key : CounterKey) :
    (replay c events).counters.get? key =
      totalOf ((recordsOf events).countP (·.counter? = some key)) := by
  induction events using List.reverseRecOn with
  | nil => rfl
  | append_singleton events e ih =>
      cases e with
      | limited limit =>
          rw [recordsOf_limited] at metered ⊢
          rw [replay_snoc]
          exact ih metered
      | dispatched r =>
          rw [recordsOf_dispatched] at metered ⊢
          have before := ih fun r hr => metered r (List.mem_append_left _ hr)
          rw [counters_replay_dispatched admits events r (metered r List.mem_concat_self),
            List.countP_append, List.countP_singleton]
          cases hkey : r.counter? with
          | none => simpa [counted, hkey] using before
          | some key' =>
              simp only [counted, hkey, OrderedMap.get?_insert]
              by_cases same : key' = key
              · subst same
                have total : (replay c events).total key' = .tally
                    ((recordsOf events).countP (·.counter? = some key')) := by
                  rw [Ledger.total, before, getD_totalOf]
                simp [total, totalOf, Double.tally]
              · simpa [same] using before

end Replay

end Ledger

/-! ## Quiet runs -/

section Quiet

variable {s s' : State}

/-- The ledger of a state is the replay of its dispatches. -/
def State.Replayed (s : State) : Prop :=
  ∃ events, s.ledger = .replay s.ledger.collector events ∧
    Ledger.recordsOf events = s.dispatches

theorem State.Replayed.countsDispatches (hs : s.Replayed)
    (admits : s.ledger.collector.AdmitsDispatches) : s.ledger.CountsDispatches := by
  obtain ⟨events, hledger, -⟩ := hs
  rw [hledger]
  exact Ledger.countsDispatches_replay admits events

/-- A quiet step is the end of a dispatch, a new limit, or none of the ledger's
business. -/
theorem Scope.Step.replayed (hstep : (Scope.whole .quiet).Step s s') (hs : s.Replayed) :
    s'.Replayed := by
  have same := hstep.collector
  obtain ⟨events, hledger, hrecords⟩ := hs
  rw [State.Replayed, same]
  cases hstep with
  | @settle r genuine =>
      refine ⟨events ++ [.dispatched r], ?_, ?_⟩
      · rw [Ledger.replay_snoc, ← hledger]
        rfl
      · rw [Ledger.recordsOf_dispatched, hrecords]
        rfl
  | @limit n limit checked =>
      refine ⟨events ++ [.limited limit], ?_, ?_⟩
      · rw [Ledger.replay_snoc, ← hledger]
        rfl
      · rw [Ledger.recordsOf_limited, hrecords]
  | span allowed | increment allowed | reset allowed => cases allowed
  | heap | bind | sight | log | takeRows | share | operators | number =>
      exact ⟨events, hledger, hrecords⟩

theorem ReachableWithin.replayed (hs : ReachableWithin .quiet s) : s.Replayed :=
  invariant (P := State.Replayed) ⟨[], rfl, rfl⟩ (fun _ _ hstep h => hstep.replayed h) hs

theorem Scope.Step.genuine {S : Scope} (hstep : S.Step s s')
    (hs : ∀ r ∈ s.dispatches, r.Genuine) : ∀ r ∈ s'.dispatches, r.Genuine := by
  cases hstep with
  | settle genuine =>
      intro r hr
      rcases List.mem_append.mp hr with hr | hr
      · exact hs r hr
      · exact List.mem_singleton.mp hr ▸ genuine
  | heap | bind | sight | log | takeRows | span | increment | reset | limit | share | operators
  | number => exact hs

theorem ReachableWithin.genuine {V : Vocabulary} (hs : ReachableWithin V s) :
    ∀ r ∈ s.dispatches, r.Genuine :=
  invariant (P := fun s => ∀ r ∈ s.dispatches, r.Genuine)
    (fun _ hr => absurd hr List.not_mem_nil) (fun _ _ hstep h => hstep.genuine h) hs

/-- Dispatches are only ever added to the history. -/
theorem Scope.Steps.dispatches {S : Scope} (hsteps : S.Steps s s') :
    ∃ inner, s'.dispatches = s.dispatches ++ inner := by
  refine hsteps.keeps (P := fun t => ∃ inner, t.dispatches = s.dispatches ++ inner) ?_
    ⟨[], (List.append_nil _).symm⟩
  rintro t t' hstep ⟨inner, ht⟩
  cases hstep with
  | @settle r _ => exact ⟨inner ++ [r], by simp [State.settle, ht]⟩
  | heap | bind | sight | log | takeRows | span | increment | reset | limit | share | operators
  | number => exact ⟨inner, ht⟩

end Quiet

/-! ## One dispatch -/

/-- What the caller gets to see of an ending.  One that returned is not counted
as an error. -/
def DispatchEnding.Shown (ending : DispatchEnding) :
    EStateM.Result Interruption State Value → Prop
  | .ok _ _ => ∃ outcome, ending = .returned outcome ∧ outcome ≠ .error
  | .error (.raised fault) _ => ending = .raised fault
  | .error (.aborted _) _ => ending = .aborted
  | .error .exhausted _ => False

/-- Between the two states a dispatch was entered: one span at the end, and one
more under the counter of its outcome, if it has any. -/
structure State.Entered (t s' : State) (r : DispatchRecord) : Prop where
  dispatches : s'.dispatches = t.dispatches ++ [r]
  spans : s'.ledger.spans = Ledger.newest t.ledger.limit (t.ledger.spans ++ [r.span])
  totals : ∀ key, s'.ledger.total key =
    if r.counter? = some key then (t.ledger.total key).add .one else t.ledger.total key

theorem State.entered_close {t : State} {r : DispatchRecord} (ht : t.ledger.CountsDispatches)
    (traced : r.settings.traceSpans = true) (metered : r.settings.recordMetrics = true) :
    t.Entered (t.close r) r ∧ (t.ledger.enter r).2 = none := by
  obtain ⟨series, -, hr⟩ := Ledger.enter_eq ht r
  simp only [traced, metered, if_true] at hr
  refine ⟨⟨rfl, ?_, fun key => ?_⟩, by rw [hr]⟩
  · simp [close, hr]
  · simp only [close, hr, Ledger.total, Ledger.counted]
    cases r.counter? with
    | none => simp
    | some key' =>
        simp only [OrderedMap.get?_insert, Option.some.injEq]
        split
        · rename_i same
          rw [same]
          rfl
        · rfl

namespace Action

section Work

variable {s : State} {engine : Engine} {settings : Settings}
  {call : Function → Arguments → Action Value} {a : Application}

/-- The state in which the work of a dispatch has ended. -/
def workEnd (call : Function → Arguments → Action Value) (settings : Settings)
    (a : Application) (s : State) : State :=
  finalState (perform call settings a (a.decide s.heap) s)

/-- The work of a dispatch adds the dispatches that it makes, and no more. -/
theorem replayed_workEnd (hcall : (Scope.whole .quiet).Serves engine call)
    (hs : (Scope.whole .quiet).Confines s)
    (he : (Scope.whole .quiet).KnowsEngine s.heap engine)
    (hsent : (Scope.whole .quiet).Knows s.heap settings.sentinel)
    (ha : (Scope.whole .quiet).KnowsApplication s.heap a) (replayed : s.Replayed) :
    (workEnd call settings a s).Replayed ∧
      (workEnd call settings a s).ledger.collector = s.ledger.collector ∧
      ∃ inner, (workEnd call settings a s).dispatches = s.dispatches ++ inner := by
  have hd := hs.heap.knows_decide ha
  unfold workEnd
  cases hdec : a.decide s.heap with
  | fallBack fallback typeName =>
      have unchanged : ∀ t : State,
          t = { s with journal := s.journal ++ [.fallback a.operator.literal typeName fallback] } →
          t.Replayed ∧ t.ledger.collector = s.ledger.collector ∧
            ∃ inner, t.dispatches = s.dispatches ++ inner := by
        rintro t rfl
        exact ⟨replayed, rfl, [], (List.append_nil _).symm⟩
      rcases perform_fallBack call a fallback typeName hsent with
        ⟨v, -, hp⟩ | ⟨fault, hp⟩
      · rw [hp]
        exact unchanged _ rfl
      · rw [hp]
        exact unchanged _ rfl
  | answer | fail | invoke =>
      rw [hdec] at hd
      have run : Runs (Scope.whole .quiet).Step s (perform call settings a _) _ :=
        runs_perform hcall hs he hd (by simp)
      have steps := run.steps
      refine ⟨Scope.Steps.keeps (fun _ _ hstep h => ?_) steps replayed,
        Scope.Steps.collector steps, Scope.Steps.dispatches steps⟩
      exact hstep.replayed h

/-- A dispatch that ends is entered once, when its work has ended. -/
theorem entered_of_apply (counts : (workEnd call settings a s).ledger.CountsDispatches)
    (traced : settings.traceSpans = true) (metered : settings.recordMetrics = true)
    {result : EStateM.Result Interruption State Value}
    (hresult : apply call settings a s = result)
    (ended : ∀ t, result ≠ .error .exhausted t) :
    ∃ r, r.application = a ∧ r.ending.Shown result ∧
      (workEnd call settings a s).Entered (finalState result) r := by
  rw [apply_eq] at hresult
  unfold workEnd at counts ⊢
  have led : ∀ v outcome t, perform call settings a (a.decide s.heap) s = .ok (v, outcome) t →
      (a.decide s.heap).outcome? = some outcome := fun _ _ _ h => perform_outcome h
  generalize perform call settings a (a.decide s.heap) s = work at hresult counts led
  have entered := fun ending : DispatchEnding =>
    State.entered_close (r := ⟨settings, a, a.decide s.heap, ending⟩) counts traced metered
  cases work with
  | ok x t =>
      obtain ⟨hentered, haccepted⟩ := entered (.returned x.2)
      obtain rfl := (concluded_of_accepted haccepted).symm.trans hresult
      refine ⟨_, rfl, ⟨x.2, rfl, fun wrong => ?_⟩, hentered⟩
      have counted := led x.1 x.2 t rfl
      rw [wrong] at counted
      exact Application.regular_decide s.heap a counted
  | error e t =>
      cases e with
      | exhausted => exact absurd hresult.symm (ended t)
      | raised fault =>
          obtain ⟨hentered, haccepted⟩ := entered (.raised (settings.told fault))
          obtain rfl := (concluded_of_accepted haccepted).symm.trans hresult
          exact ⟨⟨settings, a, a.decide s.heap, .raised (settings.told fault)⟩, rfl, rfl, hentered⟩
      | aborted text =>
          obtain ⟨hentered, haccepted⟩ := entered .aborted
          obtain rfl := (concluded_of_accepted haccepted).symm.trans hresult
          exact ⟨⟨settings, a, a.decide s.heap, .aborted⟩, rfl, rfl, hentered⟩

end Work

end Action

/-! ## The account -/

/-- What the ledger says about the dispatches of a run so far. -/
structure State.Accounted (s : State) : Prop where
  /-- The ledger has been made by the dispatches, in the order in which they
  were over, and by changes of the limit. -/
  replayed : ∃ events, s.ledger = .replay s.ledger.collector events ∧
    Ledger.recordsOf events = s.dispatches ∧
    ((∀ n ∈ Ledger.defaultLimit :: events.filterMap (·.limit?), s.dispatches.length ≤ n) →
      s.ledger.spans = s.dispatches.map DispatchRecord.span)
  /-- There is no span but those of the dispatches, each once and in order. -/
  spans : s.ledger.spans <:+ s.dispatches.map DispatchRecord.span
  /-- There is no total but the numbers of dispatches. -/
  totals : ∀ key, s.ledger.counters.get? key =
    Ledger.totalOf (s.dispatches.countP (·.counter? = some key))
  exact : ∀ key, s.dispatches.countP (·.counter? = some key) ≤ 2 ^ 53 →
    (s.ledger.total key).toRat? =
      some ((s.dispatches.countP (·.counter? = some key) : Nat) : Rat)
  /-- Those counted as errors are those that failed, and so are their spans. -/
  errors : ∀ r ∈ s.dispatches, r.ending.outcome? = some .error ↔ r.span.failed = true

/-- What a request does to the ledger. -/
structure State.AccountsFor (s : State) (call : Function → Arguments → Action Value)
    (settings : Settings) (request : Request) : Prop where
  refused : ∀ fault, request.application s.operators = .error fault →
    Action.serve call settings request s = .error (.raised fault) s ∧
      ∃ arity cause, fault = .unknownOperator request.literal arity cause
  /-- The dispatches that the handler makes are entered first. -/
  accepted : ∀ a, request.application s.operators = .ok a →
    a.operator.literal = request.literal ∧
      ∀ result, Action.serve call settings request s = result →
        (∀ t, result ≠ .error .exhausted t) →
        ∃ r inner, r.application = a ∧ r.ending.Shown result ∧
          (Action.workEnd call settings a s).dispatches = s.dispatches ++ inner ∧
          (Action.workEnd call settings a s).Entered (Action.finalState result) r

theorem State.Replayed.accounted {s : State} (hs : s.Replayed)
    (admits : s.ledger.collector.AdmitsDispatches)
    (genuine : ∀ r ∈ s.dispatches, r.Genuine)
    (observed : ∀ r ∈ s.dispatches,
      r.settings.traceSpans = true ∧ r.settings.recordMetrics = true) : s.Accounted := by
  obtain ⟨events, hledger, hrecords⟩ := hs
  have traced : ∀ r ∈ Ledger.recordsOf events, r.settings.traceSpans = true :=
    fun r hr => (observed r (hrecords ▸ hr)).1
  have metered : ∀ r ∈ Ledger.recordsOf events, r.settings.recordMetrics = true :=
    fun r hr => (observed r (hrecords ▸ hr)).2
  have totals : ∀ key, s.ledger.counters.get? key =
      Ledger.totalOf (s.dispatches.countP (·.counter? = some key)) := by
    intro key
    rw [hledger, Ledger.counters_replay admits events metered, hrecords]
  refine ⟨⟨events, hledger, hrecords, fun room => ?_⟩, ?_, totals, fun key hle => ?_, ?_⟩
  · rw [hledger, Ledger.spans_replay_eq admits events traced (by rwa [hrecords]), hrecords]
  · rw [hledger, ← hrecords]
    exact Ledger.spans_replay admits events traced
  · rw [Ledger.total, totals, Ledger.getD_totalOf]
    exact Double.toRat?_tally hle
  · exact fun r hr => (genuine r hr).outcome?_eq_error

/-- Over a quiet run with spans and metrics on, beside a collector that admits
dispatches, the ledger accounts for every dispatch exactly once, at its end, and
for nothing else. -/
theorem dispatch_accounting {s : State} (hs : ReachableWithin .quiet s)
    (admits : s.ledger.collector.AdmitsDispatches)
    (observed : ∀ r ∈ s.dispatches,
      r.settings.traceSpans = true ∧ r.settings.recordMetrics = true) :
    s.Accounted ∧ ∀ (engine : Engine) (depth : Nat) (settings : Settings) (request : Request),
      (Scope.whole .quiet).KnowsEngine s.heap engine →
      (Scope.whole .quiet).Knows s.heap settings.sentinel →
      settings.traceSpans = true → settings.recordMetrics = true →
      request.Known (Scope.whole .quiet) s.heap →
      s.AccountsFor (Action.callAt engine depth) settings request := by
  refine ⟨hs.replayed.accounted admits hs.genuine observed, ?_⟩
  intro engine depth settings request he hsent traced metered hknown
  refine ⟨fun fault hf => ⟨Action.serve_refused hf, Request.unknownOperator_of_refused hf⟩, ?_⟩
  intro a ha
  refine ⟨Request.literal_of_accepted ha, fun result hresult ended => ?_⟩
  have served := Action.serves_callAt (S := Scope.whole .quiet) (fun _ h => h) engine depth
  obtain ⟨replayed, same, inner, hinner⟩ := Action.replayed_workEnd served hs.confines he hsent
    (Request.knowsApplication hknown ha) hs.replayed
  rw [Action.serve_accepted ha] at hresult
  obtain ⟨r, happ, hshown, hentered⟩ :=
    Action.entered_of_apply (replayed.countsDispatches (same ▸ admits)) traced metered hresult
      ended
  exact ⟨r, inner, happ, hshown, hinner, hentered⟩

/-- A sum whose handler compares its operands. -/
def comparing : Expr :=
  .sequence [
    .assign "Box" (.call (.definition (.define "Box" ["add"]))
      [.handler "join" (.call (.dispatch (.binary "==="))
        [.variable "this", .variable "other"]), .literal .null]),
    .assign "box" (.call (.definition (.instantiate [])) [.variable "Box"]),
    .call (.dispatch (.binary "+")) [.variable "box", .variable "box"]]

/-- The inner dispatch comes first, and both are accounted for. -/
theorem dispatch_accounting_comparing :
    (State.after 1 comparing).dispatches.map (·.literal) = ["===", "+"] ∧
      (State.after 1 comparing).Accounted ∧
      (State.after 1 comparing).AccountsFor (Action.callAt (.own .standard) 1) .standard
        (.binary "+" (.object ⟨2⟩) (.object ⟨2⟩)) := by
  have known : (Scope.whole .quiet).Knows (State.after 1 comparing).heap (.object ⟨2⟩) :=
    ⟨trivial, by decide +kernel⟩
  have admits : (State.after 1 comparing).ledger.collector.AdmitsDispatches := by
    rw [State.collector_after (V := .quiet) 1 rfl]
    exact Collector.admitsDispatches_standard
  obtain ⟨accounted, accounts⟩ := dispatch_accounting (s := .after 1 comparing)
    (reachable_after 1 rfl) admits (by decide +kernel)
  exact ⟨by decide +kernel, accounted,
    accounts (.own .standard) 1 .standard _ trivial trivial rfl rfl ⟨known, known⟩⟩

end OperatorDispatch
