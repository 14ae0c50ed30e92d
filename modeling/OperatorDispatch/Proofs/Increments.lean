import Mathlib.Data.List.DropRight
import OperatorDispatch.Proofs.Reachability

/-!
# Increments of counters

An increment goes to two stores.  The ledger is written first and never objects; the
collector is asked afterwards and may refuse.  Nothing takes the first store back, so
the ledger counts refused increments as well as accepted ones.

The ledger of a run is the result of the calls that were made to it
(`ReachableWithin.ledger_ofCalls`), and in the result of any calls each total is the sum
of all amounts since the last reset (`Ledger.counters_ofCalls`): nothing in the sum asks
what the collector said.

This is so beside any collector.  One that takes no amounts below zero, and no name twice
(`Collector.Strict`), makes sure that there are increments which are refused.
-/

namespace OperatorDispatch

/-! ## Entries that stay -/

namespace Entries

variable {κ α : Type} [DecidableEq κ]

theorem put_eq_self {k : κ} {v : α} {es : List (κ × α)} (h : find? k es = some v) :
    put k v es = es := by
  induction es with
  | nil => simp [find?] at h
  | cons e es ih => grind [find?, put]

end Entries

/-- To bind a key changes nothing exactly if the key was bound to this already. -/
theorem OrderedMap.insert_eq_self_iff {κ α : Type} [DecidableEq κ] {m : OrderedMap κ α} {k : κ}
    {v : α} : m.insert k v = m ↔ m.get? k = some v := by
  constructor
  · intro same
    rw [← same, get?_insert, if_pos rfl]
  · intro found
    exact OrderedMap.ext (Entries.put_eq_self found)

/-! ## Calls to the ledger -/

/-- What is done to a ledger. -/
inductive LedgerCall where
  | record (span : Span)
  | increment (key : CounterKey) (amount : Double)
  | limit (n : Nat)
  | reset

namespace LedgerCall

def isReset : LedgerCall → Bool
  | .reset => true
  | .record _ | .increment .. | .limit _ => false

/-- The amount that goes to a counter. -/
def amount? (key : CounterKey) : LedgerCall → Option Double
  | .increment key' amount => if key' = key then some amount else none
  | .record _ | .limit _ | .reset => none

/-- The amounts that went to a counter since the last reset, the first one first. -/
def amountsOf (key : CounterKey) (calls : List LedgerCall) : List Double :=
  (calls.rtakeWhile fun c => !c.isReset).filterMap (amount? key)

variable {key : CounterKey} {calls : List LedgerCall}

theorem amountsOf_snoc_reset : amountsOf key (calls ++ [.reset]) = [] := by
  simp [amountsOf, isReset]

theorem amountsOf_snoc {c : LedgerCall} (hc : c.isReset = false) :
    amountsOf key (calls ++ [c]) = amountsOf key calls ++ (c.amount? key).toList := by
  rw [amountsOf, List.rtakeWhile_concat_pos _ _ _ (by simp [hc])]
  cases h : c.amount? key <;> simp [amountsOf, h]

end LedgerCall

/-- The sum of amounts, added one after the other; no amounts have no sum. -/
def Double.sum? : List Double → Option Double
  | [] => none
  | xs => some (xs.foldl Double.add .zero)

theorem Double.sum?_snoc (xs : List Double) (x : Double) :
    sum? (xs ++ [x]) = some (((sum? xs).getD .zero).add x) := by
  cases xs <;> simp [sum?]

namespace Ledger

variable {l : Ledger} {key : CounterKey} {amount : Double}

/-! ## One increment -/

/-- A counter that is new to the collector, which does not create it. -/
def Barred (l : Ledger) (s : Series) : Prop :=
  l.series.contains s = false ∧ l.collector.creates l.series s = false

instance (l : Ledger) (s : Series) : Decidable (l.Barred s) :=
  inferInstanceAs (Decidable (_ ∧ _))

/-- What the collector objects to: a counter that it does not create, and an amount that
it does not take. -/
def Refuses (l : Ledger) (s : Series) (amount : Double) : Prop :=
  l.Barred s ∨ l.collector.accepts amount = false

/-- The counters that the collector knows after another one has been announced. -/
def seriesWith (l : Ledger) (s : Series) : List Series :=
  if l.series.contains s || !l.collector.creates l.series s then l.series else l.series ++ [s]

theorem announce_eq (s : Series) :
    l.announce s =
      if l.Barred s then .error .duplicateSeries
      else .ok { l with series := l.seriesWith s } := by
  unfold announce seriesWith Barred
  by_cases known : l.series.contains s = true
  · simp only [known, if_true, Bool.true_eq_false, false_and, if_false, Bool.true_or]
  · have new : l.series.contains s = false := by simpa using known
    by_cases created : l.collector.creates l.series s = true
    · simp only [new, created, Bool.false_eq_true, Bool.true_eq_false, if_false, if_true, and_false,
        Bool.not_true, Bool.or_self]
    · simp only [Bool.not_eq_true] at created
      simp only [new, created, Bool.false_eq_true, if_false, if_true, and_self]

theorem seriesWith_of_barred {s : Series} (h : l.Barred s) : l.seriesWith s = l.series := by
  simp only [seriesWith, h.2, Bool.not_false, Bool.or_true, if_true]

/-- The total grows before the collector is asked. -/
theorem increment_eq :
    l.increment key amount =
      ({ l with
          counters := l.counters.insert key ((l.total key).add amount)
          series := l.seriesWith ⟨key.name, key.attributes.names⟩ },
        if l.Barred ⟨key.name, key.attributes.names⟩ then some .duplicateSeries
        else if l.collector.accepts amount then none else some .negativeAmount) := by
  have asked := (l.add key amount).announce_eq ⟨key.name, key.attributes.names⟩
  have answer : (l.add key amount).collector = l.collector := rfl
  unfold increment
  simp only [asked]
  by_cases barred : l.Barred ⟨key.name, key.attributes.names⟩
  · rw [if_pos (show (l.add key amount).Barred _ from barred), if_pos barred,
      seriesWith_of_barred barred]
    rfl
  · rw [if_neg (show ¬ (l.add key amount).Barred _ from barred), if_neg barred]
    simp only [answer]
    cases l.collector.accepts amount <;> rfl

theorem spans_increment (key : CounterKey) (amount : Double) :
    (l.increment key amount).1.spans = l.spans := by
  rw [increment_eq]

theorem limit_increment (key : CounterKey) (amount : Double) :
    (l.increment key amount).1.limit = l.limit := by
  rw [increment_eq]

theorem increment_refused_iff (l : Ledger) (key : CounterKey) (amount : Double) :
    (∃ refusal, (l.increment key amount).2 = some refusal) ↔
      l.Refuses ⟨key.name, key.attributes.names⟩ amount := by
  rw [increment_eq]
  by_cases barred : l.Barred ⟨key.name, key.attributes.names⟩
  · simp [Refuses, barred]
  · cases h : l.collector.accepts amount <;> simp [Refuses, barred, h]

end Ledger

/-- A collector that takes no amount below zero, and no name that another series has. -/
structure Collector.Strict (c : Collector) : Prop where
  amounts : ∀ amount, amount.negative = true → amount.isZero = false →
    c.accepts amount = false
  names : ∀ created s t, t ∈ created → t.name = s.name → c.creates created s = false

theorem Collector.strict_standard : standard.Strict where
  amounts := by
    intro amount below nonzero
    simp [standard, below, nonzero]
  names := by
    intro created s t known same
    have clash : s.clashes t = true := by
      simp [Series.clashes, Series.exported, same]
    simp only [standard, Bool.not_eq_false', List.any_eq_true]
    exact ⟨t, known, clash⟩

namespace Ledger

variable {l : Ledger} {key : CounterKey}

/-- An amount below zero, or a name that is another counter's. -/
def Objectionable (l : Ledger) (s : Series) (amount : Double) : Prop :=
  amount.negative = true ∧ amount.isZero = false ∨
    l.series.contains s = false ∧ ∃ t ∈ l.series, t.name = s.name

theorem Objectionable.refuses {s : Series} {amount : Double} (h : l.Objectionable s amount)
    (strict : l.collector.Strict) : l.Refuses s amount := by
  rcases h with ⟨below, nonzero⟩ | ⟨new, t, known, same⟩
  · exact .inr (strict.amounts amount below nonzero)
  · exact .inl ⟨new, strict.names l.series s t known same⟩

/-! ## Any calls -/

/-- The ledger after a call. -/
def receive (l : Ledger) : LedgerCall → Ledger
  | .record span => l.record span
  | .increment key amount => (l.increment key amount).1
  | .limit n => l.withLimit n
  | .reset => l.reset

theorem collector_receive (l : Ledger) (c : LedgerCall) :
    (l.receive c).collector = l.collector := by
  cases c with
  | increment key amount => exact collector_increment l key amount
  | record | limit | reset => rfl

/-- The ledger after calls, the first one first. -/
def ofCalls (collector : Collector) (calls : List LedgerCall) : Ledger :=
  calls.foldl receive (.empty collector)

theorem ofCalls_snoc (collector : Collector) (calls : List LedgerCall) (c : LedgerCall) :
    ofCalls collector (calls ++ [c]) = (ofCalls collector calls).receive c := by
  simp [ofCalls]

/-- Each total is the sum of all amounts since the last reset. -/
theorem counters_ofCalls (collector : Collector) (calls : List LedgerCall) (key : CounterKey) :
    (ofCalls collector calls).counters.get? key =
      Double.sum? (LedgerCall.amountsOf key calls) := by
  induction calls using List.reverseRecOn with
  | nil => rfl
  | append_singleton calls c ih =>
      rw [ofCalls_snoc]
      cases c with
      | reset => rw [LedgerCall.amountsOf_snoc_reset]; rfl
      | record span =>
          rw [LedgerCall.amountsOf_snoc rfl]
          simpa [receive, record, LedgerCall.amount?] using ih
      | limit n =>
          rw [LedgerCall.amountsOf_snoc rfl]
          simpa [receive, withLimit, LedgerCall.amount?] using ih
      | increment key' amount =>
          rw [LedgerCall.amountsOf_snoc rfl, receive, increment_eq, OrderedMap.get?_insert]
          by_cases hkey : key' = key
          · subst hkey
            simp [LedgerCall.amount?, Double.sum?_snoc, total, ih]
          · simpa [LedgerCall.amount?, hkey] using ih

/-! ## The ledger of a run -/

/-- A ledger that comes from calls. -/
def Called (l : Ledger) : Prop :=
  ∃ calls, l = ofCalls l.collector calls

theorem Called.receive (h : l.Called) (c : LedgerCall) : (l.receive c).Called := by
  obtain ⟨calls, hl⟩ := h
  refine ⟨calls ++ [c], ?_⟩
  rw [collector_receive, ofCalls_snoc, ← hl]

/-- Entering a dispatch is recording its span, if at all, and then counting it, if at
all. -/
theorem Called.enter (h : l.Called) (r : DispatchRecord) : (l.enter r).1.Called :=
  enter_induction h (fun called => called.receive (.record r.span))
    fun _ key _ called => called.receive (.increment key .one)

end Ledger

/-- The ledger of a run comes from calls. -/
theorem ReachableWithin.ledger_ofCalls {V : Vocabulary} {s : State} (hs : ReachableWithin V s) :
    ∃ calls, s.ledger = .ofCalls s.ledger.collector calls := by
  refine invariant (P := fun s => s.ledger.Called) ⟨[], rfl⟩ ?_ hs
  intro s s' step called
  cases step with
  | span allowed span => exact called.receive (.record span)
  | increment allowed attributes amount => exact called.receive (.increment ⟨_, attributes⟩ amount)
  | reset allowed => exact called.receive .reset
  | limit checked => exact called.receive (.limit _)
  | settle genuine => exact called.enter _
  | heap | bind | sight | log | takeRows | share | operators | number => exact called

/-! ## What increments do -/

/-- What the operands of an increment say: the attributes, and the amount at the end. -/
def Heap.readIncrement (h : Heap) (keys : List String) (vs : List Value) :
    Except Fault (Attributes × Double) := do
  let attributes ← Action.attributesFrom h (Action.entriesFrom keys vs.dropLast)
  let amount ← Action.amountFrom (vs.getLast?.getD .null)
  return (attributes, amount)

theorem Heap.readIncrement_eq_ok_iff {h : Heap} {keys : List String} {vs : List Value}
    {attributes : Attributes} {amount : Double} :
    h.readIncrement keys vs = .ok (attributes, amount) ↔
      Action.attributesFrom h (Action.entriesFrom keys vs.dropLast) = .ok attributes ∧
        Action.amountFrom (vs.getLast?.getD .null) = .ok amount := by
  unfold readIncrement
  cases Action.attributesFrom h (Action.entriesFrom keys vs.dropLast) with
  | error fault => exact iff_of_false nofun nofun
  | ok attributes' =>
      cases Action.amountFrom (vs.getLast?.getD .null) with
      | error fault => exact iff_of_false nofun nofun
      | ok amount' =>
          show Except.ok (attributes', amount') = .ok (attributes, amount) ↔ _
          simp only [Except.ok.injEq, Prod.mk.injEq]

namespace State

/-- The state with an increment in the ledger. -/
def counting (s : State) (key : CounterKey) (amount : Double) : State :=
  { s with
    ledger :=
      { s.ledger with
        counters := s.ledger.counters.insert key ((s.ledger.total key).add amount)
        series := s.ledger.seriesWith ⟨key.name, key.attributes.names⟩ } }

/-- How a state takes increments. -/
structure TakesIncrements (s : State) : Prop where
  /-- Operands that cannot be read change nothing. -/
  unread : ∀ name keys vs fault, s.heap.readIncrement keys vs = .error fault →
    Action.telemetry (.increment name keys) vs s = .error (.raised fault) s
  /-- All others are counted, whether the call fails or not. -/
  counted : ∀ name keys vs attributes amount,
    s.heap.readIncrement keys vs = .ok (attributes, amount) →
      Action.finalState (Action.telemetry (.increment name keys) vs s) =
        s.counting ⟨name, attributes⟩ amount
  /-- The call fails if the collector refuses. -/
  refused : ∀ name keys vs attributes amount,
    s.heap.readIncrement keys vs = .ok (attributes, amount) →
      ((∃ e s', Action.telemetry (.increment name keys) vs s = .error e s') ↔
        s.ledger.Refuses ⟨name, attributes.names⟩ amount)
  /-- A strict collector refuses what is objectionable. -/
  strict : s.ledger.collector.Strict → ∀ name keys vs attributes amount,
    s.heap.readIncrement keys vs = .ok (attributes, amount) →
      s.ledger.Objectionable ⟨name, attributes.names⟩ amount →
      ∃ e s', Action.telemetry (.increment name keys) vs s = .error e s'
  /-- The totals are as before only where adding the amount makes no difference to a
  total that there was. -/
  unchanged : ∀ key amount, (s.counting key amount).ledger.counters = s.ledger.counters ↔
    s.ledger.counters.get? key = some ((s.ledger.total key).add amount)
  /-- The ledger comes from calls, and its totals are the sums of all increments since the
  last reset, the refused ones included. -/
  totals : ∃ calls, s.ledger = .ofCalls s.ledger.collector calls ∧
    ∀ key, s.ledger.counters.get? key = Double.sum? (LedgerCall.amountsOf key calls)

end State

namespace Action

variable {s : State} {name : String} {keys : List String} {vs : List Value}
  {attributes : Attributes} {amount : Double}

theorem telemetry_increment_unread {fault : Fault}
    (h : s.heap.readIncrement keys vs = .error fault) :
    telemetry (.increment name keys) vs s = .error (.raised fault) s := by
  unfold Heap.readIncrement at h
  rw [telemetry, bind_ok (m := heap) rfl]
  cases ha : attributesFrom s.heap (entriesFrom keys vs.dropLast) with
  | error fault' =>
      rw [ha] at h
      cases h
      rfl
  | ok attributes =>
      cases hd : amountFrom (vs.getLast?.getD .null) with
      | error fault' =>
          rw [ha, hd] at h
          cases h
          rfl
      | ok amount =>
          rw [ha, hd] at h
          cases h

theorem telemetry_increment_read (h : s.heap.readIncrement keys vs = .ok (attributes, amount)) :
    telemetry (.increment name keys) vs s =
      (do increment ⟨name, attributes⟩ amount; return .null : Action Value) s := by
  obtain ⟨ha, hd⟩ := Heap.readIncrement_eq_ok_iff.mp h
  rw [telemetry, bind_ok (m := heap) rfl, ha, hd]
  rfl

theorem increment_fails_iff (h : s.heap.readIncrement keys vs = .ok (attributes, amount)) :
    (∃ e s', telemetry (.increment name keys) vs s = .error e s') ↔
      s.ledger.Refuses ⟨name, attributes.names⟩ amount := by
  have judged := s.ledger.increment_refused_iff ⟨name, attributes⟩ amount
  rw [telemetry_increment_read h, ← judged]
  have run := increment_apply ⟨name, attributes⟩ amount s
  cases answer : (s.ledger.increment ⟨name, attributes⟩ amount).2 with
  | none =>
      rw [answer] at run
      rw [bind_ok run]
      refine iff_of_false ?_ ?_
      · rintro ⟨e, s', ⟨⟩⟩
      · rintro ⟨refusal, ⟨⟩⟩
  | some refusal =>
      rw [answer] at run
      rw [bind_error run]
      exact iff_of_true ⟨_, _, rfl⟩ ⟨refusal, rfl⟩

/-- An increment fails if the collector refuses it, and is counted all the same. -/
theorem increments_counted (hs : Reachable s) : s.TakesIncrements where
  unread := fun _ _ _ _ => telemetry_increment_unread
  counted := by
    intro name keys vs attributes amount h
    rw [telemetry_increment_read h]
    have run := increment_apply ⟨name, attributes⟩ amount s
    cases answer : (s.ledger.increment ⟨name, attributes⟩ amount).2 with
    | none =>
        rw [answer, congrArg Prod.fst Ledger.increment_eq] at run
        rw [bind_ok run]
        rfl
    | some refusal =>
        rw [answer, congrArg Prod.fst Ledger.increment_eq] at run
        rw [bind_error run]
        rfl
  refused := fun _ _ _ _ _ => increment_fails_iff
  strict := fun strict _ _ _ _ _ h objectionable =>
    (increment_fails_iff h).mpr (objectionable.refuses strict)
  unchanged := fun _ _ => OrderedMap.insert_eq_self_iff
  totals := by
    obtain ⟨calls, hcalls⟩ := hs.ledger_ofCalls
    refine ⟨calls, hcalls, fun key => ?_⟩
    rw [hcalls]
    exact Ledger.counters_ofCalls _ calls key

/-- An increment that the collector refuses. -/
def decrement : Expr :=
  .call (.telemetry (.increment "c" [])) [.literal (.integer (-1))]

theorem increments_counted_decremented :
    Reachable (.after 0 decrement) ∧ (State.after 0 decrement).TakesIncrements :=
  ⟨reachable_after 0 rfl, increments_counted (reachable_after 0 rfl)⟩

/-- A refused increment leaves a total below zero where there was none. -/
theorem refused_increment_counted :
    Collector.standard.Strict ∧
      (∃ s', telemetry (.increment "c" []) [.integer (-1)] (.initial .standard) =
        .error (.raised .negativeIncrement) s') ∧
      (State.initial .standard).ledger.counters.get? ⟨"c", []⟩ = none ∧
      (finalState
        (telemetry (.increment "c" []) [.integer (-1)] (.initial .standard))).ledger.counters.get?
        ⟨"c", []⟩ = some Double.one.neg :=
  ⟨Collector.strict_standard, ⟨_, rfl⟩, rfl, by decide +kernel⟩

end Action

end OperatorDispatch
