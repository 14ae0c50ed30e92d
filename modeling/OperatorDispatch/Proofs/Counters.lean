import OperatorDispatch.Proofs.Bookkeeping
import OperatorDispatch.Proofs.Increments
import OperatorDispatch.Proofs.Labels

/-!
# Counters and their labels

A counter is known by its name and its labels and by nothing else.  What a query answers
is the sum of the amounts that went to this name and these labels since the last reset,
added from zero on in the order in which they came.

The history of a state is `State.Tallied`: the increments since the last reset, with
anything in between that leaves the totals alone.  The invariant (`State.Tallied.totals`)
speaks of the keys that the ledger uses; that a key stands for one name and one map of
labels is `Increment.key_eq_iff`, and only with the two together does the order in which
attributes are listed drop out.

Attributes with a value that has no text, an instance inside itself for one, stand for no
labels.  They raise the fault of writing the text, and nothing is counted or answered.
-/

namespace OperatorDispatch

/-! ## Increments as they are asked for -/

/-- A name, the labels in the order in which they were listed, and the amount. -/
structure Increment where
  name : String
  labels : OrderedMap String String
  amount : Double

namespace Increment

variable {i j : Increment}

/-- What the ledger knows the counter by. -/
def key (i : Increment) : CounterKey :=
  ⟨i.name, .ofMap i.labels⟩

/-- An increment goes to a counter: the names are the same, and so are the labels. -/
def GoesTo (i : Increment) (name : String) (labels : OrderedMap String String) : Prop :=
  i.name = name ∧ i.labels.Same labels

instance (i : Increment) (name : String) (labels : OrderedMap String String) :
    Decidable (i.GoesTo name labels) :=
  inferInstanceAs (Decidable (_ ∧ _))

theorem key_eq_mk_iff {name : String} {labels : OrderedMap String String} :
    i.key = ⟨name, .ofMap labels⟩ ↔ i.GoesTo name labels := by
  rw [key, CounterKey.mk.injEq, Attributes.ofMap_eq_iff, GoesTo]

/-- Two increments share an entry exactly if they have the same name and, under each label
name, the same label. -/
theorem key_eq_iff :
    i.key = j.key ↔ i.name = j.name ∧ ∀ k, i.labels.get? k = j.labels.get? k := by
  have known : j.key = ⟨j.name, .ofMap j.labels⟩ := rfl
  rw [known, key_eq_mk_iff, GoesTo, OrderedMap.same_iff_get?]

/-- The sum of what went to a counter, from zero on. -/
def total (past : List Increment) (name : String) (labels : OrderedMap String String) : Double :=
  ((past.filter fun i => i.GoesTo name labels).map amount).foldl Double.add .zero

end Increment

/-! ## The count of dispatches -/

namespace Action

/-- The attributes that a dispatch is counted with. -/
def outcomeAttributes (literal outcome : String) : OrderedMap String Value :=
  .ofList [("operator", .primitive (.text literal)), ("outcome", .primitive (.text outcome))]

/-- The labels that a dispatch is counted with. -/
def outcomeLabels (literal outcome : String) : OrderedMap String String :=
  .ofList [("operator", literal), ("outcome", outcome)]

theorem entries_outcomeAttributes (literal outcome : String) :
    (outcomeAttributes literal outcome).entries =
      [("operator", .primitive (.text literal)), ("outcome", .primitive (.text outcome))] :=
  OrderedMap.entries_ofList (by simp)

theorem entries_outcomeLabels (literal outcome : String) :
    (outcomeLabels literal outcome).entries = [("operator", literal), ("outcome", outcome)] :=
  OrderedMap.entries_ofList (by simp)

theorem labels_outcomeAttributes (h : Heap) (literal outcome : String) :
    h.labels (outcomeAttributes literal outcome) = outcomeLabels literal outcome := by
  have read := congrArg (List.filterMap h.labelled?) (entries_outcomeAttributes literal outcome)
  exact OrderedMap.ext (read.trans (entries_outcomeLabels literal outcome).symm)

theorem attributesFrom_outcomeAttributes (h : Heap) (literal outcome : String) :
    attributesFrom h (outcomeAttributes literal outcome) =
      .ok [("operator", literal), ("outcome", outcome)] := by
  have ascending : "operator" < "outcome" := by decide
  refine attributesFrom_ok_iff.mpr ⟨?_, ?_⟩
  · rw [Heap.Readable, entries_outcomeAttributes]
    simp [Heap.textless?, Heap.plainText, Primitive.plainText?, withinLimit]
  · rw [labels_outcomeAttributes, Attributes.ofMap, entries_outcomeLabels]
    simp [Attributes.insertSorted, ascending]

end Action

/-- The increment that a dispatch makes when it is closed, if any. -/
def DispatchRecord.increments (r : DispatchRecord) : List Increment :=
  match r.ending.outcome? with
  | some outcome =>
    if r.settings.recordMetrics then
      [⟨Action.dispatchCounter, Action.outcomeLabels r.literal outcome.name, .one⟩]
    else []
  | none => []

/-! ## Histories -/

/-- The increments that a state has seen since the last reset, those that the collector
refused included. -/
inductive State.Tallied : State → List Increment → Prop
  | initial (collector : Collector) : Tallied (.initial collector) []
  | increment {s : State} {past : List Increment} (before : Tallied s past) (name : String)
      {m : OrderedMap String Value} {attributes : Attributes}
      (read : Action.attributesFrom s.heap m = .ok attributes) (amount : Double) :
      Tallied { s with ledger := (s.ledger.increment ⟨name, attributes⟩ amount).1 }
        (past ++ [⟨name, s.heap.labels m, amount⟩])
  | reset {s : State} {past : List Increment} (before : Tallied s past) :
      Tallied { s with ledger := s.ledger.reset } []
  /-- Anything that leaves the totals alone. -/
  | meanwhile {s s' : State} {past : List Increment} (before : Tallied s past)
      (same : s'.ledger.counters = s.ledger.counters) : Tallied s' past

theorem Double.getD_sum? (xs : List Double) :
    (sum? xs).getD .zero = xs.foldl add .zero := by
  cases xs <;> rfl

namespace State.Tallied

variable {s s' : State} {past : List Increment} {V : Vocabulary}

/-- Each total is the sum of the increments with its key. -/
theorem totals (h : s.Tallied past) (key : CounterKey) :
    s.ledger.counters.get? key =
      Double.sum? ((past.filter fun i => i.key = key).map Increment.amount) := by
  induction h with
  | initial => rfl
  | reset before ih => rfl
  | meanwhile before same ih => rw [same, ih]
  | @increment s past before name m attributes read amount ih =>
      obtain ⟨-, rfl⟩ := Action.attributesFrom_ok_iff.mp read
      let i : Increment := ⟨name, s.heap.labels m, amount⟩
      have entered : (s.ledger.increment i.key amount).1.counters.get? key =
          if i.key = key then some ((s.ledger.total i.key).add amount)
          else s.ledger.counters.get? key := by
        rw [Ledger.increment_eq, OrderedMap.get?_insert]
      refine entered.trans ?_
      rw [List.filter_append, List.map_append]
      by_cases here : i.key = key
      · rw [if_pos here, List.filter_singleton, decide_eq_true here, Ledger.total, here, ih]
        exact (Double.sum?_snoc _ _).symm
      · rw [if_neg here, List.filter_singleton, decide_eq_false here, ih]
        simp

/-- What a query finds under a name and labels. -/
theorem total_eq (h : s.Tallied past) (name : String) (labels : OrderedMap String String) :
    s.ledger.total ⟨name, .ofMap labels⟩ = Increment.total past name labels := by
  rw [Ledger.total, h.totals, Double.getD_sum?, Increment.total]
  simp only [Increment.key_eq_mk_iff]

/-! ## Commands -/

/-- A command to increment goes into the history, whether it succeeds or fails. -/
theorem command (h : s.Tallied past) (name : String) {keys : List String} {vs : List Value}
    {attributes : Attributes} {amount : Double}
    (read : s.heap.readIncrement keys vs = .ok (attributes, amount)) :
    (Action.finalState (Action.telemetry (.increment name keys) vs s)).Tallied
      (past ++ [⟨name, s.heap.labels (Action.entriesFrom keys vs.dropLast), amount⟩]) := by
  have counted := h.increment name (Heap.readIncrement_eq_ok_iff.mp read).1 amount
  have run := Action.increment_apply ⟨name, attributes⟩ amount s
  rw [Action.telemetry_increment_read read]
  cases answer : (s.ledger.increment ⟨name, attributes⟩ amount).2 with
  | none =>
      rw [answer] at run
      rw [Action.bind_ok run]
      exact counted
  | some refusal =>
      rw [answer] at run
      rw [Action.bind_error run]
      exact counted

/-! ## Runs -/

/-- A dispatch is counted under its operator and its outcome. -/
theorem settle (h : s.Tallied past) (r : DispatchRecord) :
    (s.settle r).Tallied (past ++ r.increments) := by
  let l := if r.settings.traceSpans then s.ledger.record r.span else s.ledger
  have traced : { s with ledger := l }.Tallied past := by
    refine h.meanwhile ?_
    dsimp only [l]
    split <;> rfl
  suffices entered : { s with ledger := (s.ledger.enter r).1 }.Tallied (past ++ r.increments) from
    entered.meanwhile rfl
  unfold Ledger.enter DispatchRecord.counter? DispatchRecord.increments
  cases r.ending.outcome? with
  | none => simpa using traced
  | some outcome =>
      dsimp only [Option.map_some]
      split
      · have counted := traced.increment Action.dispatchCounter
          (Action.attributesFrom_outcomeAttributes _ r.literal outcome.name) .one
        rwa [Action.labels_outcomeAttributes] at counted
      · simpa using traced

theorem booking (h : s.Tallied past) (step : s.Booking V s') : ∃ past', s'.Tallied past' := by
  cases step with
  | work later spared => exact ⟨past, h.meanwhile (congrArg Ledger.counters spared.ledger)⟩
  | read | span | limit | adopt => exact ⟨past, h.meanwhile rfl⟩
  | @increment name keys allowed m attributes read amount =>
      exact ⟨_, h.increment name read amount⟩
  | reset => exact ⟨[], h.reset⟩
  | settle => exact ⟨_, h.settle _⟩

end State.Tallied

/-- Every reachable state has a history. -/
theorem ReachableWithin.tallied {V : Vocabulary} {s : State} (hs : ReachableWithin V s) :
    ∃ past, s.Tallied past := by
  obtain ⟨collector, books⟩ := hs.books
  clear hs
  induction books with
  | refl => exact ⟨[], .initial collector⟩
  | tail _ last ih =>
      obtain ⟨past, h⟩ := ih
      exact h.booking last

/-! ## Queries -/

/-- What the counters of a state answer, after the increments that it has seen. -/
structure State.CountsByLabels (s : State) (past : List Increment) : Prop where
  /-- A query answers the sum of the increments with its name and its labels. -/
  answers : ∀ name keys vs, s.heap.Readable (Action.entriesFrom keys vs) →
    Action.telemetry (.counter name keys) vs s =
      .ok (.double (Increment.total past name (s.heap.labels (Action.entriesFrom keys vs)))) s
  /-- A value that has no text leaves a query without an answer and an increment without
  effect, and what is raised is why it has none. -/
  unreadable : ∀ name keys vs why, s.heap.illegible? (Action.entriesFrom keys vs) = some why →
    Action.telemetry (.counter name keys) vs s = .error (.raised (.native why)) s ∧
      ∀ amount, Action.telemetry (.increment name keys) (vs ++ [amount]) s =
        .error (.raised (.native why)) s
  increments : ∀ name keys vs attributes amount,
    s.heap.readIncrement keys vs = .ok (attributes, amount) →
      (Action.finalState (Action.telemetry (.increment name keys) vs s)).Tallied
        (past ++ [⟨name, s.heap.labels (Action.entriesFrom keys vs.dropLast), amount⟩])
  dispatches : ∀ r, (s.settle r).Tallied (past ++ r.increments)
  reset : (Action.finalState (Action.telemetry .reset [] s)).Tallied []
  /-- The order in which attributes are listed does not matter. -/
  listing : ∀ keys vs keys' vs',
    (Action.entriesFrom keys vs).Same (Action.entriesFrom keys' vs') →
      s.heap.Readable (Action.entriesFrom keys vs) → ∀ name,
      Action.telemetry (.counter name keys) vs s = Action.telemetry (.counter name keys') vs' s ∧
        ∀ amount, Action.telemetry (.increment name keys) (vs ++ [amount]) s =
          Action.telemetry (.increment name keys') (vs' ++ [amount]) s
  /-- Null values are dropped, and the others are turned into texts. -/
  labels : ∀ m k, (s.heap.labels m).get? k = (m.get? k).bind s.heap.label?
  /-- Each entry is the sum of the increments that have it. -/
  entries : ∀ key, s.ledger.counters.get? key =
    Double.sum? ((past.filter fun i => i.key = key).map Increment.amount)
  /-- Different names, or different labels under any name, have different entries. -/
  separate : ∀ i j : Increment,
    i.key = j.key ↔ i.name = j.name ∧ ∀ k, i.labels.get? k = j.labels.get? k

namespace Action

variable {s : State} {name : String} {keys keys' : List String} {vs vs' : List Value}

theorem telemetry_counter_readable (readable : s.heap.Readable (entriesFrom keys vs)) :
    telemetry (.counter name keys) vs s =
      .ok (.double (s.ledger.total ⟨name, .ofMap (s.heap.labels (entriesFrom keys vs))⟩)) s := by
  have read := attributesFrom_ok_iff.mpr ⟨readable, rfl⟩
  rw [telemetry, bind_ok (m := heap) rfl, read]
  rfl

section Unreadable

variable {why : NativeFault} (unreadable : s.heap.illegible? (entriesFrom keys vs) = some why)
include unreadable

theorem attributesFrom_unreadable :
    attributesFrom s.heap (entriesFrom keys vs) = .error (.native why) := by
  rw [attributesFrom_eq, unreadable]

theorem telemetry_counter_unreadable :
    telemetry (.counter name keys) vs s = .error (.raised (.native why)) s := by
  rw [telemetry, bind_ok (m := heap) rfl, attributesFrom_unreadable unreadable]
  rfl

theorem telemetry_increment_unreadable (amount : Value) :
    telemetry (.increment name keys) (vs ++ [amount]) s = .error (.raised (.native why)) s := by
  refine telemetry_increment_unread ?_
  rw [Heap.readIncrement, List.dropLast_concat, attributesFrom_unreadable unreadable]
  rfl

end Unreadable

section Listings

variable (same : (entriesFrom keys vs).Same (entriesFrom keys' vs'))
  (readable : s.heap.Readable (entriesFrom keys vs))
include same readable

theorem telemetry_counter_congr :
    telemetry (.counter name keys) vs s = telemetry (.counter name keys') vs' s := by
  rw [telemetry, telemetry, bind_ok (m := heap) rfl, bind_ok (m := heap) rfl,
    attributesFrom_congr same readable]

theorem telemetry_increment_congr (amount : Value) :
    telemetry (.increment name keys) (vs ++ [amount]) s =
      telemetry (.increment name keys') (vs' ++ [amount]) s := by
  rw [telemetry, telemetry, bind_ok (m := heap) rfl, bind_ok (m := heap) rfl]
  simp only [List.dropLast_concat, List.getLast?_concat, attributesFrom_congr same readable]

end Listings

end Action

/-- Counters are known by their names and their labels and by nothing else. -/
theorem counters_by_labels :
    (∀ (s : State) past, s.Tallied past → s.CountsByLabels past) ∧
      ∀ s, Reachable s → ∃ past, s.Tallied past := by
  refine ⟨fun s past h => ?_, fun s hs => hs.tallied⟩
  exact
    { answers := fun name keys vs readable => by
        rw [Action.telemetry_counter_readable readable, h.total_eq]
      unreadable := fun name keys vs why unreadable =>
        ⟨Action.telemetry_counter_unreadable unreadable,
          Action.telemetry_increment_unreadable unreadable⟩
      increments := fun name keys vs attributes amount read => h.command name read
      dispatches := h.settle
      reset := h.reset
      listing := fun keys vs keys' vs' same readable name =>
        ⟨Action.telemetry_counter_congr same readable,
          Action.telemetry_increment_congr same readable⟩
      labels := s.heap.get?_labels
      entries := h.totals
      separate := fun i j => Increment.key_eq_iff }

namespace Increment

/-- A state that has seen an increment whose attributes are listed with a null value. -/
def listed : State :=
  Action.finalState
    (Action.telemetry (.increment "c" ["x", "z", "y"])
      [.integer 1, .null, .text "2", .double .one] (.initial .standard))

/-- The same labels once more, in another order. -/
def relisted : State :=
  Action.finalState
    (Action.telemetry (.increment "c" ["y", "x"]) [.integer 2, .text "1", .double .one] listed)

def listings : List Increment :=
  [⟨"c", .ofList [("x", "1"), ("y", "2")], .one⟩, ⟨"c", .ofList [("y", "2"), ("x", "1")], .one⟩]

theorem tallied_listed : listed.Tallied [⟨"c", .ofList [("x", "1"), ("y", "2")], .one⟩] := by
  have labels : (State.initial .standard).heap.labels
      (Action.entriesFrom ["x", "z", "y"] [.integer 1, .null, .text "2"]) =
        .ofList [("x", "1"), ("y", "2")] := by
    decide +kernel
  rw [← labels]
  exact (State.Tallied.initial .standard).command "c" (Heap.readIncrement_eq_ok_iff.mpr
    ⟨Action.attributesFrom_ok_iff.mpr ⟨by decide +kernel, rfl⟩, rfl⟩)

theorem tallied_relisted : relisted.Tallied listings := by
  have labels : listed.heap.labels (Action.entriesFrom ["y", "x"] [.integer 2, .text "1"]) =
      .ofList [("y", "2"), ("x", "1")] := by
    decide +kernel
  rw [listings, ← labels]
  exact tallied_listed.command "c" (Heap.readIncrement_eq_ok_iff.mpr
    ⟨Action.attributesFrom_ok_iff.mpr ⟨by decide +kernel, rfl⟩, rfl⟩)

end Increment

/-- The two have one total, and the same labels under each other's names have another. -/
theorem counters_by_labels_relisted :
    Increment.relisted.CountsByLabels Increment.listings ∧
      Increment.total Increment.listings "c" (.ofList [("y", "2"), ("x", "1")]) =
        Double.one.add .one ∧
      Increment.total Increment.listings "c" (.ofList [("y", "1"), ("x", "2")]) = .zero :=
  ⟨counters_by_labels.1 _ _ Increment.tallied_relisted, by decide +kernel, by decide +kernel⟩

end OperatorDispatch
