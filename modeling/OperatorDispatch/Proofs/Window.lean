import OperatorDispatch.Proofs.Bookkeeping
import OperatorDispatch.Proofs.Increments

/-!
# The window of spans

The ledger keeps spans up to a limit, and the limit may change between any two of them.
What is kept depends on all limits that were in force since: a limit that is lowered for a
moment takes spans away, and they do not come back when it is raised.

All that a request does to the spans, unless it clears them, is one equation
(`Ledger.spans_serve`): of those that were there and the one that it brings, the newest
are kept, as many as the limit admits that is in force afterwards.  So what is kept is a
suffix of the history, and its length says which spans it consists of.
-/

namespace OperatorDispatch

/-! ## Requests -/

/-- What may be asked of the ledger. -/
inductive LedgerRequest where
  | span (x : Span)
  | increment (key : CounterKey) (amount : Double)
  | limit (n : Int)
  | reset

namespace LedgerRequest

/-- The request made. -/
def action : LedgerRequest → Action Unit
  | .span x => Action.recordSpan x
  | .increment key amount => Action.increment key amount
  | .limit n => Action.setLimit n
  | .reset => do Action.setLedger (← get).ledger.reset

/-- What is done about a request; about a limit out of range, nothing is. -/
def call? : LedgerRequest → Option LedgerCall
  | .span x => some (.record x)
  | .increment key amount => some (.increment key amount)
  | .limit n => (checkLimit n).toOption.map .limit
  | .reset => some .reset

def isReset : LedgerRequest → Bool
  | .reset => true
  | .span _ | .increment .. | .limit _ => false

def isLimit : LedgerRequest → Bool
  | .limit _ => true
  | .span _ | .increment .. | .reset => false

def span? : LedgerRequest → Option Span
  | .span x => some x
  | .increment .. | .limit _ | .reset => none

/-- The limit that a request sets, if it is accepted. -/
def limit? : LedgerRequest → Option Nat
  | .limit n => (checkLimit n).toOption
  | .span _ | .increment .. | .reset => none

/-! ## What requests say about the window -/

/-- The spans recorded, oldest first. -/
def spansIn (requests : List LedgerRequest) : List Span :=
  requests.filterMap span?

/-- The spans recorded since the last reset, oldest first. -/
def spansSince (requests : List LedgerRequest) : List Span :=
  spansIn (requests.rtakeWhile fun r => !r.isReset)

/-- The limit in force after requests: the last one accepted. -/
def limitAfter (requests : List LedgerRequest) : Nat :=
  (requests.filterMap limit?).getLast?.getD Ledger.defaultLimit

variable {r : LedgerRequest} {requests before later : List LedgerRequest} {x : Span}

theorem eq_reset_or (r : LedgerRequest) : r = .reset ∨ r.isReset = false := by
  cases r <;> simp [isReset]

theorem spansIn_snoc (requests : List LedgerRequest) (r : LedgerRequest) :
    spansIn (requests ++ [r]) = spansIn requests ++ r.span?.toList := by
  cases h : r.span? <;> simp [spansIn, h]

theorem spansSince_snoc (h : r.isReset = false) :
    spansSince (requests ++ [r]) = spansSince requests ++ r.span?.toList := by
  rw [spansSince, List.rtakeWhile_concat_pos _ _ _ (by simp [h]), spansIn_snoc]
  rfl

/-- Without a reset, spans only come after those that were there. -/
theorem spansSince_append (h : ∀ r ∈ later, r.isReset = false) :
    spansSince (before ++ later) = spansSince before ++ spansIn later := by
  induction later using List.reverseRecOn with
  | nil => simp [spansIn]
  | append_singleton later r ih =>
      obtain ⟨earlier, last⟩ := List.forall_mem_append.mp h
      rw [← List.append_assoc, spansSince_snoc (last r (List.mem_singleton_self r)), ih earlier,
        spansIn_snoc, List.append_assoc]

theorem limitAfter_snoc (requests : List LedgerRequest) (r : LedgerRequest) :
    limitAfter (requests ++ [r]) = r.limit?.getD (limitAfter requests) := by
  cases h : r.limit? <;> simp [limitAfter, h]

theorem limit?_pos {limit : Nat} (h : r.limit? = some limit) : 1 ≤ limit := by
  cases r with
  | span | increment | reset => cases h
  | limit n =>
      cases checked : checkLimit n with
      | error fault => simp [limit?, checked, Except.toOption] at h
      | ok limit' =>
          obtain ⟨positive, -, same⟩ := checkLimit_eq_ok_iff.mp checked
          simp only [limit?, checked, Except.toOption, Option.some.injEq] at h
          omega

theorem limitAfter_pos (requests : List LedgerRequest) : 1 ≤ limitAfter requests := by
  induction requests using List.reverseRecOn with
  | nil => decide
  | append_singleton requests r ih =>
      rw [limitAfter_snoc]
      cases accepted : r.limit? with
      | none => exact ih
      | some limit => exact limit?_pos accepted

end LedgerRequest

/-! ## The ledger after requests -/

namespace Ledger

open LedgerRequest

variable {l : Ledger} {collector : Collector} {r : LedgerRequest}
  {requests before later : List LedgerRequest} {x : Span}

/-- The ledger after one request. -/
def serve (l : Ledger) (r : LedgerRequest) : Ledger :=
  r.call?.elim l l.receive

/-- The ledger after requests, the first one first. -/
def served (collector : Collector) (requests : List LedgerRequest) : Ledger :=
  requests.foldl serve (.empty collector)

theorem served_snoc (requests : List LedgerRequest) (r : LedgerRequest) :
    served collector (requests ++ [r]) = (served collector requests).serve r := by
  simp [served]

theorem serve_limit_ok {n : Int} {limit : Nat} (h : checkLimit n = .ok limit) :
    l.serve (.limit n) = l.withLimit limit := by
  simp [serve, call?, h, Except.toOption, receive]

theorem serve_limit_error {n : Int} {fault : Fault} (h : checkLimit n = .error fault) :
    l.serve (.limit n) = l := by
  simp [serve, call?, h, Except.toOption]

theorem collector_serve (l : Ledger) (r : LedgerRequest) :
    (l.serve r).collector = l.collector := by
  unfold serve
  cases r.call? with
  | none => rfl
  | some c => exact collector_receive l c

theorem collector_served (requests : List LedgerRequest) :
    (served collector requests).collector = collector := by
  induction requests using List.reverseRecOn with
  | nil => rfl
  | append_singleton requests r ih => rw [served_snoc, collector_serve, ih]

theorem newest_suffix (limit : Nat) (spans : List Span) : newest limit spans <:+ spans :=
  List.drop_suffix _ _

theorem length_newest (limit : Nat) (spans : List Span) :
    (newest limit spans).length = min limit spans.length := by
  rw [newest, List.length_drop]
  omega

theorem newest_eq_self {limit : Nat} {spans : List Span} (h : spans.length ≤ limit) :
    newest limit spans = spans := by
  rw [newest, Nat.sub_eq_zero_of_le h, List.drop_zero]

theorem limit_serve (l : Ledger) (r : LedgerRequest) :
    (l.serve r).limit = r.limit?.getD l.limit := by
  cases r with
  | span | reset => rfl
  | increment key amount => exact limit_increment key amount
  | limit n =>
      cases checked : checkLimit n with
      | ok limit => simp [serve_limit_ok checked, limit?, checked, Except.toOption, withLimit]
      | error fault => simp [serve_limit_error checked, limit?, checked, Except.toOption]

theorem limit_served (requests : List LedgerRequest) :
    (served collector requests).limit = limitAfter requests := by
  induction requests using List.reverseRecOn with
  | nil => rfl
  | append_singleton requests r ih => rw [served_snoc, limit_serve, limitAfter_snoc, ih]

/-! ## The spans that are kept -/

/-- One request short of a reset: the newest of the spans that were there and the one that
it brings, as many as the limit admits that is in force afterwards. -/
theorem spans_serve (hr : r.isReset = false) (bounded : l.spans.length ≤ l.limit) :
    (l.serve r).spans = newest (l.serve r).limit (l.spans ++ r.span?.toList) := by
  cases r with
  | reset => cases hr
  | span x => rfl
  | increment key amount =>
      have same : l.serve (.increment key amount) = (l.increment key amount).1 := rfl
      have brings : (LedgerRequest.increment key amount).span?.toList = [] := rfl
      rw [same, spans_increment, limit_increment, brings, List.append_nil,
        newest_eq_self bounded]
  | limit n =>
      have brings : (LedgerRequest.limit n).span?.toList = [] := rfl
      rw [brings, List.append_nil]
      cases checked : checkLimit n with
      | ok limit => rw [serve_limit_ok checked]; rfl
      | error fault => rw [serve_limit_error checked, newest_eq_self bounded]

theorem spans_served_reset : (served collector (requests ++ [.reset])).spans = [] := by
  rw [served_snoc]
  rfl

theorem length_spans_served (requests : List LedgerRequest) :
    (served collector requests).spans.length ≤ (served collector requests).limit := by
  induction requests using List.reverseRecOn with
  | nil => exact Nat.zero_le _
  | append_singleton requests r ih =>
      rcases r.eq_reset_or with rfl | going
      · rw [spans_served_reset]
        exact Nat.zero_le _
      · rw [served_snoc, spans_serve going ih, length_newest]
        exact Nat.min_le_left _ _

theorem spans_served_snoc (collector : Collector) (requests : List LedgerRequest)
    (hr : r.isReset = false) :
    (served collector (requests ++ [r])).spans =
      newest (limitAfter (requests ++ [r]))
        ((served collector requests).spans ++ r.span?.toList) := by
  rw [← limit_served, served_snoc, spans_serve hr (length_spans_served requests)]

/-- The kept spans are the last ones recorded since the last reset. -/
theorem spans_served_suffix (requests : List LedgerRequest) :
    (served collector requests).spans <:+ spansSince requests := by
  induction requests using List.reverseRecOn with
  | nil => exact List.nil_suffix
  | append_singleton requests r ih =>
      rcases r.eq_reset_or with rfl | going
      · rw [spans_served_reset]
        exact List.nil_suffix
      · rw [spans_served_snoc collector requests going, spansSince_snoc going]
        obtain ⟨dropped, whole⟩ := ih
        refine (newest_suffix _ _).trans ⟨dropped, ?_⟩
        rw [← List.append_assoc, whole]

/-- A span and all that came after it fit at every moment since it was recorded. -/
def FitsSince (before : List LedgerRequest) (x : Span) (later : List LedgerRequest) : Prop :=
  ∀ now, now <+: later → (spansIn now).length < limitAfter (before ++ .span x :: now)

theorem fitsSince_nil : FitsSince before x [] := by
  intro now started
  rw [List.prefix_nil.mp started]
  exact limitAfter_pos _

theorem fitsSince_snoc :
    FitsSince before x (later ++ [r]) ↔
      FitsSince before x later ∧
        (spansIn (later ++ [r])).length < limitAfter (before ++ .span x :: (later ++ [r])) := by
  constructor
  · intro fits
    refine ⟨fun now started => fits now (started.trans (List.prefix_append _ _)), ?_⟩
    exact fits _ List.prefix_rfl
  · rintro ⟨fits, last⟩ now started
    rcases List.prefix_concat_iff.mp started with rfl | started
    · exact last
    · exact fits now started

/-- There are more spans than came after a certain one exactly if it always fitted. -/
theorem length_served_iff (unbroken : ∀ r ∈ later, r.isReset = false) :
    (spansIn later).length < (served collector (before ++ .span x :: later)).spans.length ↔
      FitsSince before x later := by
  induction later using List.reverseRecOn with
  | nil =>
      refine iff_of_true ?_ fitsSince_nil
      have positive := limitAfter_pos (before ++ [.span x])
      rw [spans_served_snoc collector before rfl, length_newest, List.length_append]
      simp only [spansIn, List.filterMap_nil, List.length_nil, span?, Option.toList_some,
        List.length_singleton]
      omega
  | append_singleton later r ih =>
      obtain ⟨earlier, last⟩ := List.forall_mem_append.mp unbroken
      have grown := spans_served_snoc collector (before ++ .span x :: later)
        (last r (List.mem_singleton_self r))
      rw [List.append_assoc, List.cons_append] at grown
      rw [fitsSince_snoc, ← ih earlier, grown, length_newest, spansIn_snoc, List.length_append,
        List.length_append]
      omega

/-- A span is still kept exactly if, at every moment since it was recorded, it fitted with
all that came after it. -/
theorem kept_iff (unbroken : ∀ r ∈ later, r.isReset = false) :
    x :: spansIn later <:+ (served collector (before ++ .span x :: later)).spans ↔
      FitsSince before x later := by
  rw [← length_served_iff unbroken]
  constructor
  · intro kept
    simpa [Nat.succ_le_iff] using kept.length_le
  · intro longer
    refine List.suffix_of_suffix_length_le ?_ (spans_served_suffix _)
      (by simpa [Nat.succ_le_iff] using longer)
    have unbroken' : ∀ r ∈ LedgerRequest.span x :: later, r.isReset = false :=
      List.forall_mem_cons.mpr ⟨rfl, unbroken⟩
    rw [spansSince_append unbroken']
    exact List.suffix_append _ _

/-! ## Totals -/

theorem counters_serve_limit (n : Int) : (l.serve (.limit n)).counters = l.counters := by
  cases checked : checkLimit n with
  | ok limit => rw [serve_limit_ok checked]; rfl
  | error fault => rw [serve_limit_error checked]

theorem counters_serve {l l' : Ledger} (h : l.counters = l'.counters) (r : LedgerRequest) :
    (l.serve r).counters = (l'.serve r).counters := by
  cases r with
  | span => exact h
  | reset => rfl
  | limit n => rw [counters_serve_limit, counters_serve_limit, h]
  | increment key amount =>
      show (l.increment key amount).1.counters = (l'.increment key amount).1.counters
      rw [increment_eq, increment_eq, total, total, h]

/-- The totals are those of the requests without any limits. -/
theorem counters_served (requests : List LedgerRequest) :
    (served collector requests).counters =
      (served collector (requests.filter fun r => !r.isLimit)).counters := by
  induction requests using List.reverseRecOn with
  | nil => rfl
  | append_singleton requests r ih =>
      rw [served_snoc, List.filter_append]
      cases r with
      | limit n => simpa [isLimit, counters_serve_limit] using ih
      | span | increment | reset => exact (counters_serve ih _).trans (by rw [← served_snoc]; rfl)

end Ledger

/-! ## States -/

namespace State

open LedgerRequest

/-- The state after requests, the first one first. -/
def serve (s : State) (requests : List LedgerRequest) : State :=
  requests.foldl (fun s r => Action.finalState (r.action s)) s

theorem finalState_action (r : LedgerRequest) (s : State) :
    Action.finalState (r.action s) = { s with ledger := s.ledger.serve r } := by
  cases r with
  | span | reset => rfl
  | increment key amount =>
      rw [action, Action.increment_apply]
      cases (s.ledger.increment key amount).2 <;> rfl
  | limit n =>
      cases checked : checkLimit n with
      | ok limit => rw [action, Action.setLimit_ok checked, Ledger.serve_limit_ok checked]; rfl
      | error fault =>
          rw [action, Action.setLimit_error checked, Ledger.serve_limit_error checked]; rfl

theorem serve_eq (s : State) (requests : List LedgerRequest) :
    s.serve requests = { s with ledger := requests.foldl Ledger.serve s.ledger } := by
  induction requests generalizing s with
  | nil => rfl
  | cons r requests ih =>
      show (Action.finalState (r.action s)).serve requests = _
      rw [ih, finalState_action]
      rfl

theorem serve_append (s : State) (first second : List LedgerRequest) :
    s.serve (first ++ second) = (s.serve first).serve second :=
  List.foldl_append

theorem ledger_initial_serve (collector : Collector) (requests : List LedgerRequest) :
    ((State.initial collector).serve requests).ledger = .served collector requests := by
  rw [serve_eq]
  rfl

/-- A ledger with a window on what was asked of it, and what becomes of the window next. -/
structure KeepsWindow (s : State) (requests : List LedgerRequest) : Prop where
  limit : s.ledger.limit = limitAfter requests
  bounded : s.ledger.spans.length ≤ s.ledger.limit
  /-- The kept spans are the last ones recorded since the last reset, with none missing
  between them and none there twice. -/
  suffix : s.ledger.spans <:+ spansSince requests
  /-- A span goes when it does not fit any more with all that came after it, not earlier,
  and does not come back. -/
  kept : ∀ before x later, requests = before ++ .span x :: later →
    (∀ r ∈ later, r.isReset = false) →
      (x :: spansIn later <:+ s.ledger.spans ↔ Ledger.FitsSince before x later)
  recorded : ∀ x, (s.serve [.span x]).ledger.spans =
    if s.ledger.spans.length < s.ledger.limit then s.ledger.spans ++ [x]
    else s.ledger.spans.tail ++ [x]
  accepted : ∀ n : Nat, 1 ≤ n → n ≤ largestLimit →
    s.serve [.limit n] =
      { s with
        ledger :=
          { s.ledger with
            limit := n
            spans := s.ledger.spans.drop (s.ledger.spans.length - n) } }
  raised : ∀ n : Int, s.ledger.limit ≤ n →
    (s.serve [.limit n]).ledger.spans = s.ledger.spans
  refused : ∀ n : Int, n < 1 ∨ largestLimit < n →
    ∃ fault, (LedgerRequest.limit n).action s = .error (.raised fault) s
  reset : (s.serve [.reset]).ledger.spans = [] ∧
    (s.serve [.reset]).ledger.limit = s.ledger.limit
  /-- The totals are those of the same requests without any limits. -/
  counters : s.ledger.counters =
    ((State.initial s.ledger.collector).serve
      (requests.filter fun r => !r.isLimit)).ledger.counters

section Next

variable {s : State}

theorem serve_singleton (s : State) (r : LedgerRequest) :
    s.serve [r] = { s with ledger := s.ledger.serve r } :=
  serve_eq s [r]

theorem spans_recorded (bounded : s.ledger.spans.length ≤ s.ledger.limit)
    (positive : 1 ≤ s.ledger.limit) (x : Span) :
    (s.serve [.span x]).ledger.spans =
      if s.ledger.spans.length < s.ledger.limit then s.ledger.spans ++ [x]
      else s.ledger.spans.tail ++ [x] := by
  rw [serve_singleton]
  show Ledger.newest s.ledger.limit (s.ledger.spans ++ [x]) = _
  split
  next room => exact Ledger.newest_eq_self (by simpa [Nat.succ_le_iff] using room)
  next full =>
    have one : (s.ledger.spans ++ [x]).length - s.ledger.limit = 1 := by
      rw [List.length_append, List.length_singleton]
      omega
    rw [Ledger.newest, one, List.drop_one, List.tail_append_of_ne_nil]
    rintro none
    rw [none, List.length_nil] at full
    omega

theorem serve_accepted {n : Nat} (positive : 1 ≤ n) (inRange : (n : Int) ≤ largestLimit) :
    s.serve [.limit n] =
      { s with
        ledger :=
          { s.ledger with
            limit := n
            spans := s.ledger.spans.drop (s.ledger.spans.length - n) } } := by
  have checked : checkLimit n = .ok n :=
    checkLimit_eq_ok_iff.mpr ⟨by exact_mod_cast positive, inRange, rfl⟩
  rw [serve_singleton, Ledger.serve_limit_ok checked]
  rfl

theorem spans_raised (bounded : s.ledger.spans.length ≤ s.ledger.limit) {n : Int}
    (raised : s.ledger.limit ≤ n) : (s.serve [.limit n]).ledger.spans = s.ledger.spans := by
  rw [serve_singleton]
  cases checked : checkLimit n with
  | error fault => rw [Ledger.serve_limit_error checked]
  | ok limit =>
      obtain ⟨-, -, same⟩ := checkLimit_eq_ok_iff.mp checked
      rw [Ledger.serve_limit_ok checked]
      exact Ledger.newest_eq_self (by omega)

theorem limit_refused {n : Int} (outside : n < 1 ∨ largestLimit < n) (s : State) :
    ∃ fault, (LedgerRequest.limit n).action s = .error (.raised fault) s := by
  cases checked : checkLimit n with
  | error fault => exact ⟨fault, Action.setLimit_error checked s⟩
  | ok limit =>
      obtain ⟨positive, bounded, -⟩ := checkLimit_eq_ok_iff.mp checked
      omega

end Next

/-! ## Runs -/

variable {V : Vocabulary} {s s' : State}

/-- Entering a dispatch is serving requests. -/
theorem serves_enter (s : State) (r : DispatchRecord) :
    ∃ requests, (s.ledger.enter r).1 = (s.serve requests).ledger := by
  have one_more : ∀ (request : LedgerRequest) {l : Ledger},
      (∃ requests, l = (s.serve requests).ledger) →
        ∃ requests, l.serve request = (s.serve requests).ledger := by
    rintro request _ ⟨requests, rfl⟩
    refine ⟨requests ++ [request], ?_⟩
    rw [serve_append, serve_singleton]
  exact Ledger.enter_induction (P := fun l => ∃ requests, l = (s.serve requests).ledger)
    ⟨[], rfl⟩ (one_more (.span r.span)) fun _ key _ => one_more (.increment key .one)

/-- Whatever is done to the ledger might as well have been asked for. -/
theorem Booking.serves (h : s.Booking V s') :
    ∃ requests, s'.ledger = (s.serve requests).ledger := by
  cases h with
  | work later spared => exact ⟨[], spared.ledger⟩
  | read => exact ⟨[], rfl⟩
  | span allowed x => exact ⟨[.span x], rfl⟩
  | @increment name keys allowed m attributes read amount =>
      refine ⟨[.increment ⟨name, attributes⟩ amount], ?_⟩
      rw [serve_singleton]
      rfl
  | reset allowed => exact ⟨[.reset], rfl⟩
  | @limit allowed n limit checked =>
      refine ⟨[.limit n], ?_⟩
      rw [serve_singleton, Ledger.serve_limit_ok checked]
  | @adopt settings limit asked checked =>
      refine ⟨[.limit settings.ledgerLimit], ?_⟩
      rw [serve_singleton, Ledger.serve_limit_ok checked]
      rfl
  | @settle r before later faithful => exact serves_enter s r

theorem Bookings.serves (h : s.Bookings V s') :
    ∃ requests, s'.ledger = (s.serve requests).ledger := by
  induction h with
  | refl => exact ⟨[], rfl⟩
  | @tail t t' _ last ih =>
      obtain ⟨first, reached⟩ := ih
      obtain ⟨second, further⟩ := last.serves
      refine ⟨first ++ second, ?_⟩
      rw [serve_append, further, serve_eq t, serve_eq (s.serve first), reached]

end State

/-- The spans in the ledger are a bounded window on what was asked of it, and the ledgers
of runs are what requests make of them. -/
theorem spans_window :
    (∀ collector requests, ((State.initial collector).serve requests).KeepsWindow requests) ∧
      ∀ s s', Reachable s → s.LeadsTo .full s' →
        ∃ requests, s'.ledger = (s.serve requests).ledger := by
  refine ⟨fun collector requests => ?_, ?_⟩
  · have ledger := State.ledger_initial_serve collector requests
    have bounded : ((State.initial collector).serve requests).ledger.spans.length ≤
        ((State.initial collector).serve requests).ledger.limit := by
      rw [ledger]
      exact Ledger.length_spans_served requests
    have limit : ((State.initial collector).serve requests).ledger.limit =
        LedgerRequest.limitAfter requests := by
      rw [ledger, Ledger.limit_served]
    refine
      { limit := limit
        bounded := bounded
        suffix := ?suffix
        kept := ?kept
        recorded := State.spans_recorded bounded (limit ▸ LedgerRequest.limitAfter_pos requests)
        accepted := fun n => State.serve_accepted
        raised := fun n => State.spans_raised bounded
        refused := fun n outside => State.limit_refused outside _
        reset := ⟨rfl, rfl⟩
        counters := ?counters }
    case suffix =>
      rw [ledger]
      exact Ledger.spans_served_suffix requests
    case kept =>
      rintro before x later split unbroken
      rw [ledger, split]
      exact Ledger.kept_iff unbroken
    case counters =>
      rw [ledger, Ledger.collector_served, State.ledger_initial_serve]
      exact Ledger.counters_served requests
  · intro s s' hs h
    exact (h.books hs.confines).2.serves

/-- A limit that is lowered for a moment. -/
def LedgerRequest.lowering : List LedgerRequest :=
  [.span ⟨"a", [], false⟩, .span ⟨"b", [], false⟩, .limit 1, .limit 3, .span ⟨"c", [], false⟩]

/-- The first span has gone for good. -/
theorem spans_window_lowering :
    ((State.initial .standard).serve LedgerRequest.lowering).KeepsWindow LedgerRequest.lowering ∧
      ((State.initial .standard).serve LedgerRequest.lowering).ledger.spans.map Span.name =
        ["b", "c"] :=
  ⟨spans_window.1 .standard LedgerRequest.lowering, by decide +kernel⟩

end OperatorDispatch
