import OperatorDispatch.Proofs.Conduct
import OperatorDispatch.Proofs.Plain
import OperatorDispatch.Proofs.Reachability
import OperatorDispatch.Proofs.Sharing

/-!
# The books of a run

What the engine keeps about itself: the rows it has logged, the ledger, the
dispatches that are over and the shared settings.  Rows stay on the books when
they are read, because the reading that they are handed out in is neither written
to nor copied.

`State.Booking` lists all that a run can do to the books.  A step of a scope says
what the heap may become and which links hold; a booking says what is entered, on
what grounds, and which commands of the vocabulary enter it.  That runs do nothing
else is shown in `Bookkeeping`.
-/

namespace OperatorDispatch

/-! ## Rows on the heap -/

namespace Heap

variable {h h' h'' : Heap}

/-- The rows that the object at an address hands out. -/
def rowsAt (h : Heap) (a : Address) : List LogRow :=
  (h.get? a).elim [] Object.rows

/-- The rows that have been handed out, the earliest reading first. -/
def rowsRead (h : Heap) : List LogRow :=
  h.objects.toList.flatMap Object.rows

theorem rowsRead_allocate (h : Heap) (o : Object) :
    (h.allocate o).2.rowsRead = h.rowsRead ++ o.rows := by
  simp [rowsRead, allocate]

theorem rowsRead_congr (same : ∀ a, h'.rowsAt a = h.rowsAt a) : h'.rowsRead = h.rowsRead := by
  have lists : ∀ os os' : List Object,
      (∀ i : Nat, os'[i]?.elim [] Object.rows = os[i]?.elim [] Object.rows) →
      os'.flatMap Object.rows = os.flatMap Object.rows := by
    intro os
    induction os with
    | nil =>
        intro os' same
        refine List.flatMap_eq_nil_iff.mpr fun o ho => ?_
        obtain ⟨i, hi⟩ := List.getElem?_of_mem ho
        simpa [hi] using same i
    | cons o os ih =>
        intro os' same
        cases os' with
        | nil =>
            have first : [] = o.rows := same 0
            have rest := ih [] fun i => same (i + 1)
            rw [List.flatMap_cons, ← first, ← rest]
            rfl
        | cons o' os' =>
            have first : o'.rows = o.rows := same 0
            rw [List.flatMap_cons, List.flatMap_cons, first, ih os' fun i => same (i + 1)]
  refine lists _ _ fun i => ?_
  simpa [rowsAt, get?] using same ⟨i⟩

/-- Nothing that is new on the second heap hands out rows. -/
def AddsNoRows (h h' : Heap) : Prop :=
  ∀ a, h'.rowsAt a = [] ∨ h'.get? a = h.get? a

namespace AddsNoRows

theorem refl (h : Heap) : h.AddsNoRows h :=
  fun _ => .inr rfl

theorem trans (hn : h.AddsNoRows h') (hn' : h'.AddsNoRows h'') : h.AddsNoRows h'' := by
  intro a
  rcases hn' a with none | same
  · exact .inl none
  · rcases hn a with none | same'
    · exact .inl (by rw [rowsAt, same]; exact none)
    · exact .inr (same.trans same')

theorem allocate (h : Heap) {o : Object} (silent : o.rows = []) :
    h.AddsNoRows (h.allocate o).2 := by
  intro a
  rw [rowsAt, get?_allocate]
  split
  · exact .inl silent
  · exact .inr rfl

theorem update (h : Heap) (a : Address) {o : Object} (silent : o.rows = []) :
    h.AddsNoRows (h.update a o) := by
  intro b
  rw [rowsAt, get?_update]
  split
  · exact .inl silent
  · exact .inr rfl

theorem extend (h : Heap) {os : List Object} (silent : ∀ o ∈ os, o.rows = []) :
    h.AddsNoRows (h.extend os) := by
  intro a
  by_cases old : a.index < h.size
  · exact .inr (get?_extend_of_lt os old)
  · rw [rowsAt, get?_extend_of_le os (Nat.le_of_not_lt old)]
    cases new : os[a.index - h.size]? with
    | none => exact .inl rfl
    | some o => exact .inl (silent o (List.mem_of_getElem? new))

/-- Readings stay as they are, so no row is lost either. -/
theorem rowsRead (hn : h.AddsNoRows h') (hl : h.Later h') : h'.rowsRead = h.rowsRead := by
  refine rowsRead_congr fun a => ?_
  rcases hn a with none | same
  · cases ho : h.get? a with
    | none => simpa [rowsAt, ho] using none
    | some o =>
        obtain ⟨o', ho', becomes⟩ := hl.object a o ho
        cases becomes with
        | reading => rw [rowsAt, rowsAt, ho, ho']
        | inst | typeDefinition | registry | cell | list | dict =>
            simp [rowsAt, ho, ho', Object.rows]
  · rw [rowsAt, rowsAt, same]

end AddsNoRows

end Heap

/-! ## What plain actions leave alone -/

/-- The books of the second state are those of the first one, but for rows about
other things than fallbacks. -/
structure State.Spares (s s' : State) : Prop where
  heap : s.heap.AddsNoRows s'.heap
  journal : ∃ rows, s'.journal = s.journal ++ rows ∧ ∀ row ∈ rows, row.isFallback = false
  ledger : s'.ledger = s.ledger
  dispatches : s'.dispatches = s.dispatches
  shared : s'.shared = s.shared

namespace State.Spares

variable {s s' s'' : State}

theorem of_heap {h : Heap} (hn : s.heap.AddsNoRows h) : s.Spares { s with heap := h } :=
  ⟨hn, ⟨[], (List.append_nil _).symm, nofun⟩, rfl, rfl, rfl⟩

theorem refl (s : State) : s.Spares s :=
  of_heap (.refl _)

theorem trans (hs : s.Spares s') (hs' : s'.Spares s'') : s.Spares s'' := by
  obtain ⟨rows, hrows, plain⟩ := hs.journal
  obtain ⟨rows', hrows', plain'⟩ := hs'.journal
  refine ⟨hs.heap.trans hs'.heap, ⟨rows ++ rows', ?_, ?_⟩, hs'.ledger.trans hs.ledger,
    hs'.dispatches.trans hs.dispatches, hs'.shared.trans hs.shared⟩
  · rw [hrows', hrows, List.append_assoc]
  · intro row hrow
    rcases List.mem_append.mp hrow with old | new
    · exact plain row old
    · exact plain' row new

end State.Spares

theorem Action.Plain.spares {α : Type} {m : Action α} (hm : Plain m) (s : State) :
    s.Spares (finalState (m s)) := by
  induction hm generalizing s with
  | pure | throw | heap => exact .refl s
  | allocate silent => exact .of_heap (.allocate _ silent)
  | write a silent => exact .of_heap (.update _ a silent)
  | extend silent => exact .of_heap (.extend _ silent)
  | @log row other =>
      refine ⟨.refl _, ⟨[row], rfl, ?_⟩, rfl, rfl, rfl⟩
      rintro _ (_ | ⟨_, ⟨⟩⟩)
      exact other
  | @bind _ _ m f _ _ first rest =>
      have begun := first s
      cases hm : m s with
      | ok x t =>
          rw [hm] at begun
          rw [bind_ok hm]
          exact begun.trans (rest x t)
      | error e t =>
          rw [hm] at begun
          rwa [bind_error hm]

/-! ## Records that are true -/

namespace Scope

variable {S : Scope} {h h' : Heap}

/-- A value keeps the name of its type. -/
theorem Covers.typeName_later (hc : S.Covers h) {v : Value} (hv : S.Knows h v)
    (hl : h.Later h') : (h'.classify v).typeName = (h.classify v).typeName := by
  cases v with
  | primitive | function => rfl
  | object a =>
      obtain ⟨o, ho⟩ := Heap.exists_get?_of_lt hv.2
      obtain ⟨o', ho', becomes⟩ := hl.object a o ho
      cases becomes with
      | @inst i i' type =>
          simp only [Heap.classify, ho, ho', Operand.typeName, Heap.typeNameOf, type]
          cases ht : i.type with
          | none => rfl
          | some b =>
              obtain ⟨-, t, found⟩ := (hc.object a _ hv.1 ho).2.1 b ht
              simp only [Option.bind_some, found, hl.typeAt? found]
      | typeDefinition | registry | cell | list | dict | reading =>
          simp only [Heap.classify, ho, ho', Operand.typeName, Heap.objectName]

theorem KnowsApplication.this {a : Application} (ha : S.KnowsApplication h a) :
    S.Knows h a.arguments.this := by
  obtain ⟨o, form⟩ := a
  cases form with
  | binary => exact ha.1
  | unary | step => exact ha

end Scope

namespace DispatchRecord

/-- What the left operand is called on a heap: its kind or the name of its type. -/
def operandName (r : DispatchRecord) (h : Heap) : String :=
  (h.classify r.application.arguments.this).typeName

/-- The record tells of a dispatch that was decided on the heap `before`, and tells
the truth: an ending that needed no handler is the one on record. -/
structure TrueTo (r : DispatchRecord) (before : Heap) : Prop where
  decided : r.decision = r.application.decide before
  outcome : ∀ outcome, r.ending = .returned outcome → r.decision.outcome? = some outcome
  alone : ∀ result, r.application.ending? r.settings before r.decision = some result →
    r.ending = .ofExcept result
  named : ∀ h, before.Later h → r.operandName h = r.operandName before

end DispatchRecord

/-! ## Bookings -/

/-- What a run can do to the books. -/
inductive State.Booking (V : Vocabulary) (s : State) : State → Prop
  | work {s' : State} (later : s.heap.Later s'.heap) (spared : s.Spares s') : Booking V s s'
  /-- The rows are handed out in a reading. -/
  | read : Booking V s
      { s with journal := [], heap := (s.heap.allocate (.reading (.rows s.journal))).2 }
  | span (allowed : V.spans = true) (span : Span) :
      Booking V s { s with ledger := s.ledger.record span }
  | increment {name : String} {keys : List String}
      (allowed : V.commands (.telemetry (.increment name keys)) = true)
      {m : OrderedMap String Value} {attributes : Attributes}
      (read : Action.attributesFrom s.heap m = .ok attributes) (amount : Double) :
      Booking V s { s with ledger := (s.ledger.increment ⟨name, attributes⟩ amount).1 }
  | reset (allowed : V.commands (.telemetry .reset) = true) :
      Booking V s { s with ledger := s.ledger.reset }
  | limit (allowed : V.commands (.telemetry .setLimit) = true) {n : Int} {limit : Nat}
      (checked : checkLimit n = .ok limit) :
      Booking V s { s with ledger := s.ledger.withLimit limit }
  /-- The settings were asked for, or read from the environment for want of others. -/
  | adopt {settings : Settings} {limit : Nat}
      (asked : (∃ fields, V.commands (.telemetry (.configure fields)) = true) ∨
        s.shared = none ∧ ∃ environment, Settings.ofEnvironment environment = .ok settings)
      (checked : checkLimit settings.ledgerLimit = .ok limit) :
      Booking V s (s.adopt settings limit)
  | settle {r : DispatchRecord} {before : Heap} (later : before.Later s.heap)
      (faithful : r.TrueTo before) : Booking V s (s.settle r)

/-- What a stretch of a run does to the books. -/
abbrev State.Bookings (V : Vocabulary) : State → State → Prop :=
  Relation.ReflTransGen (State.Booking V)

namespace State.Booking

/-- Work on what is not in the books. -/
theorem elsewhere {V : Vocabulary} {s s' : State} (heap : s'.heap = s.heap)
    (journal : s'.journal = s.journal) (ledger : s'.ledger = s.ledger)
    (dispatches : s'.dispatches = s.dispatches) (shared : s'.shared = s.shared) :
    s.Booking V s' := by
  refine .work ?_ ⟨?_, ⟨[], ?_, nofun⟩, ledger, dispatches, shared⟩
  · rw [heap]
    exact .refl _
  · rw [heap]
    exact .refl _
  · rw [journal, List.append_nil]

theorem later {V : Vocabulary} {s s' : State} (h : s.Booking V s') :
    s.heap.Later s'.heap := by
  cases h with
  | work later => exact later
  | read => exact .allocate _ _
  | span | increment | reset | limit | adopt | settle => exact .refl _

end State.Booking

namespace Action

variable {α β : Type} {V : Vocabulary} {s : State} {m : Action α}

/-- From `s` the action does nothing to the books but bookings. -/
abbrev KeepsBooks (V : Vocabulary) (s : State) (m : Action α) : Prop :=
  Runs (State.Booking V) s m fun _ _ => True

/-- What comes next may start from what a run inside the scope has left. -/
theorem keepsBooks_bind {f : α → Action β} {Q : α → State → Prop} (first : KeepsBooks V s m)
    (inside : Runs (Scope.whole V).Step s m Q)
    (rest : ∀ x s', (Scope.whole V).Steps s s' → Q x s' → KeepsBooks V s' (f x)) :
    KeepsBooks V s (m >>= f) := by
  refine runs_bind first.ending ?_
  rintro x s' - ⟨-, given⟩
  obtain ⟨steps, known⟩ := inside.reached given
  exact rest x s' steps known

theorem keepsBooks_iff :
    KeepsBooks V s m ↔ s.Bookings V (finalState (m s)) := by
  refine ⟨Runs.steps, fun booked => ?_⟩
  unfold KeepsBooks Runs
  cases given : m s with
  | ok x t =>
      rw [given] at booked
      exact ⟨booked, trivial⟩
  | error e t =>
      rw [given] at booked
      exact booked

/-- An action that makes one booking and no more. -/
theorem keepsBooks_of_booking (h : s.Booking V (finalState (m s))) : KeepsBooks V s m :=
  keepsBooks_iff.mpr (.single h)

theorem keepsBooks_plain {Q : α → State → Prop} (hm : Plain m)
    (inside : Runs (Scope.whole V).Step s m Q) : KeepsBooks V s m :=
  keepsBooks_of_booking (.work (Scope.Steps.later inside.steps) (hm.spares s))

end Action

end OperatorDispatch
