import OperatorDispatch.Dispatch.History
import OperatorDispatch.Settings

/-!
# States and actions

A run goes through states: the heap, the run's variables, what has been
traced, the journal, the ledger, the dispatches that are over, the operator
tables, the shared settings and the number of the next function.  An action
works on a state and either gives a result or is interrupted; both ways the
state that it reached is kept.

`raise` and the functions after it are the only ways in which the rest of the
engine touches a state.
-/

namespace OperatorDispatch

/-- A traced value, with the heap as it was then. -/
structure Sighting where
  value : Value
  heap : Heap

structure State where
  heap : Heap
  bindings : OrderedMap String Value
  /-- What the current step has traced, the oldest first. -/
  sightings : List Sighting
  /-- The rows not yet read, the oldest first. -/
  journal : List LogRow
  ledger : Ledger
  /-- The dispatches that are over, the oldest first. -/
  dispatches : List DispatchRecord
  operators : OperatorTables
  /-- The settings of the shared dispatcher, once there is one. -/
  shared : Option Settings
  nextFunction : Nat

namespace State

/-- Where every run begins, beside some collector. -/
def initial (collector : Collector) : State where
  heap := .empty
  bindings := .empty
  sightings := []
  journal := []
  ledger := .empty collector
  dispatches := []
  operators := .standard
  shared := none
  nextFunction := 0

/-- The state with one more dispatch over. -/
def conclude (s : State) (r : DispatchRecord) : State :=
  { s with dispatches := s.dispatches ++ [r] }

end State

/-- Why an action gives no result. -/
inductive Interruption where
  /-- An ordinary failure, which can be caught. -/
  | raised (fault : Fault)
  /-- A departure that nothing catches. -/
  | aborted (text : String)
  /-- Handlers called each other beyond the depth allowed. -/
  | exhausted
deriving DecidableEq

abbrev Action := EStateM Interruption State

namespace Action

def raise {α : Type} (fault : Fault) : Action α :=
  throw (.raised fault)

/-- The result of a computation that may fail. -/
def ofExcept {α : Type} : Except Fault α → Action α
  | .ok x => pure x
  | .error fault => raise fault

/-- What is there, or else a fault. -/
def demand {α : Type} (fault : Fault) : Option α → Action α
  | some x => pure x
  | none => raise fault

def heap : Action Heap := fun s =>
  .ok s.heap s

/-- A new object. -/
def allocate (o : Object) : Action Address := fun s =>
  .ok (s.heap.allocate o).1 { s with heap := (s.heap.allocate o).2 }

/-- Another object at a given address. -/
def write (a : Address) (o : Object) : Action Unit := fun s =>
  .ok () { s with heap := s.heap.update a o }

/-- Several new objects, at ascending addresses. -/
def extend (os : List Object) : Action Unit := fun s =>
  .ok () { s with heap := s.heap.extend os }

def setVariable (name : String) (v : Value) : Action Unit := fun s =>
  .ok () { s with bindings := s.bindings.insert name v }

def sight (v : Value) : Action Unit := fun s =>
  .ok () { s with sightings := s.sightings ++ [⟨v, s.heap⟩] }

def log (row : LogRow) : Action Unit := fun s =>
  .ok () { s with journal := s.journal ++ [row] }

/-- The rows not yet read; they count as read from now on. -/
def takeRows : Action (List LogRow) := fun s =>
  .ok s.journal { s with journal := [] }

def setLedger (l : Ledger) : Action Unit := fun s =>
  .ok () { s with ledger := l }

def setShared (settings : Settings) : Action Unit := fun s =>
  .ok () { s with shared := some settings }

def setOperators (t : OperatorTables) : Action Unit := fun s =>
  .ok () { s with operators := t }

/-- A number that no function has yet. -/
def freshNumber : Action Nat := fun s =>
  .ok s.nextFunction { s with nextFunction := s.nextFunction + 1 }

end Action

end OperatorDispatch
