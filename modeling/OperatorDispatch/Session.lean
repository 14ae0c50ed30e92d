import OperatorDispatch.Evaluation

/-!
# Sessions

A session is a list of expressions evaluated one after the other over one
state.  A step that fails keeps its effects and does not stop the session.
The report of a step holds what it traced and how it ended, each with the heap
as it was then.
-/

namespace OperatorDispatch

/-- How an action ended. -/
inductive Ending where
  | value (v : Value)
  | interrupted (why : Interruption)

/-- What a step has to show. -/
structure StepReport where
  sightings : List Sighting
  ending : Ending
  heap : Heap

/-- Where a session takes its dispatch settings from. -/
inductive EngineChoice where
  /-- Settings of its own, from the values of the named ones. -/
  | own (fields : List String) (values : List Expr)
  /-- The shared settings. -/
  | shared

structure Session where
  engine : EngineChoice
  environment : Environment
  steps : List Expr

namespace Session

/-- How many handler calls may be inside each other.  The bound ends handlers
that call each other without end, and lies far above what others need. -/
def callDepth : Nat := 10000

/-- One step: the report and the state after it. -/
def step (engine : Engine) (s : State) (e : Expr) : StepReport × State :=
  match Action.evaluateTop engine callDepth e { s with sightings := [] } with
  | .ok v s => (⟨s.sightings, .value v, s.heap⟩, s)
  | .error why s => (⟨s.sightings, .interrupted why, s.heap⟩, s)

/-- All steps, their reports in order. -/
def runSteps (engine : Engine) : State → List Expr → List StepReport × State
  | s, [] => ([], s)
  | s, e :: es =>
    let (report, s) := step engine s e
    let (reports, s) := runSteps engine s es
    (report :: reports, s)

/-- The engine of a session.  Settings of its own are evaluated first. -/
def start (session : Session) : Action Engine := do
  match session.engine with
  | .shared => return .shared session.environment
  | .own fields values =>
    let vs ← Action.evaluateAll (Action.callAt (.own .standard) callDepth) (.own .standard)
      none values
    let settings ← Action.ofExcept
      (Action.settingsFrom (← Action.heap) (Action.entriesFrom fields vs).entries)
    return .own settings

/-- A session from the initial state on. -/
def runUnder (collector : Collector) (session : Session) : List StepReport :=
  match session.start (.initial collector) with
  | .ok engine s => (runSteps engine s session.steps).1
  | .error why s => session.steps.map fun _ => ⟨[], .interrupted why, s.heap⟩

/-- A session beside the standard collector. -/
def run (session : Session) : List StepReport :=
  session.runUnder .standard

end Session

/-! ## Single applications -/

/-- The outcome that the latest dispatch is counted under. -/
def State.latestOutcome? (s : State) : Option Outcome :=
  s.dispatches.getLast?.bind (·.ending.outcome?)

/-- A dispatch in a state, with the outcome that it is counted under.  A
malformed application is not counted. -/
def Application.report (application : Except Fault Application) (s : State) :
    StepReport × Option Outcome :=
  match application with
  | .error fault => (⟨[], .interrupted (.raised fault), s.heap⟩, none)
  | .ok a =>
    match Action.apply (Action.callAt (.own .standard) Session.callDepth) .standard a s with
    | .ok v s => (⟨s.sightings, .value v, s.heap⟩, s.latestOutcome?)
    | .error why s => (⟨s.sightings, .interrupted why, s.heap⟩, s.latestOutcome?)

/-- The operands of a single application evaluated, and then what is made of
them. -/
def withOperands {α : Type} (operands : List Expr)
    (use : List Value → State → StepReport × Option α) : StepReport × Option α :=
  let engine := Engine.own .standard
  match Action.evaluateAll (Action.callAt engine Session.callDepth) engine none operands
      (.initial .standard) with
  | .ok vs s => use vs s
  | .error why s => (⟨[], .interrupted why, s.heap⟩, none)

end OperatorDispatch
