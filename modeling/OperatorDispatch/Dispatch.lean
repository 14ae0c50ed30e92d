import OperatorDispatch.Snapshot

/-!
# Dispatch

A dispatch takes a well-formed application, decides on the heap what is to be
done, and carries the decision out; only the last step changes anything.
`apply` does so under observation: there is a span around the work, the
dispatch leaves a record of how it ended, and its outcome is counted once.
-/

namespace OperatorDispatch

/-! ## Carrying a decision out -/

namespace Action

/-- A call of a handler, with what becomes of its result. -/
def invoke (call : Function → Arguments → Action Value) (f : Function) (arguments : Arguments) :
    Use → Action (Value × Outcome)
  | .answer => do
    let v ← call f arguments
    return (v, .handler)
  | .truth => do
    let v ← call f arguments
    return (.boolean ((← heap).truthy v), .derived)
  | .receiver => do
    let _ ← call f arguments
    return (arguments.this, .handler)
  | .snapshot => do
    let (_, i) ← demand .unusable ((← heap).instanceOf? arguments.this)
    let before ← snapshot i
    let _ ← call f arguments
    return (.object before, .handler)

/-- The answer of a fallback. -/
def fallBack (settings : Settings) (o : Operator) (fallback : Fallback) (typeName : String) :
    Action (Value × Outcome) := do
  log (.fallback o.literal typeName fallback)
  match fallback with
  | .sentinel => return (settings.sentinel, .default)
  | .unequal => return (.boolean false, .default)
  | .refuse => raise (.operatorNotDefined o.category o.literal typeName)

def carryOut (call : Function → Arguments → Action Value) (settings : Settings) (o : Operator) :
    Decision → Action (Value × Outcome)
  | .answer v outcome => pure (v, outcome)
  | .fallBack fallback typeName => fallBack settings o fallback typeName
  | .fail fault => raise (.native fault)
  | .invoke f arguments use => invoke call f arguments use

/-- A decision carried out, and the answer turned round where the application
asks for it. -/
def perform (call : Function → Arguments → Action Value) (settings : Settings)
    (a : Application) (d : Decision) : Action (Value × Outcome) := do
  let (v, outcome) ← carryOut call settings a.operator d
  if a.negates then
    return (.boolean (!(← heap).truthy v), outcome)
  else
    return (v, outcome)

/-! ## History -/

/-- The work of a dispatch with a record left behind when it is over. -/
def recorded (settings : Settings) (a : Application) (d : Decision)
    (work : Action (Value × Outcome)) : Action (Value × Outcome) := fun s =>
  match work s with
  | .ok (v, outcome) s => .ok (v, outcome) (s.conclude ⟨settings, a, d, .returned outcome⟩)
  | .error (.raised fault) s =>
    .error (.raised fault) (s.conclude ⟨settings, a, d, .raised fault⟩)
  | .error (.aborted text) s =>
    .error (.aborted text) (s.conclude ⟨settings, a, d, .aborted⟩)
  | .error .exhausted s => .error .exhausted s

/-! ## Observation -/

/-- A finished span written to the ledger. -/
def recordSpan (span : Span) : Action Unit := do
  setLedger ((← get).ledger.record span)

/-- Work inside a span.  The span counts as failed where the work raises, and
not where it is aborted.  The text of a fault is asked for on the way out, so
what is raised in the end is the fault as it was told. -/
def spanned {α : Type} (name : String) (attributes : Attributes) (work : Action α) :
    Action α := fun s =>
  match work s with
  | .ok x s =>
    (do recordSpan ⟨name, attributes, false⟩; return x : Action α) s
  | .error (.raised fault) s =>
    (do recordSpan ⟨name, attributes, true⟩; raise fault.told : Action α) s
  | .error (.aborted text) s =>
    (do recordSpan ⟨name, attributes, false⟩; throw (.aborted text) : Action α) s
  | .error .exhausted s => .error .exhausted s

/-- An amount added to a counter. -/
def increment (key : CounterKey) (amount : Double) : Action Unit := do
  let (l, refusal) := (← get).ledger.increment key amount
  setLedger l
  match refusal with
  | none => pure ()
  | some .duplicateSeries => raise .duplicateSeries
  | some .negativeAmount => raise .negativeIncrement

def dispatchSpan : String := "odre.dispatch"

def dispatchCounter : String := "odre_dispatch_total"

/-- One more dispatch of an operator under an outcome. -/
def countOutcome (settings : Settings) (o : Operator) (outcome : Outcome) : Action Unit := do
  if settings.recordMetrics then
    increment ⟨dispatchCounter, [("operator", o.literal), ("outcome", outcome.name)]⟩ .one

/-- The work of a dispatch inside its span, where dispatches have spans. -/
def underSpan (settings : Settings) (o : Operator) (work : Action (Value × Outcome)) :
    Action (Value × Outcome) :=
  if settings.traceSpans then
    spanned dispatchSpan [("operator", o.literal), ("selector", o.selector.identifier)] work
  else work

/-- A dispatch without its count. -/
def conduct (call : Function → Arguments → Action Value) (settings : Settings)
    (a : Application) : Action (Value × Outcome) := do
  let d := a.decide (← heap)
  recorded settings a d (underSpan settings a.operator (perform call settings a d))

/-- The outcome of a dispatch counted, unless the dispatch was aborted. -/
def counted (settings : Settings) (o : Operator) (work : Action (Value × Outcome)) :
    Action Value := fun s =>
  match work s with
  | .ok (v, outcome) s =>
    (do countOutcome settings o outcome; return v : Action Value) s
  | .error (.raised fault) s =>
    (do countOutcome settings o .error; raise fault : Action Value) s
  | .error e s => .error e s

/-- The dispatch of an application. -/
def apply (call : Function → Arguments → Action Value) (settings : Settings)
    (a : Application) : Action Value :=
  counted settings a.operator (conduct call settings a)

def dispatchBinary (call : Function → Arguments → Action Value) (settings : Settings)
    (literal : String) (lhs rhs : Value) : Action Value := do
  let a ← ofExcept (Application.binary (← get).operators literal lhs rhs)
  apply call settings a

def dispatchUnary (call : Function → Arguments → Action Value) (settings : Settings)
    (literal : String) (position : Option String) (operand : Value) : Action Value := do
  let a ← ofExcept (Application.unary (← get).operators literal position operand)
  apply call settings a

end Action

end OperatorDispatch
