import OperatorDispatch.State

/-!
# Registries

A registry takes handlers until it is sealed.  It refuses what cannot be
called, it refuses `strictEquals` where it has no `equals`, and it refuses a
second handler for one selector unless it allows replacement.
-/

namespace OperatorDispatch

/-- The selector under either of its names. -/
def findSelector (name : String) : Except Fault Selector :=
  match Selector.ofName? name with
  | some s => .ok s
  | none => .error (.unknownSelector name)

namespace Registry

/-- An empty open registry. -/
def fresh (owner : String) (allowReplace : Bool) : Registry :=
  ⟨owner, allowReplace, false, .empty⟩

/-- The registry with one more handler. -/
def add (r : Registry) (s : Selector) (handler : Value) : Except Fault Registry :=
  if r.isSealed then
    .error (.registrySealed r.owner s)
  else match handler.function? with
    | none => .error (.invalidOverride s r.owner .notCallable)
    | some f =>
      if s = .strictEquals ∧ !r.handlers.contains .equals then
        .error (.invalidOverride s r.owner .equalsMissing)
      else if r.handlers.contains s ∧ !r.allowReplace then
        .error (.invalidOverride s r.owner .alreadyRegistered)
      else
        .ok { r with handlers := r.handlers.insert s f }

/-- An open registry with the same handlers, under another owner where one is
named. -/
def copy (r : Registry) (owner : Option String) : Registry :=
  { r with
    owner := match owner with
      | none | some "" => r.owner
      | some name => name
    isSealed := false }

end Registry

namespace Action

/-- The registry at an address. -/
def registryAt (a : Address) : Action Registry := do
  demand .unusable ((← heap).registryAt? a)

/-- A handler added to the registry at `a`. -/
def addHandler (a : Address) (s : Selector) (handler : Value) : Action Unit := do
  let r ← registryAt a
  let r' ← ofExcept (r.add s handler)
  write a (.registry r')
  log (.registered s r.owner)

/-- A handler added under the text of a selector. -/
def addNamed (a : Address) (selector : String) (handler : Value) : Action Unit := do
  let s ← ofExcept (findSelector selector)
  addHandler a s handler

def sealRegistry (a : Address) : Action Unit := do
  let r ← registryAt a
  write a (.registry { r with isSealed := true })

end Action

end OperatorDispatch
