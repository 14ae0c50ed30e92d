import OperatorDispatch.Dispatch

/-!
# The engine of a run

A run dispatches through settings of its own, or through the shared settings.
The shared ones are read from the environment when they are first wanted, and
replaced by `configure`.  Either way the limit of the ledger changes with them,
and where the limit is refused nothing has changed.
-/

namespace OperatorDispatch

/-- Where the settings of a dispatch come from. -/
inductive Engine where
  | own (settings : Settings)
  | shared (environment : Environment)

/-- The largest limit that the ledger can be given. -/
def largestLimit : Int := 0x7fffffffffffffff

/-- A limit for the ledger. -/
def checkLimit (n : Int) : Except Fault Nat :=
  if n < 1 then .error .limitNotPositive
  else if largestLimit < n then .error .limitTooLarge
  else .ok n.toNat

namespace Action

/-- The limit of the ledger changed; the oldest spans go first. -/
def setLimit (n : Int) : Action Unit := do
  let limit ← ofExcept (checkLimit n)
  setLedger ((← get).ledger.withLimit limit)

/-- New shared settings, with their limit. -/
def configure (settings : Settings) : Action Unit := do
  setLimit settings.ledgerLimit
  setShared settings

/-- The shared settings, read from the environment at first use. -/
def sharedSettings (environment : Environment) : Action Settings := do
  match (← get).shared with
  | some settings => return settings
  | none =>
    let settings ← ofExcept (Settings.ofEnvironment environment)
    configure settings
    return settings

/-- The settings that an engine dispatches with. -/
def settingsOf : Engine → Action Settings
  | .own settings => pure settings
  | .shared environment => sharedSettings environment

end Action

end OperatorDispatch
