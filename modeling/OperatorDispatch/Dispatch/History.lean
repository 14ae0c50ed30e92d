import OperatorDispatch.Dispatch.Decision
import OperatorDispatch.Settings

/-!
# The history of dispatches

Every dispatch leaves a record when it is over, so a dispatch made by a
handler comes before the one that called the handler.
-/

namespace OperatorDispatch

/-- How a dispatch ended. -/
inductive DispatchEnding where
  | returned (outcome : Outcome)
  | raised (fault : Fault)
  | aborted
deriving DecidableEq

/-- The outcome that a dispatch is counted under; none for an aborted one. -/
def DispatchEnding.outcome? : DispatchEnding → Option Outcome
  | .returned outcome => some outcome
  | .raised _ => some .error
  | .aborted => none

/-- A dispatch that is over, with the settings that it was made under. -/
structure DispatchRecord where
  settings : Settings
  application : Application
  decision : Decision
  ending : DispatchEnding

end OperatorDispatch
