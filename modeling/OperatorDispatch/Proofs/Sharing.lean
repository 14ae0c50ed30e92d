import OperatorDispatch.Engine
import OperatorDispatch.Proofs.Actions

/-!
# Shared settings

How the limit of the ledger changes, and how shared settings are adopted together
with their limit.  A limit is looked at before anything is written, so where it is
refused the state is left as it was, and shared settings that were not there before
are read anew the next time.
-/

namespace OperatorDispatch

/-- The state with shared settings adopted together with their limit. -/
def State.adopt (s : State) (settings : Settings) (limit : Nat) : State :=
  { s with ledger := s.ledger.withLimit limit, shared := some settings }

/-! ## Limits -/

theorem checkLimit_eq_ok_iff {n : Int} {limit : Nat} :
    checkLimit n = .ok limit ↔ 1 ≤ n ∧ n ≤ largestLimit ∧ (limit : Int) = n := by
  unfold checkLimit
  split
  · simp only [reduceCtorEq, false_iff]
    omega
  · split
    · simp only [reduceCtorEq, false_iff]
      omega
    · simp only [Except.ok.injEq]
      omega

theorem checkLimit_eq_error_iff {n : Int} {fault : Fault} :
    checkLimit n = .error fault ↔
      n < 1 ∧ fault = .limitNotPositive ∨ largestLimit < n ∧ fault = .limitTooLarge := by
  have positive : (1 : Int) ≤ largestLimit := by decide
  unfold checkLimit
  split
  · simp only [Except.error.injEq]
    grind
  · split
    · simp only [Except.error.injEq]
      grind
    · simp only [reduceCtorEq, false_iff]
      grind

namespace Action

variable {s : State} {n : Int} {limit : Nat} {fault : Fault} {settings : Settings}
  {environment : Environment}

theorem setLimit_ok (h : checkLimit n = .ok limit) (s : State) :
    setLimit n s = .ok () { s with ledger := s.ledger.withLimit limit } := by
  rw [setLimit, h]
  rfl

theorem setLimit_error (h : checkLimit n = .error fault) (s : State) :
    setLimit n s = .error (.raised fault) s := by
  rw [setLimit, h]
  rfl

/-! ## Adopting settings -/

theorem configure_ok (h : checkLimit settings.ledgerLimit = .ok limit) (s : State) :
    configure settings s = .ok () (s.adopt settings limit) := by
  rw [configure, bind_ok (setLimit_ok h s)]
  rfl

theorem configure_error (h : checkLimit settings.ledgerLimit = .error fault) (s : State) :
    configure settings s = .error (.raised fault) s :=
  bind_error (setLimit_error h s)

theorem sharedSettings_some (h : s.shared = some settings) :
    sharedSettings environment s = .ok settings s := by
  have read : (get : Action State) s = .ok s s := rfl
  rw [sharedSettings, bind_ok read, h]
  rfl

theorem sharedSettings_unread (h : s.shared = none)
    (unread : Settings.ofEnvironment environment = .error fault) :
    sharedSettings environment s = .error (.raised fault) s := by
  have read : (get : Action State) s = .ok s s := rfl
  rw [sharedSettings, bind_ok read, h, unread]
  rfl

/-- Settings that are read are adopted or refused like any others. -/
theorem sharedSettings_read (h : s.shared = none)
    (read : Settings.ofEnvironment environment = .ok settings) :
    sharedSettings environment s =
      (do configure settings; return settings : Action Settings) s := by
  have got : (get : Action State) s = .ok s s := rfl
  rw [sharedSettings, bind_ok got, h, read]
  rfl

end Action
end OperatorDispatch
