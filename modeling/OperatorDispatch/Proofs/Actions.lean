import Mathlib.Logic.Relation
import OperatorDispatch.State

/-!
# Runs of actions

An action run from a state either gives a result or is interrupted, and both
ways it leaves a state.  `Runs R s m Q` says that from `s` the action `m` goes
only through steps of `R`, and that a result it gives stands in the relation
`Q` to the state it leaves.

The rules follow the shape of the code: one for each way of touching a state,
one for sequencing.  A spec lemma for a function of the engine is put together
from the rules of the functions it calls, and its callers use it without
looking inside.
-/

namespace OperatorDispatch
namespace Action

variable {α β : Type} {s s' : State}

/-! ## Sequencing, by equations -/

theorem bind_ok {m : Action α} {f : α → Action β} {x : α} (hm : m s = .ok x s') :
    (m >>= f) s = f x s' := by
  simp only [bind, EStateM.bind, hm]

theorem bind_error {m : Action α} {f : α → Action β} {e : Interruption} (hm : m s = .error e s') :
    (m >>= f) s = .error e s' := by
  simp only [bind, EStateM.bind, hm]

/-- A sequence that gives a result has gone through both of its parts. -/
theorem bind_eq_ok {m : Action α} {f : α → Action β} {y : β} (h : (m >>= f) s = .ok y s') :
    ∃ x t, m s = .ok x t ∧ f x t = .ok y s' := by
  cases hm : m s with
  | ok x t => exact ⟨x, t, rfl, (bind_ok hm).symm.trans h⟩
  | error e t => cases (bind_error hm).symm.trans h

theorem map_ok {m : Action α} {f : α → β} {x : α} (hm : m s = .ok x s') :
    (f <$> m) s = .ok (f x) s' := by
  simp only [Functor.map, EStateM.map, hm]

theorem demand_some (fault : Fault) (x : α) (s : State) :
    demand fault (some x) s = .ok x s :=
  rfl

theorem demand_eq_ok {fault : Fault} {o : Option α} {x : α}
    (h : demand fault o s = .ok x s') : o = some x ∧ s' = s := by
  cases o with
  | none => cases h
  | some y =>
      cases h
      exact ⟨rfl, rfl⟩

theorem ofExcept_eq_ok {r : Except Fault α} {x : α}
    (h : ofExcept r s = .ok x s') : r = .ok x ∧ s' = s := by
  cases r with
  | error fault => cases h
  | ok y =>
      cases h
      exact ⟨rfl, rfl⟩

/-- The state that a run leaves. -/
def finalState : EStateM.Result Interruption State α → State
  | .ok _ s | .error _ s => s

/-! ## Runs -/

/-- What was reached from `s` was reached through steps of `R` only, and a
result stands in the relation `Q` to the state that came with it. -/
def Reached (R : State → State → Prop) (s : State) (Q : α → State → Prop) :
    EStateM.Result Interruption State α → Prop
  | .ok x s' => Relation.ReflTransGen R s s' ∧ Q x s'
  | .error _ s' => Relation.ReflTransGen R s s'

/-- From `s` the action goes through steps of `R` only, and its result stands
in the relation `Q` to the state that it leaves. -/
def Runs (R : State → State → Prop) (s : State) (m : Action α) (Q : α → State → Prop) : Prop :=
  Reached R s Q (m s)

variable {R : State → State → Prop} {Q : α → State → Prop} {P : β → State → Prop}

theorem Runs.steps {m : Action α} (h : Runs R s m Q) :
    Relation.ReflTransGen R s (finalState (m s)) := by
  unfold Runs Reached at h
  unfold finalState
  split at h <;> simp_all

theorem Runs.result {m : Action α} {x : α} (h : Runs R s m Q) (hm : m s = .ok x s') : Q x s' := by
  simp only [Runs, Reached, hm] at h
  exact h.2

/-- Where an action gives a result, the state with it was reached by steps. -/
theorem Runs.reached {m : Action α} {x : α} (h : Runs R s m Q) (hm : m s = .ok x s') :
    Relation.ReflTransGen R s s' ∧ Q x s' := by
  unfold Runs at h
  rwa [hm] at h

/-- A result may be assumed to be the one that the action gives. -/
theorem Runs.ending {m : Action α} (h : Runs R s m Q) :
    Runs R s m fun x s' => Q x s' ∧ m s = .ok x s' := by
  unfold Runs Reached at h ⊢
  split <;> simp_all

theorem Runs.mono {m : Action α} {Q' : α → State → Prop} (h : Runs R s m Q)
    (hQ : ∀ x s', Relation.ReflTransGen R s s' → Q x s' → Q' x s') : Runs R s m Q' := by
  unfold Runs Reached at h ⊢
  split
  · simp_all
  · simp_all

/-- Any run, where neither its steps nor its result matter. -/
theorem runs_any {m : Action α} : Runs (fun _ _ => True) s m fun _ _ => True := by
  unfold Runs Reached
  split
  · exact ⟨.single trivial, trivial⟩
  · exact .single trivial

theorem runs_pure {x : α} (h : Q x s) : Runs R s (pure x) Q :=
  ⟨.refl, h⟩

theorem runs_raise {fault : Fault} : Runs R s (raise fault) Q :=
  Relation.ReflTransGen.refl

theorem runs_throw {e : Interruption} : Runs R s (throw e) Q :=
  Relation.ReflTransGen.refl

theorem runs_bind {m : Action β} {f : β → Action α} (hm : Runs R s m P)
    (hf : ∀ x s', Relation.ReflTransGen R s s' → P x s' → Runs R s' (f x) Q) :
    Runs R s (m >>= f) Q := by
  unfold Runs at hm
  cases h : m s with
  | ok x s' =>
      rw [h] at hm
      have hf := hf x s' hm.1 hm.2
      unfold Runs at hf ⊢
      rw [bind_ok h]
      cases hn : f x s' with
      | ok y s'' =>
          rw [hn] at hf
          exact ⟨hm.1.trans hf.1, hf.2⟩
      | error e s'' =>
          rw [hn] at hf
          exact hm.1.trans hf
  | error e s' =>
      rw [h] at hm
      unfold Runs
      rw [bind_error h]
      exact hm

/-- A single step whose result is known. -/
theorem runs_step {t : State} {m : Action α} {x : α} (hm : m s = .ok x t) (hR : R s t)
    (hQ : Q x t) : Runs R s m Q := by
  unfold Runs
  rw [hm]
  exact ⟨.single hR, hQ⟩

theorem runs_raise_bind {fault : Fault} {f : β → Action α} : Runs R s (raise fault >>= f) Q :=
  Relation.ReflTransGen.refl

/-- An action may be replaced by one that does the same from this state. -/
theorem runs_bind_congr (m' : Action β) {m : Action β} {f : β → Action α} (hm : m s = m' s)
    (h : Runs R s (m' >>= f) Q) : Runs R s (m >>= f) Q := by
  have same : (m >>= f) s = (m' >>= f) s := by simp only [bind, EStateM.bind, hm]
  unfold Runs at h ⊢
  rwa [same]

/-- What follows a single step runs from the state after it. -/
theorem runs_step_bind {t : State} {m : Action β} {f : β → Action α} {x : β} (hm : m s = .ok x t)
    (hR : R s t) (hf : Runs R t (f x) Q) : Runs R s (m >>= f) Q := by
  have step : Runs R s m fun y s' => y = x ∧ s' = t := runs_step hm hR ⟨rfl, rfl⟩
  refine runs_bind step ?_
  rintro y s' - ⟨rfl, rfl⟩
  exact hf

/-! ## Reading a state

These actions leave the state as it is, so what follows runs from the same
state. -/

theorem runs_heap_bind {f : Heap → Action α} (h : Runs R s (f s.heap) Q) :
    Runs R s (heap >>= f) Q :=
  h

theorem runs_get_bind {f : State → Action α} (h : Runs R s (f s) Q) :
    Runs R s (get >>= f) Q :=
  h

theorem runs_demand_bind {fault : Fault} {o : Option β} {f : β → Action α}
    (h : ∀ x, o = some x → Runs R s (f x) Q) : Runs R s (demand fault o >>= f) Q := by
  cases o with
  | none => exact runs_raise
  | some x => exact h x rfl

theorem runs_demand {fault : Fault} {o : Option α} (h : ∀ x, o = some x → Q x s) :
    Runs R s (demand fault o) Q := by
  cases o with
  | none => exact runs_raise
  | some x => exact runs_pure (h x rfl)

theorem runs_ofExcept_bind {r : Except Fault β} {f : β → Action α}
    (h : ∀ x, r = .ok x → Runs R s (f x) Q) : Runs R s (ofExcept r >>= f) Q := by
  cases r with
  | error fault => exact runs_raise
  | ok x => exact h x rfl

end Action
end OperatorDispatch
