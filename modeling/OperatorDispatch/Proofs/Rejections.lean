import OperatorDispatch.Proofs.Registries

/-!
# Rejected registrations

A registration is checked before it is written down, and writing it down cannot
fail.  An action of this kind is atomic: it succeeds, or it leaves the state as it
was.  Registration with a type is atomic, and so is registration with the registry
that an instance already has.

The first override of an instance is not.  The registry is made before the checks
and stays when they fail: empty and open, but there.
-/

namespace OperatorDispatch

namespace Action

variable {α β : Type} {s s' : State}

/-! ## Atomic actions -/

/-- An action that leaves the state as it is. -/
def Looks (m : Action α) : Prop :=
  ∀ s, finalState (m s) = s

/-- An action that leaves the state as it is unless it succeeds. -/
def Atomic (m : Action α) : Prop :=
  ∀ s e s', m s = .error e s' → s' = s

/-- An action that succeeds. -/
def Succeeds (m : Action α) : Prop :=
  ∀ s, ∃ x s', m s = .ok x s'

theorem Looks.atomic {m : Action α} (hm : Looks m) : Atomic m := by
  intro s e s' failed
  have kept := hm s
  rw [failed] at kept
  exact kept

theorem Succeeds.atomic {m : Action α} (hm : Succeeds m) : Atomic m := by
  intro s e s' failed
  obtain ⟨x, t, succeeded⟩ := hm s
  rw [succeeded] at failed
  cases failed

theorem looks_raise (fault : Fault) : Looks (raise fault : Action α) :=
  fun _ => rfl

theorem looks_demand (fault : Fault) (o : Option α) : Looks (demand fault o) := by
  cases o with
  | none => exact looks_raise fault
  | some x => exact fun _ => rfl

theorem looks_ofExcept (r : Except Fault α) : Looks (ofExcept r) := by
  cases r with
  | error fault => exact looks_raise fault
  | ok x => exact fun _ => rfl

/-- A look first, then an atomic action. -/
theorem Looks.bind {m : Action α} {f : α → Action β} (hm : Looks m) (hf : ∀ x, Atomic (f x)) :
    Atomic (m >>= f) := by
  intro s e s' failed
  have kept := hm s
  cases h : m s with
  | ok x t =>
      rw [h] at kept
      rw [bind_ok h] at failed
      exact (hf x t e s' failed).trans kept
  | error e' t =>
      rw [h] at kept
      rw [bind_error h] at failed
      cases failed
      exact kept

/-- An atomic action first, then what cannot fail any more. -/
theorem Atomic.bind {m : Action α} {f : α → Action β} (hm : Atomic m)
    (hf : ∀ x, Succeeds (f x)) : Atomic (m >>= f) := by
  intro s e s' failed
  cases h : m s with
  | ok x t =>
      obtain ⟨y, u, succeeded⟩ := hf x t
      rw [bind_ok h, succeeded] at failed
      cases failed
  | error e' t =>
      rw [bind_error h] at failed
      cases failed
      exact hm s e s' h

/-! ## Registration -/

/-- All checks come before the write. -/
theorem atomic_addHandler (a : Address) (sel : Selector) (handler : Value) :
    Atomic (addHandler a sel handler) := by
  have checked : Looks (registryAt a) := by
    intro s
    unfold registryAt
    exact looks_demand _ _ s
  refine checked.bind fun r => (looks_ofExcept _).bind fun r' => Succeeds.atomic ?_
  exact fun s => ⟨(), _, rfl⟩

theorem atomic_addNamed (a : Address) (name : String) (handler : Value) :
    Atomic (addNamed a name handler) :=
  (looks_ofExcept _).bind fun sel => atomic_addHandler a sel handler

theorem atomic_register (name : String) (type handler : Value) :
    Atomic (definition (.register name) [type, handler]) := by
  have found : Looks (typeOf type) := by
    intro s
    unfold typeOf
    exact looks_demand _ _ s
  refine found.bind fun d => (atomic_addNamed d.2.registry name handler).bind ?_
  exact fun _ s => ⟨.null, s, rfl⟩

end Action

/-! ## Overrides -/

namespace Heap

/-- The value is an instance that has no registry of its own. -/
def Bare (h : Heap) (v : Value) (a : Address) (i : Instance) : Prop :=
  h.instanceOf? v = some (a, i) ∧ i.registry = none

end Heap

namespace Registry

/-- What an empty registry does not take. -/
def Unfit (name : String) (handler : Value) : Prop :=
  (∃ fault, findSelector name = .error fault) ∨ handler.function? = none ∨
    findSelector name = .ok .strictEquals

theorem add_fresh_eq_error_iff (owner : String) (allowReplace : Bool) (sel : Selector)
    (handler : Value) :
    (∃ fault, (fresh owner allowReplace).add sel handler = .error fault) ↔
      handler.function? = none ∨ sel = .strictEquals := by
  cases hf : handler.function? with
  | none => simp [add, fresh, hf]
  | some f =>
      by_cases hsel : sel = .strictEquals
      · simp [add, fresh, hf, hsel, OrderedMap.contains, OrderedMap.get?, OrderedMap.empty,
          Entries.find?]
      · simp [add, fresh, hf, hsel, OrderedMap.contains, OrderedMap.get?, OrderedMap.empty,
          Entries.find?]

end Registry

namespace Action

variable {s s' : State} {a : Address} {i : Instance} {name : String} {v handler : Value}
  {e : Interruption}

theorem override_refused (missing : s.heap.instanceOf? v = none) :
    definition (.override name) [v, handler] s =
      .error (.raised (.notAttachable (s.heap.kindName v))) s := by
  have refused : overrideHandler v name handler s =
      .error (.raised (.notAttachable (s.heap.kindName v))) s := by
    rw [overrideHandler, bind_ok (m := heap) rfl, missing]
    rfl
  exact bind_error refused

/-- A later override: the registry is there. -/
theorem override_owned {r : Address} (found : s.heap.instanceOf? v = some (a, i))
    (own : i.registry = some r) :
    definition (.override name) [v, handler] s =
      (do addNamed r name handler; return .null : Action Value) s := by
  have kept : ownRegistry a i s = .ok r s := by
    rw [ownRegistry, own]
    rfl
  have same : overrideHandler v name handler s = addNamed r name handler s := by
    rw [overrideHandler, bind_ok (m := heap) rfl, found]
    exact bind_ok kept
  rw [definition]
  simp only [bind, EStateM.bind, same]

/-- An override of what is no instance, or has a registry, is atomic. -/
theorem override_atomic (there : ∀ a i, ¬ s.heap.Bare v a i)
    (failed : definition (.override name) [v, handler] s = .error e s') : s' = s := by
  cases found : s.heap.instanceOf? v with
  | none =>
      rw [override_refused found] at failed
      cases failed
      rfl
  | some x =>
      obtain ⟨a, i⟩ := x
      cases own : i.registry with
      | none => exact absurd ⟨found, own⟩ (there a i)
      | some r =>
          rw [override_owned found own] at failed
          have atomic : Atomic (do addNamed r name handler; return .null : Action Value) :=
            (atomic_addNamed r name handler).bind fun _ s => ⟨.null, s, rfl⟩
          exact atomic s e s' failed

/-- The first override: the registry is there before the handler is looked at. -/
theorem override_bare (bare : s.heap.Bare v a i) :
    definition (.override name) [v, handler] s =
      (do addNamed ⟨s.heap.size⟩ name handler; return .null : Action Value)
        { s with heap := s.heap.withOwnRegistry a i } := by
  have made : ownRegistry a i s =
      .ok ⟨s.heap.size⟩ { s with heap := s.heap.withOwnRegistry a i } := by
    rw [ownRegistry, bare.2]
    rfl
  have same : overrideHandler v name handler s =
      addNamed ⟨s.heap.size⟩ name handler { s with heap := s.heap.withOwnRegistry a i } := by
    rw [overrideHandler, bind_ok (m := heap) rfl, bare.1]
    exact bind_ok made
  rw [definition]
  simp only [bind, EStateM.bind, same]

/-- It is refused where the name, the handler or the guard on strict equality
says so, since the registry is empty. -/
theorem override_bare_fails_iff (bare : s.heap.Bare v a i) :
    (∃ e s', definition (.override name) [v, handler] s = .error e s') ↔
      Registry.Unfit name handler := by
  obtain ⟨-, hi⟩ := Heap.instanceOf?_eq_some.mp bare.1
  let owner := "instance of '" ++ s.heap.typeNameOf i ++ "'"
  -- of the state that the checks start from, only the empty registry matters
  obtain ⟨t, started⟩ : ∃ t : State, t = { s with heap := s.heap.withOwnRegistry a i } := ⟨_, rfl⟩
  have there : t.heap.registryAt? ⟨s.heap.size⟩ = some (.fresh owner true) := by
    rw [started]
    exact Heap.registryAt?_eq_some.mpr (Heap.get?_withOwnRegistry_new hi)
  rw [override_bare bare, ← started]
  cases hsel : findSelector name with
  | error fault =>
      exact iff_of_true ⟨_, _, bind_error (addNamed_unknown hsel _ _ t)⟩ (.inl ⟨fault, hsel⟩)
  | ok sel =>
      have named := addNamed_found hsel ⟨s.heap.size⟩ handler t
      have fit : Registry.Unfit name handler ↔ handler.function? = none ∨ sel = .strictEquals := by
        simp [Registry.Unfit, hsel]
      rw [fit, ← Registry.add_fresh_eq_error_iff owner true sel handler]
      cases added : (Registry.fresh owner true).add sel handler with
      | error fault =>
          exact iff_of_true ⟨_, _, bind_error (named.trans (addHandler_error there added))⟩
            ⟨fault, rfl⟩
      | ok r' =>
          refine iff_of_false ?_ ?_
          · rintro ⟨e, t', failed⟩
            cases (bind_ok (named.trans (addHandler_ok there added))).symm.trans failed
          · rintro ⟨fault, ⟨⟩⟩

end Action

/-! ## What rejections leave -/

/-- What becomes of a state in which a registration is rejected. -/
structure State.Withstands (s : State) : Prop where
  /-- Nothing, where the handler was for a type definition, or for what was taken
  for one. -/
  register : ∀ name type handler e s',
    Action.definition (.register name) [type, handler] s = .error e s' → s' = s
  /-- Nothing, where the handler was for an instance with a registry, or for
  what is no instance. -/
  override : ∀ name v handler e s', (∀ a i, ¬ s.heap.Bare v a i) →
    Action.definition (.override name) [v, handler] s = .error e s' → s' = s
  /-- Where an instance had no registry it has one now, and nothing else has
  changed. -/
  first : ∀ name v handler e s' a i, s.heap.Bare v a i →
    Action.definition (.override name) [v, handler] s = .error e s' →
      s' = { s with heap := s.heap.withOwnRegistry a i }
  /-- Such a registry has no handler, so all three checks that an empty registry
  makes can leave it behind. -/
  rejects : ∀ name v handler a i, s.heap.Bare v a i →
    ((∃ e s', Action.definition (.override name) [v, handler] s = .error e s') ↔
      Registry.Unfit name handler)

namespace Action

/-- A rejected registration leaves the state as it was, but for the registry of
an instance that had none: it is made before anything is checked. -/
theorem rejected_registration (s : State) : s.Withstands where
  register := fun name type handler => atomic_register name type handler s
  override := fun _ _ _ _ _ there failed => override_atomic there failed
  first := by
    intro name v handler e s' a i bare failed
    rw [override_bare bare] at failed
    have atomic : Atomic (do addNamed ⟨s.heap.size⟩ name handler; return .null : Action Value) :=
      (atomic_addNamed _ _ _).bind fun _ s => ⟨.null, s, rfl⟩
    exact atomic _ e s' failed
  rejects := fun _ _ _ _ _ bare => override_bare_fails_iff bare

/-- A bare record. -/
def blank : Expr :=
  .call (.definition (.record [])) []

/-- A record without a registry has one after an override under an unknown
selector. -/
theorem rejected_override_seen :
    ∃ s' i j, (State.after 0 blank).heap.get? ⟨0⟩ = some (.inst i) ∧ i.registry = none ∧
      definition (.override "concatenate") [.object ⟨0⟩, .null] (.after 0 blank) =
        .error (.raised (.unknownSelector "concatenate")) s' ∧
      s'.heap.get? ⟨0⟩ = some (.inst j) ∧ j.registry = some ⟨1⟩ :=
  ⟨_, _, _, rfl, rfl, rfl, rfl, rfl⟩

end Action

end OperatorDispatch
