import OperatorDispatch.Proofs.Origins

/-!
# Sealing is permanent

A type definition is sealed no later than its first instance is made, and a
copy of an instance shares the definition, so whatever has a type has a sealed
one.  The registry of a definition is its own from the moment it is opened, and
it refuses replacement for good.  So it can change in two ways: a handler for a
new selector goes to the end of it, or it is sealed.  After the seal it does
not change at all.

The two invariants (`Heap.WellSealed`) hold of every reachable state, and what
becomes of a registry between two such states is read off `Heap.Later`.
-/

namespace OperatorDispatch

/-! ## The invariants -/

/-- What types and their registries have to do with seals and replacement. -/
structure Heap.WellSealed (h : Heap) : Prop where
  /-- What has a type has a sealed one. -/
  tagged : ∀ a i t, h.get? a = some (.inst i) → i.type = some t → h.SealedAt t
  /-- The registry of a type refuses replacement. -/
  growing : ∀ a t, h.get? a = some (.typeDefinition t) →
    ∃ r, h.get? t.registry = some (.registry r) ∧ r.allowReplace = false

/-- What a registry of a type is later on: the same one if it was sealed, and
otherwise one with the same handlers and perhaps more behind them. -/
structure Registry.Extends (r r' : Registry) : Prop where
  frozen : r.isSealed = true → r' = r
  grows : r.handlers.entries <+: r'.handlers.entries

namespace Heap

variable {h h' : Heap} {a : Address}

theorem registry_later (hl : h.Later h') {r : Registry} (hr : h.get? a = some (.registry r)) :
    ∃ r', h'.get? a = some (.registry r') ∧ r'.allowReplace = r.allowReplace ∧
      (r.isSealed = true → r' = r) ∧
      (r.allowReplace = false → r.handlers.entries <+: r'.handlers.entries) := by
  obtain ⟨r', hr', hb⟩ := hl.registryAt? (registryAt?_eq_some.mpr hr)
  cases hb with
  | registry owner allowReplace frozen grows =>
      exact ⟨r', registryAt?_eq_some.mp hr', allowReplace, frozen, grows⟩

/-- A sealed type definition stays sealed. -/
theorem SealedAt.later (hl : h.Later h') (hs : h.SealedAt a) : h'.SealedAt a := by
  obtain ⟨t, r, ht, hr, hsealed⟩ := hs
  obtain ⟨r', hr', -, frozen, -⟩ := registry_later hl hr
  rw [frozen hsealed] at hr'
  have ht' := hl.typeAt? (typeAt?_eq_some.mpr ht)
  exact ⟨t, r, typeAt?_eq_some.mp ht', hr', hsealed⟩

/-- The registry of a type at a later time. -/
theorem WellSealed.extends (hw : h.WellSealed) (hl : h.Later h') {t : TypeDefinition}
    (ht : h.get? a = some (.typeDefinition t)) :
    ∃ r r', h.get? t.registry = some (.registry r) ∧ h'.get? t.registry = some (.registry r') ∧
      r.Extends r' := by
  obtain ⟨r, hr, growing⟩ := hw.growing a t ht
  obtain ⟨r', hr', -, frozen, grows⟩ := registry_later hl hr
  exact ⟨r, r', hr, hr', frozen, grows growing⟩

end Heap

theorem Heap.wellSealed_empty : Heap.empty.WellSealed where
  tagged a i t hi := by cases hi
  growing a t ht := by cases ht

/-! ## Every step keeps them -/

namespace Scope

variable {S : Scope} {h h' : Heap} {s s' : State}

theorem Change.wellSealed (hc : S.Change h h') (hw : h.WellSealed) : h'.WellSealed where
  tagged a i t hi ht := by
    rcases hc.instance_origin hi ht with closed | ⟨b, j, hj, hjt⟩
    · exact closed.later hc.later
    · exact (hw.tagged b j t hj hjt).later hc.later
  growing a t ht := by
    rcases hc.type_origin ht with old | opened
    · obtain ⟨r, hr, growing⟩ := hw.growing a t old
      obtain ⟨r', hr', same, -⟩ := Heap.registry_later hc.later hr
      exact ⟨r', hr', same.trans growing⟩
    · exact opened

theorem Step.wellSealed (hs : S.Step s s') (hw : s.heap.WellSealed) : s'.heap.WellSealed := by
  cases hs with
  | heap change => exact change.wellSealed hw
  | bind | sight | log | takeRows | span | increment | reset | limit | share | operators | number
  | settle => exact hw

end Scope

theorem ReachableWithin.wellSealed {V : Vocabulary} {s : State} (hs : ReachableWithin V s) :
    s.heap.WellSealed := by
  refine invariant (P := fun s => s.heap.WellSealed) ?_ (fun _ _ hstep => hstep.wellSealed) hs
  exact Heap.wellSealed_empty

/-! ## Whole runs -/

/-- Every tagged instance has a sealed type.  A type definition stays what it
is; its registry is frozen by the seal, and before it can only be appended
to. -/
theorem sealing_permanent {s : State} (hs : Reachable s) :
    (∀ a i t, s.heap.instanceAt? a = some i → i.type = some t → s.heap.SealedAt t) ∧
      ∀ s', s.LeadsTo .full s' → ∀ a t, s.heap.typeAt? a = some t →
        s'.heap.typeAt? a = some t ∧ (s.heap.SealedAt a → s'.heap.SealedAt a) ∧
          ∃ r r', s.heap.registryAt? t.registry = some r ∧
            s'.heap.registryAt? t.registry = some r' ∧ r.Extends r' := by
  have hw := hs.wellSealed
  constructor
  · intro a i t hi ht
    exact hw.tagged a i t (Heap.instanceAt?_eq_some.mp hi) ht
  · intro s' hleads a t ht
    have hl := (hs.steps_of_leadsTo hleads).later
    obtain ⟨r, r', hr, hr', grown⟩ := hw.extends hl (Heap.typeAt?_eq_some.mp ht)
    exact ⟨hl.typeAt? ht, fun closed => closed.later hl, r, r',
      Heap.registryAt?_eq_some.mpr hr, Heap.registryAt?_eq_some.mpr hr', grown⟩

/-- An open type with one handler. -/
def opening : Expr :=
  .sequence [
    .assign "Point" (.call (.definition (.openType "Point")) [.literal .null]),
    .call (.definition (.register "add")) [.variable "Point", .handler "plus" (.variable "other")]]

/-- One more handler, then an instance, and then a handler that is refused. -/
def closing : Expr :=
  .sequence [
    .call (.definition (.register "equals"))
      [.variable "Point", .handler "same" (.variable "other")],
    .call (.definition (.instantiate [])) [.variable "Point"],
    .call (.definition (.register "divide"))
      [.variable "Point", .handler "over" (.variable "other")]]

theorem sealing_permanent_point :
    let s := State.after 0 opening
    let s' := Action.finalState (Action.evaluateTop (.own .standard) 0 closing s)
    ∃ r r', s.heap.registryAt? ⟨0⟩ = some r ∧ s'.heap.registryAt? ⟨0⟩ = some r' ∧
      r.handlers.keys = [.add] ∧ r'.handlers.keys = [.add, .equals] ∧ r.Extends r' := by
  intro s s'
  have leads : s.LeadsTo .full s' :=
    .single (.evaluate 0 trivial Scope.knowsFrame_none (Expr.within_full closing))
  obtain ⟨t, ht, hreg⟩ : ∃ t, s.heap.typeAt? ⟨1⟩ = some t ∧ t.registry = ⟨0⟩ := ⟨_, rfl, rfl⟩
  obtain ⟨-, later⟩ := sealing_permanent (reachable_after 0 (Expr.within_full opening))
  obtain ⟨-, -, r, r', hr, hr', grown⟩ := later s' leads ⟨1⟩ t ht
  rw [hreg] at hr hr'
  have first : (s.heap.registryAt? ⟨0⟩).map (·.handlers.keys) = some [.add] := by decide +kernel
  have second : (s'.heap.registryAt? ⟨0⟩).map (·.handlers.keys) = some [.add, .equals] := by
    decide +kernel
  rw [hr] at first
  rw [hr'] at second
  exact ⟨r, r', hr, hr', Option.some.inj first, Option.some.inj second, grown⟩

end OperatorDispatch
