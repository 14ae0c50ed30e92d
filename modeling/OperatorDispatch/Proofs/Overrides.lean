import OperatorDispatch.Proofs.Registries

/-!
# Handlers of an instance's own

An instance is given a registry of its own with its first override, and a copy
of an instance has a copy of it.  This registry allows replacement, unlike that
of any type, so the two are never one and the same.

Hence there is one way to change what an instance has of its own: a handler is
registered with its own registry (`Scope.Change.ownHandler`).  In particular
nothing that is registered with a type does it.
-/

namespace OperatorDispatch

namespace Heap

variable {h h' : Heap} {a : Address} {i i' : Instance} {sel : Selector}

/-- The handler that an instance has itself, its type apart. -/
def ownHandler (h : Heap) (a : Address) (sel : Selector) : Option Function :=
  (h.instanceAt? a).bind fun i => i.registry.bind (h.handlerAt sel)

theorem ownHandler_eq (hi : h.get? a = some (.inst i)) :
    h.ownHandler a sel = i.registry.bind (h.handlerAt sel) := by
  rw [ownHandler, instanceAt?_eq_some.mpr hi, Option.bind_some]

theorem handlerAt_of_registry {r : Registry} (hr : h.get? a = some (.registry r)) :
    h.handlerAt sel a = r.handlers.get? sel := by
  rw [handlerAt, registryAt?_eq_some.mpr hr, Option.bind_some]

theorem handlerAt_congr (same : h'.get? a = h.get? a) :
    h'.handlerAt sel a = h.handlerAt sel a := by
  simp only [handlerAt, registryAt?, same]

/-- The same registry with the same handler in it. -/
theorem ownHandler_congr (hi : h.get? a = some (.inst i)) (hi' : h'.get? a = some (.inst i'))
    (link : i'.registry = i.registry)
    (same : ∀ b, i.registry = some b → h'.handlerAt sel b = h.handlerAt sel b) :
    h'.ownHandler a sel = h.ownHandler a sel := by
  rw [ownHandler_eq hi, ownHandler_eq hi', link]
  cases hb : i.registry with
  | none => rfl
  | some b => exact same b hb

end Heap

namespace Scope

variable {V : Vocabulary} {h h' : Heap} {a : Address} {i : Instance}

/-- The link from an instance to its own registry is good. -/
theorem Covers.ownRegistry (hc : (whole V).Covers h) (hi : h.get? a = some (.inst i))
    {b : Address} (hb : i.registry = some b) : ∃ r, h.get? b = some (.registry r) := by
  obtain ⟨-, r, hr⟩ := (hc.object a _ trivial hi).2.2 b hb
  exact ⟨r, Heap.registryAt?_eq_some.mp hr⟩

/-! ## What changes them -/

/-- An instance has what it had of its own as long as the instance and its
registry stay as they are. -/
theorem Covers.ownHandler_of_unchanged (hc : (whole V).Covers h)
    (hi : h.get? a = some (.inst i)) (sel : Selector)
    (old : ∀ c o, h.get? c = some o → o.isContainer = false →
      c = a ∨ i.registry = some c → h'.get? c = some o) :
    h'.ownHandler a sel = h.ownHandler a sel := by
  refine Heap.ownHandler_congr hi (old a _ hi rfl (.inl rfl)) rfl fun b hb => ?_
  obtain ⟨r, hr⟩ := hc.ownRegistry hi hb
  exact Heap.handlerAt_congr ((old b _ hr rfl (.inr hb)).trans hr.symm)

/-- What an instance has of its own changes only by a registration with its
own registry. -/
theorem Change.ownHandler (hs : (whole V).Change h h') (hc : (whole V).Covers h)
    (hi : h.get? a = some (.inst i)) (sel : Selector) :
    h'.ownHandler a sel = h.ownHandler a sel ∨
      ∃ b r r' handler, i.registry = some b ∧ h.get? b = some (.registry r) ∧
        r.add sel handler = .ok r' ∧ h' = h.update b (.registry r') := by
  have keep := @Covers.ownHandler_of_unchanged V h h' a i hc hi sel
  cases hs with
  | newContainer | newRegistry | copyRegistry | instantiate | newRecord =>
      refine .inl (keep fun c o ho _ _ => ?_)
      rw [Heap.get?_allocate_of_lt _ (Heap.lt_size_of_get? ho), ho]
  | openType name =>
      refine .inl (keep fun c o ho _ _ => ?_)
      have hlt := Heap.lt_size_of_get? ho
      rw [Heap.withType, Heap.get?_allocate_of_lt _ (by simp; omega),
        Heap.get?_allocate_of_lt _ hlt, ho]
  | snapshot =>
      refine .inl (keep fun c o ho _ _ => ?_)
      rw [Heap.get?_takeSnapshot_of_lt (Heap.lt_size_of_get? ho), ho]
  | @setCell d _ _ _ there | @setList d _ _ _ there | @setDict d _ _ _ there =>
      refine .inl (keep fun c o ho container _ => ?_)
      have hcd : c ≠ d := by
        rintro rfl
        cases ho.symm.trans there
        cases container
      rw [Heap.get?_update_of_ne _ hcd, ho]
  | @setFields d j _ _ there =>
      refine .inl ?_
      by_cases hda : d = a
      · subst hda
        cases hi.symm.trans there
        refine Heap.ownHandler_congr hi (Heap.get?_update_self hi) rfl fun b hb => ?_
        obtain ⟨r, hr⟩ := hc.ownRegistry hi hb
        refine Heap.handlerAt_congr (Heap.get?_update_of_ne _ ?_)
        rintro rfl
        cases hr.symm.trans hi
      · refine keep fun c o ho _ which => ?_
        rw [Heap.get?_update_of_ne _ ?_, ho]
        rintro rfl
        rcases which with same | own
        · exact hda same
        · obtain ⟨r, hr⟩ := hc.ownRegistry hi own
          cases hr.symm.trans there
  | @addHandler d r r' sel' handler _ there _ added =>
      by_cases own : i.registry = some d
      · by_cases hsel : sel' = sel
        · subst hsel
          exact .inr ⟨d, r, r', handler, own, there, added, rfl⟩
        · -- the handler goes under another selector
          have hda : a ≠ d := by
            rintro rfl
            cases hi.symm.trans there
          have hi' := (Heap.get?_update_of_ne (.registry r') hda).trans hi
          refine .inl (Heap.ownHandler_congr hi hi' rfl fun b hb => ?_)
          cases own.symm.trans hb
          obtain ⟨f, -, -, -, -, rfl⟩ := Registry.add_eq_ok added
          rw [Heap.handlerAt_of_registry (Heap.get?_update_self there),
            Heap.handlerAt_of_registry there, OrderedMap.get?_insert, if_neg hsel]
      · refine .inl (keep fun c o ho _ which => ?_)
        rw [Heap.get?_update_of_ne _ ?_, ho]
        rintro rfl
        rcases which with rfl | same
        · cases hi.symm.trans there
        · exact own same
  | @sealRegistry d r _ there =>
      have hda : a ≠ d := by
        rintro rfl
        cases hi.symm.trans there
      refine .inl (Heap.ownHandler_congr hi ((Heap.get?_update_of_ne _ hda).trans hi) rfl ?_)
      intro b _
      by_cases hbd : b = d
      · subst hbd
        rw [Heap.handlerAt_of_registry (Heap.get?_update_self there),
          Heap.handlerAt_of_registry there]
      · exact Heap.handlerAt_congr (Heap.get?_update_of_ne _ hbd)
  | @ownRegistry d j _ there bare =>
      refine .inl ?_
      by_cases hda : d = a
      · -- it has nothing of its own before, and an empty registry then
        subst hda
        cases hi.symm.trans there
        rw [Heap.ownHandler_eq hi, Heap.ownHandler_eq (Heap.get?_withOwnRegistry_self hi), bare]
        exact Heap.handlerAt_of_registry (Heap.get?_withOwnRegistry_new hi)
      · refine keep fun c o ho _ which => ?_
        rw [Heap.get?_withOwnRegistry_of_ne (Heap.lt_size_of_get? ho) ?_, ho]
        rintro rfl
        rcases which with same | own
        · exact hda same
        · obtain ⟨r, hr⟩ := hc.ownRegistry hi own
          cases hr.symm.trans there

/-! ## No registry of a type -/

end Scope

/-- Registries of instances allow replacement. -/
def Heap.OwnReplaceable (h : Heap) : Prop :=
  ∀ a i r, h.get? a = some (.inst i) → h.overrides i = some r → r.allowReplace = true

namespace Scope

variable {V : Vocabulary} {h h' : Heap} {a : Address} {i : Instance}

/-- The registry of an instance on a changed heap is a new one that allows
replacement, or goes back to the registry of an instance that was there. -/
theorem Change.overrides_origin (hs : (whole V).Change h h') (hc : (whole V).Covers h)
    {r' : Registry} (hi : h'.get? a = some (.inst i)) (hr' : h'.overrides i = some r') :
    r'.allowReplace = true ∨
      ∃ b j r, h.get? b = some (.inst j) ∧ h.overrides j = some r ∧
        r'.allowReplace = r.allowReplace := by
  have linked : ∀ {b : Address} {j : Instance}, h.get? b = some (.inst j) →
      i.registry = j.registry →
      ∃ b j r, h.get? b = some (.inst j) ∧ h.overrides j = some r ∧
        r'.allowReplace = r.allowReplace := by
    intro b j hj link
    obtain ⟨c, hc', hr'⟩ := Option.bind_eq_some_iff.mp hr'
    obtain ⟨r, hr⟩ := hc.ownRegistry hj (link ▸ hc')
    obtain ⟨r'', hr'', hb⟩ := hs.later.registryAt? (Heap.registryAt?_eq_some.mpr hr)
    cases hr''.symm.trans hr'
    cases hb with
    | registry _ allowReplace =>
        refine ⟨b, j, r, hj, ?_, allowReplace⟩
        rw [Heap.overrides, ← link, hc', Option.bind_some, Heap.registryAt?_eq_some.mpr hr]
  have bare : i.registry ≠ none := by
    intro hnone
    simp [Heap.overrides, hnone] at hr'
  cases hs with
  | @newContainer o container =>
      rcases Heap.get?_allocate_cases hi with rfl | hi
      · cases container
      · exact .inr (linked hi rfl)
  | newRegistry | copyRegistry =>
      rcases Heap.get?_allocate_cases hi with same | hi
      · cases same
      · exact .inr (linked hi rfl)
  | openType name =>
      rcases Heap.get?_withType_cases hi with same | same | hi
      · cases same
      · cases same
      · exact .inr (linked hi rfl)
  | instantiate | newRecord =>
      rcases Heap.get?_allocate_cases hi with same | hi
      · cases same
        exact absurd rfl bare
      · exact .inr (linked hi rfl)
  | @snapshot c j known there =>
      by_cases hlt : a.index < h.size
      · exact .inr (linked ((Heap.get?_takeSnapshot_of_lt hlt).symm.trans hi) rfl)
      · have admitted := hc.object c _ known there
        rcases Heap.exists_of_get?_takeSnapshot (Nat.le_of_not_lt hlt) hi with
          ⟨b, hb, q, hq, same⟩ | ⟨b, r, hb, same⟩ | ⟨registry, rfl, same, -⟩
        · obtain ⟨k, rfl, -⟩ := Heap.rename_eq_inst same.symm
          have copied := (Heap.image_takeSnapshot hc admitted).overrides (.inl hb) hq
          cases same
          exact .inr ⟨b, k, r', hq, copied.symm.trans hr', rfl⟩
        · cases same
        · have links : ∀ b, j.registry = some b → ∃ r, h.registryAt? b = some r :=
            fun b hb => (admitted.2.2 b hb).2
          have copied := Heap.registryAt?_takeSnapshot links (hi.trans (congrArg some same))
          cases same
          rw [Heap.overrides, copied] at hr'
          obtain ⟨r, hr, rfl⟩ := Option.map_eq_some_iff.mp hr'
          exact .inr ⟨c, j, r, there, hr, rfl⟩
  | setCell | setList | setDict | addHandler | sealRegistry =>
      rcases Heap.get?_update_cases hi with same | hi
      · cases same
      · exact .inr (linked hi rfl)
  | setFields writable there =>
      rcases Heap.get?_update_cases hi with same | hi
      · cases same
        exact .inr (linked there rfl)
      · exact .inr (linked hi rfl)
  | @ownRegistry c j writable there =>
      rcases Heap.get?_withOwnRegistry_cases hi with same | same | hi
      · cases same
        refine .inl ?_
        have new := Heap.registryAt?_eq_some.mpr (Heap.get?_withOwnRegistry_new there)
        rw [Heap.overrides, Option.bind_some, new] at hr'
        cases hr'
        rfl
      · cases same
      · exact .inr (linked hi rfl)

theorem Step.ownReplaceable {s s' : State} (hs : (whole V).Step s s')
    (hc : (whole V).Covers s.heap) (hr : s.heap.OwnReplaceable) : s'.heap.OwnReplaceable := by
  cases hs with
  | heap change =>
      intro a i r' hi hr'
      rcases change.overrides_origin hc hi hr' with replaceable | ⟨b, j, r, hj, hown, same⟩
      · exact replaceable
      · exact same.trans (hr b j r hj hown)
  | bind | sight | log | takeRows | span | increment | reset | limit | share | operators | number
  | settle => exact hr

end Scope

namespace ReachableWithin

variable {V : Vocabulary} {s : State} {a : Address} {i : Instance}

theorem ownReplaceable (hs : ReachableWithin V s) : s.heap.OwnReplaceable := by
  refine (invariant (P := fun s => (Scope.whole V).Confines s ∧ s.heap.OwnReplaceable) ?_ ?_ hs).2
  · exact ⟨Scope.confines_initial, fun _ _ _ hi => by cases hi⟩
  · rintro s s' hstep ⟨hc, hr⟩
    exact ⟨hstep.confines hc, hstep.ownReplaceable hc.heap hr⟩

/-- What an instance has of its own is not touched by a write to a registry
that refuses replacement. -/
theorem ownHandler_update_registry (hs : ReachableWithin V s)
    (hi : s.heap.get? a = some (.inst i)) {b : Address} {r r' : Registry}
    (hr : s.heap.get? b = some (.registry r)) (refuses : r.allowReplace = false)
    (sel : Selector) :
    (s.heap.update b (.registry r')).ownHandler a sel = s.heap.ownHandler a sel := by
  refine hs.confines.heap.ownHandler_of_unchanged hi sel fun c o ho _ which => ?_
  rw [Heap.get?_update_of_ne _ ?_, ho]
  rintro rfl
  rcases which with rfl | own
  · cases hr.symm.trans hi
  · have there : s.heap.overrides i = some r := by
      rw [Heap.overrides, own, Option.bind_some, Heap.registryAt?_eq_some.mpr hr]
    simp [hs.ownReplaceable a i r hi there] at refuses

end ReachableWithin

end OperatorDispatch
