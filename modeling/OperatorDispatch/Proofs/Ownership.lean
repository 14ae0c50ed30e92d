import OperatorDispatch.Proofs.Overrides

/-!
# Whose a registry is

An instance is linked to its own registry, and nothing ever links two instances
to the same one: a registry is made for the instance that is given it, and a
copy of an instance has a copy of it.  The second is where it could go wrong.
A snapshot clones many instances at once and renames their links, and the
clones have registries of their own because the renaming keeps different
addresses apart.

So what is registered with the registry of one instance reaches that instance
and no other, however the two have come to hold the same handlers.
-/

namespace OperatorDispatch

namespace Heap

/-- The registry at `r` is the own one of the instance at `a`. -/
def Owns (h : Heap) (a r : Address) : Prop :=
  ∃ i, h.get? a = some (.inst i) ∧ i.registry = some r

/-- No two instances have one registry. -/
def Unshared (h : Heap) : Prop :=
  ∀ a b r, h.Owns a r → h.Owns b r → a = b

variable {h h' : Heap} {a r : Address} {i : Instance}

/-! ## Owners on a changed heap -/

theorem Owns.of_allocate {o : Object} (ho : (h.allocate o).2.Owns a r) :
    h.Owns a r ∨ a = ⟨h.size⟩ ∧ ∃ i, o = .inst i ∧ i.registry = some r := by
  obtain ⟨i, hi, hr⟩ := ho
  rw [get?_allocate] at hi
  split at hi
  · rename_i last
    exact .inr ⟨congrArg Address.mk last, i, Option.some.inj hi, hr⟩
  · exact .inl ⟨i, hi, hr⟩

/-- What has no registry of its own makes no owner. -/
theorem Owns.of_allocate_bare {o : Object} (ho : (h.allocate o).2.Owns a r)
    (bare : ∀ i, o = .inst i → i.registry = none) : h.Owns a r := by
  rcases ho.of_allocate with ho | ⟨-, i, hi, hr⟩
  · exact ho
  · cases (bare i hi).symm.trans hr

/-- Where what is written is linked as what it replaces, no owner is new. -/
theorem Owns.of_update {b : Address} {o : Object} (ho : (h.update b o).Owns a r)
    (same : ∀ i, o = .inst i → ∃ j, h.get? b = some (.inst j) ∧ i.registry = j.registry) :
    h.Owns a r := by
  obtain ⟨i, hi, hr⟩ := ho
  rw [get?_update] at hi
  split at hi
  · rename_i here
    obtain ⟨j, hj, link⟩ := same i (Option.some.inj hi)
    exact ⟨j, here.1 ▸ hj, link ▸ hr⟩
  · exact ⟨i, hi, hr⟩

/-- The new owner has the newest registry. -/
theorem Owns.of_withOwnRegistry {b : Address} (ho : (h.withOwnRegistry b i).Owns a r) :
    h.Owns a r ∨ a = b ∧ r = ⟨h.size⟩ := by
  obtain ⟨j, hj, hr⟩ := ho
  rw [withOwnRegistry, get?_update] at hj
  split at hj
  · rename_i here
    cases hj
    exact .inr ⟨here.1.symm, (Option.some.inj hr).symm⟩
  · rcases Owns.of_allocate ⟨j, hj, hr⟩ with old | ⟨-, k, hk, -⟩
    · exact .inl old
    · cases hk

/-- An owner among clones is the clone of an owner. -/
theorem Owns.of_withClones (ho : (h.withClones i).Owns a r) :
    h.Owns a r ∨ ∃ b ∈ h.cloned i, ∃ c, h.Owns b c ∧ a = h.cloneOf i b ∧ r = h.cloneOf i c := by
  obtain ⟨j, hj, hr⟩ := ho
  by_cases old : a.index < h.size
  · rw [withClones, get?_extend_of_lt _ old] at hj
    exact .inl ⟨j, hj, hr⟩
  · obtain ⟨b, hb, hab, p, hp, same⟩ := exists_of_get?_extend_clones
      (fun _ => exists_of_mem_cloned) (nodup_closure _ _) (Nat.le_of_not_lt old) hj
    obtain ⟨k, rfl, -⟩ := rename_eq_inst same.symm
    cases same
    obtain ⟨c, hc, rfl⟩ := Option.map_eq_some_iff.mp hr
    exact .inr ⟨b, hb, c, ⟨k, hp, hc⟩, hab, rfl⟩

theorem Owns.of_takeSnapshot (ho : (h.takeSnapshot i).2.Owns a r) :
    (h.withClones i).Owns a r ∨
      a = (h.takeSnapshot i).1 ∧ r = ⟨(h.withClones i).size⟩ := by
  unfold takeSnapshot at ho ⊢
  split at ho
  · rcases Owns.of_allocate ho with old | ⟨-, j, hj, hr⟩
    · exact .inl old
    · cases hj
      cases hr
  · rcases Owns.of_allocate ho with old | ⟨last, j, hj, hr⟩
    · rcases Owns.of_allocate old with old | ⟨-, j, hj, -⟩
      · exact .inl old
      · cases hj
    · cases hj
      exact .inr ⟨last, (Option.some.inj hr).symm⟩

end Heap

/-! ## The invariant -/

namespace Scope

variable {V : Vocabulary} {h h' : Heap} {a b r : Address} {i : Instance}

/-- What an instance owns is on the heap. -/
theorem Covers.owned (hc : (whole V).Covers h) (ho : h.Owns a r) :
    ∃ reg, h.get? r = some (.registry reg) := by
  obtain ⟨i, hi, hr⟩ := ho
  exact hc.ownRegistry hi hr

theorem Covers.owned_lt (hc : (whole V).Covers h) (ho : h.Owns a r) : r.index < h.size := by
  obtain ⟨reg, hreg⟩ := hc.owned ho
  exact Heap.lt_size_of_get? hreg

/-- The registry of a cloned instance is cloned with it. -/
theorem Covers.mem_cloned_of_owns (hc : (whole V).Covers h) (ho : h.Owns a r)
    (ha : a ∈ h.cloned i) : r ∈ h.cloned i := by
  obtain ⟨reg, hreg⟩ := hc.owned ho
  obtain ⟨j, hj, hr⟩ := ho
  refine Heap.mem_closure_of_reference ha hj ?_ (Heap.copied?_eq_some.mpr ⟨hreg, rfl⟩)
  exact List.mem_append_right _ (Option.mem_toList.mpr hr)

theorem Covers.unshared_withOwnRegistry (hc : (whole V).Covers h) (hu : h.Unshared) :
    (h.withOwnRegistry b i).Unshared := by
  intro a a' r ha ha'
  have new : ∀ {c}, h.Owns c ⟨h.size⟩ → False := fun ho => Nat.lt_irrefl _ (hc.owned_lt ho)
  rcases ha.of_withOwnRegistry with ha | ⟨rfl, rfl⟩
  · rcases ha'.of_withOwnRegistry with ha' | ⟨-, rfl⟩
    · exact hu a a' r ha ha'
    · exact (new ha).elim
  · rcases ha'.of_withOwnRegistry with ha' | ⟨rfl, -⟩
    · exact (new ha').elim
    · rfl

/-- Clones have registries of their own since they go to addresses of their
own. -/
theorem Covers.unshared_withClones (hc : (whole V).Covers h) (hu : h.Unshared) :
    (h.withClones i).Unshared := by
  intro a a' r ha ha'
  have apart : ∀ {b b' c c'}, h.Owns b c → b' ∈ h.cloned i → h.Owns b' c' →
      c ≠ h.cloneOf i c' := by
    rintro b b' c c' ho hb' ho' rfl
    have new := Heap.le_cloneAddress h.size (hc.mem_cloned_of_owns ho' hb')
    exact Nat.lt_irrefl _ (Nat.lt_of_lt_of_le (hc.owned_lt ho) new)
  rcases ha.of_withClones with ha | ⟨b, hb, c, hbc, rfl, rfl⟩
  · rcases ha'.of_withClones with ha' | ⟨b, hb, c, hbc, rfl, rfl⟩
    · exact hu a a' r ha ha'
    · exact absurd rfl (apart ha hb hbc)
  · rcases ha'.of_withClones with ha' | ⟨b', hb', c', hbc', rfl, same⟩
    · exact absurd rfl (apart ha' hb hbc)
    · obtain rfl : c = c' := (Heap.cloneAddress_inj (hc.owned_lt hbc) (hc.owned_lt hbc')).mp same
      rw [hu b b' c hbc hbc']

theorem Covers.unshared_takeSnapshot (hc : (whole V).Covers h) (hu : h.Unshared) :
    (h.takeSnapshot i).2.Unshared := by
  intro a a' r ha ha'
  have old : ∀ {c}, ¬ (h.withClones i).Owns c ⟨(h.withClones i).size⟩ := by
    intro c ho
    rcases ho.of_withClones with ho | ⟨b, hb, d, hbd, -, same⟩
    · have := hc.owned_lt ho
      simp only [Heap.size_withClones] at this
      omega
    · have below := Heap.cloneAddress_lt h.size (hc.mem_cloned_of_owns hbd hb)
      rw [Heap.size_withClones] at same
      exact absurd (congrArg Address.index same) (Nat.ne_of_gt below)
  rcases ha.of_takeSnapshot with ha | ⟨rfl, rfl⟩
  · rcases ha'.of_takeSnapshot with ha' | ⟨-, rfl⟩
    · exact hc.unshared_withClones hu a a' r ha ha'
    · exact absurd ha old
  · rcases ha'.of_takeSnapshot with ha' | ⟨rfl, -⟩
    · exact absurd ha' old
    · rfl

theorem Change.unshared (hs : (whole V).Change h h') (hc : (whole V).Covers h)
    (hu : h.Unshared) : h'.Unshared := by
  -- most changes make no owner
  have kept : (∀ a r, h'.Owns a r → h.Owns a r) → h'.Unshared :=
    fun back a b r ha hb => hu a b r (back a r ha) (back b r hb)
  cases hs with
  | newContainer container =>
      refine kept fun a r ho => ho.of_allocate_bare ?_
      rintro i rfl
      cases container
  | newRegistry | copyRegistry => exact kept fun a r ho => ho.of_allocate_bare (by simp)
  | openType name =>
      exact kept fun a r ho => (ho.of_allocate_bare (by simp)).of_allocate_bare (by simp)
  | instantiate | newRecord =>
      refine kept fun a r ho => ho.of_allocate_bare ?_
      rintro i ⟨⟩
      rfl
  | snapshot => exact hc.unshared_takeSnapshot hu
  | setCell | setList | setDict | addHandler | sealRegistry =>
      exact kept fun a r ho => ho.of_update (by simp)
  | setFields writable there =>
      refine kept fun a r ho => ho.of_update ?_
      rintro i ⟨⟩
      exact ⟨_, there, rfl⟩
  | ownRegistry => exact hc.unshared_withOwnRegistry hu

theorem Step.unshared {s s' : State} (hs : (whole V).Step s s') (hc : (whole V).Covers s.heap)
    (hu : s.heap.Unshared) : s'.heap.Unshared := by
  cases hs with
  | heap change => exact change.unshared hc hu
  | bind | sight | log | takeRows | span | increment | reset | limit | share | operators | number
  | settle => exact hu

end Scope

namespace ReachableWithin

variable {V : Vocabulary} {s : State}

theorem unshared (hs : ReachableWithin V s) : s.heap.Unshared := by
  refine (invariant (P := fun s => (Scope.whole V).Confines s ∧ s.heap.Unshared) ?_ ?_ hs).2
  · exact ⟨Scope.confines_initial, fun _ _ _ ⟨_, hi, _⟩ => by cases hi⟩
  · rintro s s' hstep ⟨hc, hu⟩
    exact ⟨hstep.confines hc, hstep.unshared hc.heap hu⟩

end ReachableWithin

end OperatorDispatch
