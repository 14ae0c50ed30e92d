import OperatorDispatch.Proofs.Steps

/-!
# Confinement

A run inside a scope never gets out of it: whatever a step leaves at hand is
known to the scope again, nothing known leads out of it, and no link dangles
(`Step.confines`).  Most changes touch one object, which the scope admits.  A
snapshot adds many at once, and an instance with a registry of its own is
changed together with what it links to.
-/

namespace OperatorDispatch

namespace Scope

variable {S : Scope} {h h' : Heap} {s s' : State}

/-! ## One object -/

namespace Covers

/-- Where the heap grows, no known old object is changed and every known new
one is admitted, the scope still covers the heap. -/
theorem grow (hc : S.Covers h) (hl : h.Later h')
    (old : ∀ a, S.known a → a.index < h.size → ∀ o, h'.get? a = some o →
      h.get? a = some o ∨ S.Admits h' o)
    (new : ∀ a o, h.size ≤ a.index → h'.get? a = some o → S.Admits h' o) : S.Covers h' := by
  refine ⟨fun a ha => hc.frontier a (Nat.le_trans hl.size_le ha), ?_⟩
  intro a o ha ho
  by_cases hlt : a.index < h.size
  · rcases old a ha hlt o ho with same | admitted
    · exact (hc.object a o ha same).later hl
    · exact admitted
  · exact new a o (Nat.le_of_not_lt hlt) ho

theorem allocate {o : Object} (hc : S.Covers h) (ho : S.Admits h o) :
    S.Covers (h.allocate o).2 := by
  refine hc.grow (.allocate h o) ?_ ?_
  · intro a _ hlt p hp
    exact .inl ((Heap.get?_allocate_of_lt o hlt).symm.trans hp)
  · intro a p hle hp
    have hlt := Heap.lt_size_of_get? hp
    rw [Heap.size_allocate] at hlt
    rw [Heap.get?_allocate, if_pos (by omega)] at hp
    cases hp
    exact ho.later (.allocate h o)

theorem update {a : Address} {o o' : Object} (hc : S.Covers h) (there : h.get? a = some o)
    (hb : o.Becomes h.size o') (ho : S.known a → S.Admits h o') : S.Covers (h.update a o') := by
  have hl := Heap.Later.update there hb
  refine hc.grow hl ?_ ?_
  · intro b hk _ p hp
    by_cases hba : b = a
    · subst hba
      rw [Heap.get?_update_self there] at hp
      cases hp
      exact .inr ((ho hk).later hl)
    · exact .inl ((Heap.get?_update_of_ne _ hba).symm.trans hp)
  · intro b p hle hp
    have hlt := Heap.lt_size_of_get? hp
    rw [Heap.size_update] at hlt
    omega

/-- What a known object refers to is known. -/
theorem references (hc : S.Covers h) {a : Address} {o : Object} (ha : S.known a)
    (ho : h.get? a = some o) : ∀ b ∈ o.references, S.known b ∧ b.index < h.size := by
  have value : ∀ {v : Value} {b : Address}, S.Knows h v → b ∈ v.references →
      S.known b ∧ b.index < h.size := by
    intro v b hv hb
    cases v with
    | primitive | function => simp [Value.references, Value.address?] at hb
    | object c =>
        obtain rfl : b = c := by simpa [Value.references, Value.address?] using hb
        exact hv
  have values : ∀ {vs : List Value} {b : Address}, (∀ v ∈ vs, S.Knows h v) →
      b ∈ vs.flatMap Value.references → S.known b ∧ b.index < h.size := by
    intro vs b hvs hb
    obtain ⟨v, hv, hb⟩ := List.mem_flatMap.mp hb
    exact value (hvs v hv) hb
  intro b hb
  have admitted := hc.object a o ha ho
  cases o with
  | inst i =>
      rcases List.mem_append.mp hb with hb | hb
      · exact values admitted.1 hb
      · obtain ⟨hk, r, hr⟩ := admitted.2.2 b (by simpa using hb)
        exact ⟨hk, Heap.lt_size_of_get? (Heap.registryAt?_eq_some.mp hr)⟩
  | cell v => exact value admitted hb
  | list vs => exact values admitted hb
  | dict es => exact values admitted hb
  | typeDefinition | registry | reading => simp [Object.references] at hb

end Covers

/-! ## Snapshots

The clones are admitted because the closure never leaves the scope, and
because a link of a clone leads either to another clone, which is of the same
kind as what it was cloned from, or to where the old link led. -/

section Snapshot

variable {i : Instance}

theorem known_of_mem_cloned (hc : S.Covers h) (hi : S.Admits h (.inst i)) :
    ∀ a ∈ h.cloned i, S.known a ∧ a.index < h.size := by
  refine Heap.closure_induction ?_ ?_
  · intro a o ha ho b hb
    exact hc.references ha.1 (Heap.copied?_eq_some.mp ho).1 b hb
  · intro a ha
    obtain ⟨v, hv, ha⟩ := List.mem_flatMap.mp ha
    have hk := hi.1 v hv
    cases v with
    | primitive | function => simp [Value.references, Value.address?] at ha
    | object b =>
        obtain rfl : a = b := by simpa [Value.references, Value.address?] using ha
        exact hk

theorem Knows.rename (hc : S.Covers h) {v : Value} (hv : S.Knows h v) :
    S.Knows (h.withClones i) (v.rename (h.cloneOf i)) := by
  have hl : h.Later (h.withClones i) := .extend _ _
  cases v with
  | primitive | function => exact hv
  | object a =>
      by_cases ha : a ∈ h.cloned i
      · refine ⟨(hc.frontier _ (Heap.le_cloneAddress h.size ha)).1, ?_⟩
        rw [Heap.size_withClones]
        exact Heap.cloneAddress_lt h.size ha
      · show S.Knows _ (.object (h.cloneOf i a))
        rw [Heap.cloneOf, Heap.cloneAddress_of_not_mem h.size ha]
        exact hv.later hl

theorem KnowsRegistry.rename (hc : S.Covers h) {a : Address} (ha : S.KnowsRegistry h a) :
    S.KnowsRegistry (h.withClones i) (h.cloneOf i a) := by
  obtain ⟨hk, r, hr⟩ := ha
  by_cases hm : a ∈ h.cloned i
  · refine ⟨(hc.frontier _ (Heap.le_cloneAddress h.size hm)).1, r, ?_⟩
    rw [Heap.registryAt?_eq_some] at hr ⊢
    exact Heap.get?_extend_clones (fun _ => Heap.exists_of_mem_cloned) hm hr
  · rw [Heap.cloneOf, Heap.cloneAddress_of_not_mem h.size hm]
    exact KnowsRegistry.later (.extend _ _) ⟨hk, r, hr⟩

theorem knows_renamed_fields (hc : S.Covers h) {fields : OrderedMap String Value}
    (hf : ∀ v ∈ fields.values, S.Knows h v) :
    ∀ v ∈ (fields.mapValues (Value.rename (h.cloneOf i))).values, S.Knows (h.withClones i) v := by
  intro v hv
  rw [OrderedMap.values_mapValues] at hv
  obtain ⟨w, hw, rfl⟩ := List.mem_map.mp hv
  exact (hf w hw).rename hc

theorem Admits.rename (hc : S.Covers h) : ∀ {o : Object}, S.Admits h o →
    S.Admits (h.withClones i) (o.rename (h.cloneOf i))
  | .inst j, ho => by
      refine ⟨knows_renamed_fields hc ho.1, fun t ht => (ho.2.1 t ht).later (.extend _ _), ?_⟩
      intro r hr
      obtain ⟨r', hr', rfl⟩ := Option.map_eq_some_iff.mp hr
      exact (ho.2.2 r' hr').rename hc
  | .typeDefinition _, ho => Admits.later (.extend _ _) ho
  | .registry _, ho => ho
  | .cell _, ho => Knows.rename hc ho
  | .list vs, ho => by
      intro v hv
      obtain ⟨w, hw, rfl⟩ := List.mem_map.mp hv
      exact (ho w hw).rename hc
  | .dict _, ho => knows_renamed_fields hc ho
  | .reading _, _ => trivial

theorem Covers.withClones (hc : S.Covers h) (hi : S.Admits h (.inst i)) :
    S.Covers (h.withClones i) := by
  refine hc.grow (.extend _ _) ?_ ?_
  · intro a _ hlt o ho
    exact .inl ((Heap.get?_extend_of_lt _ hlt).symm.trans ho)
  · intro a p hle hp
    obtain ⟨b, hb, -, o, ho, rfl⟩ := Heap.exists_of_get?_extend_clones
      (fun _ => Heap.exists_of_mem_cloned) (Heap.nodup_closure _ _) hle hp
    exact (hc.object b o (known_of_mem_cloned hc hi b hb).1 ho).rename hc

theorem admits_snapshotWith (hc : S.Covers h) (hi : S.Admits h (.inst i))
    (hl : (h.withClones i).Later h') {registry : Option Address}
    (hr : ∀ r, registry = some r → S.KnowsRegistry h' r) :
    S.Admits h' (h.snapshotWith i registry) := by
  refine ⟨?_, fun t ht => (hi.2.1 t ht).later (.trans (.extend _ _) hl), hr⟩
  intro v hv
  exact (knows_renamed_fields hc hi.1 v hv).later hl

theorem Covers.takeSnapshot (hc : S.Covers h) (hi : S.Admits h (.inst i)) :
    S.Covers (h.takeSnapshot i).2 := by
  have clones := hc.withClones hi
  cases hr : i.registry with
  | none =>
      rw [Heap.takeSnapshot_of_none hr]
      exact clones.allocate (admits_snapshotWith hc hi (.refl _) (by simp))
  | some a =>
      obtain ⟨ha, r, hra⟩ := hi.2.2 a hr
      rw [Heap.takeSnapshot_of_some hr hra]
      have copy : S.Admits (h.withClones i) (.registry (r.copy none)) :=
        hc.object a _ ha (Heap.registryAt?_eq_some.mp hra)
      refine (clones.allocate copy).allocate (admits_snapshotWith hc hi (.allocate _ _) ?_)
      rintro b ⟨⟩
      refine ⟨(clones.frontier _ (Nat.le_refl _)).1, r.copy none, ?_⟩
      rw [Heap.registryAt?_eq_some]
      exact Heap.get?_allocate_self _ _

end Snapshot

/-! ## All changes -/

theorem Covers.withType (hc : S.Covers h) (name : String) {parent : Option Address}
    (parents : ∀ p, parent = some p → S.KnowsType h p) : S.Covers (h.withType name parent) := by
  let fresh := Registry.fresh ("type '" ++ name ++ "'") false
  have admitted : S.Admits h (.registry fresh) := fun f hf => absurd hf List.not_mem_nil
  refine (hc.allocate admitted).allocate ⟨⟨(hc.frontier _ (Nat.le_refl _)).1, fresh, ?_⟩, ?_⟩
  · rw [Heap.registryAt?_eq_some]
    exact Heap.get?_allocate_self _ _
  · exact fun p hp => (parents p hp).later (.allocate _ _)

theorem Covers.withOwnRegistry (hc : S.Covers h) {a : Address} {i : Instance}
    (hi : h.get? a = some (.inst i)) (bare : i.registry = none) :
    S.Covers (h.withOwnRegistry a i) := by
  have hl := Heap.later_withOwnRegistry hi bare
  have registry := Heap.get?_withOwnRegistry_new hi
  refine hc.grow hl ?_ ?_
  · intro b hb hlt o ho
    by_cases hba : b = a
    · subst hba
      cases ho.symm.trans (Heap.get?_withOwnRegistry_self hi)
      have admitted := (hc.object _ _ hb hi).later hl
      refine .inr ⟨admitted.1, admitted.2.1, ?_⟩
      rintro r ⟨⟩
      exact ⟨(hc.frontier _ (Nat.le_refl _)).1, _, Heap.registryAt?_eq_some.mpr registry⟩
    · exact .inl ((Heap.get?_withOwnRegistry_of_ne hlt hba).symm.trans ho)
  · intro b o hle ho
    have hb : b = ⟨h.size⟩ := by
      have hlt := Heap.lt_size_of_get? ho
      rw [Heap.size_withOwnRegistry] at hlt
      obtain ⟨n⟩ := b
      exact congrArg Address.mk (Nat.le_antisymm (Nat.le_of_lt_succ hlt) hle)
    rw [hb, registry] at ho
    cases ho
    exact fun f hf => absurd hf List.not_mem_nil

theorem Change.covers (hc : S.Change h h') (hs : S.Covers h) : S.Covers h' := by
  cases hc with
  | newContainer _ admitted => exact hs.allocate admitted
  | newRegistry owner allowReplace =>
      exact hs.allocate fun f hf => absurd hf List.not_mem_nil
  | copyRegistry known there owner =>
      have admitted := hs.object _ _ known there
      exact hs.allocate admitted
  | openType name parents => exact hs.withType name parents
  | instantiate known there _ _ values =>
      refine hs.allocate ⟨values, ?_, by simp⟩
      rintro t ⟨⟩
      exact ⟨known, _, Heap.typeAt?_eq_some.mpr there⟩
  | newRecord values => exact hs.allocate ⟨values, by simp, by simp⟩
  | snapshot known there => exact hs.takeSnapshot (hs.object _ _ known there)
  | setCell _ there value => exact hs.update there (.cell _ _) fun _ => value
  | setList _ there values => exact hs.update there (.list _ _) fun _ => values
  | setDict _ there values => exact hs.update there (.dict _ _) fun _ => values
  | setFields _ there open_ values =>
      refine hs.update there (.inst rfl rfl (by simp [open_]) (.inl rfl)) fun ha => ?_
      have admitted := hs.object _ _ ha there
      exact ⟨values, admitted.2⟩
  | addHandler _ there value added =>
      refine hs.update there (Registry.becomes_add _ added) fun ha => ?_
      obtain ⟨f, rfl, -, -, -, rfl⟩ := Registry.add_eq_ok added
      intro g hg
      rcases OrderedMap.mem_values_insert hg with rfl | hg
      · exact value
      · exact hs.object _ _ ha there g hg
  | @sealRegistry _ r _ there =>
      refine hs.update there (.registry rfl rfl ?_ fun _ => List.prefix_rfl) fun ha => ?_
      · intro hr
        cases r
        cases hr
        rfl
      · have admitted := hs.object _ _ ha there
        exact admitted
  | ownRegistry _ there bare => exact hs.withOwnRegistry there bare

/-- What a program holds it still holds later, and nothing it holds leads out. -/
theorem Step.confines (hs : S.Step s s') (hc : S.Confines s) : S.Confines s' := by
  have hl := hs.later
  have bindings : ∀ v ∈ s.bindings.values, S.Knows s'.heap v :=
    fun v hv => (hc.bindings v hv).later hl
  have shared : ∀ settings, s.shared = some settings → S.Knows s'.heap settings.sentinel :=
    fun settings h => (hc.shared settings h).later hl
  cases hs with
  | heap change => exact ⟨change.covers hc.heap, bindings, shared⟩
  | bind name value =>
      refine ⟨hc.heap, ?_, shared⟩
      intro v hv
      rcases OrderedMap.mem_values_insert hv with rfl | hv
      · exact value
      · exact bindings v hv
  | share sentinel =>
      refine ⟨hc.heap, bindings, ?_⟩
      rintro settings ⟨⟩
      exact sentinel
  | sight | log | takeRows | span | increment | reset | limit | operators | number | settle =>
      exact ⟨hc.heap, bindings, shared⟩

theorem Steps.confines (hs : S.Steps s s') (hc : S.Confines s) : S.Confines s' := by
  induction hs with
  | refl => exact hc
  | tail _ last ih => exact last.confines ih

end Scope

end OperatorDispatch
