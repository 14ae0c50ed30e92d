import OperatorDispatch.Proofs.Actions
import OperatorDispatch.Proofs.Closure

/-!
# Copies

The heap that a snapshot leaves behind, as a function: the clones of what the
fields lead to, then the copied registry where there is one, then the snapshot
itself.  `Heap.cloneOf` is the renaming behind it.  It is injective on the
addresses that were in use, and the object at the new address of a clone is the
old object with every reference renamed.
-/

namespace OperatorDispatch
namespace Heap

/-! ## New addresses -/

section CloneAddress

variable {h : Heap} {cloned : List Address} {a b : Address}

theorem cloneAddress_of_mem (n : Nat) (ha : a ∈ cloned) :
    cloneAddress n cloned a = ⟨n + cloned.idxOf a⟩ := by
  simp [cloneAddress, ha]

theorem cloneAddress_of_not_mem (n : Nat) (ha : a ∉ cloned) : cloneAddress n cloned a = a := by
  simp [cloneAddress, ha]

theorem le_cloneAddress (n : Nat) (ha : a ∈ cloned) : n ≤ (cloneAddress n cloned a).index := by
  simp [cloneAddress_of_mem n ha]

theorem cloneAddress_lt (n : Nat) (ha : a ∈ cloned) :
    (cloneAddress n cloned a).index < n + cloned.length := by
  rw [cloneAddress_of_mem n ha]
  exact Nat.add_lt_add_left (List.idxOf_lt_length_of_mem ha) n

/-- Different addresses in use have different clones. -/
theorem cloneAddress_inj {n : Nat} (ha : a.index < n) (hb : b.index < n) :
    cloneAddress n cloned a = cloneAddress n cloned b ↔ a = b := by
  refine ⟨fun e => ?_, fun e => e ▸ rfl⟩
  by_cases hac : a ∈ cloned
  · by_cases hbc : b ∈ cloned
    · rw [cloneAddress_of_mem n hac, cloneAddress_of_mem n hbc, Address.mk.injEq] at e
      exact List.idxOf_inj hac |>.mp (Nat.add_left_cancel e)
    · have := le_cloneAddress n hac
      rw [e, cloneAddress_of_not_mem n hbc] at this
      omega
  · by_cases hbc : b ∈ cloned
    · have := le_cloneAddress n hbc
      rw [← e, cloneAddress_of_not_mem n hac] at this
      omega
    · rwa [cloneAddress_of_not_mem n hac, cloneAddress_of_not_mem n hbc] at e

/-! ## Clones -/

theorem clones_eq_map (φ : Address → Address) (hc : ∀ x ∈ cloned, ∃ o, h.get? x = some o) :
    ∃ os : List Object, os.length = cloned.length ∧
      (cloned.filterMap fun x => (h.get? x).map (Object.rename φ)) = os.map (Object.rename φ) ∧
      ∀ (n : Nat) (x : Address), cloned[n]? = some x → h.get? x = os[n]? := by
  induction cloned with
  | nil => exact ⟨[], rfl, rfl, by simp⟩
  | cons x xs ih =>
      obtain ⟨o, ho⟩ := hc x List.mem_cons_self
      obtain ⟨os, hlen, hmap, hget⟩ := ih fun y hy => hc y (List.mem_cons_of_mem _ hy)
      refine ⟨o :: os, by simp [hlen], by simp [ho, hmap], ?_⟩
      intro n y hy
      cases n with
      | zero => simp_all
      | succ n => exact hget n y (by simpa using hy)

theorem length_clones (hc : ∀ x ∈ cloned, ∃ o, h.get? x = some o) :
    (h.clones cloned).length = cloned.length := by
  obtain ⟨os, hlen, hmap, -⟩ := clones_eq_map (cloneAddress h.size cloned) hc
  simp [clones, hmap, hlen]

/-- The object at the new address of a clone. -/
theorem get?_extend_clones (hc : ∀ x ∈ cloned, ∃ o, h.get? x = some o) (ha : a ∈ cloned)
    {o : Object} (ho : h.get? a = some o) :
    (h.extend (h.clones cloned)).get? (cloneAddress h.size cloned a)
      = some (o.rename (cloneAddress h.size cloned)) := by
  obtain ⟨os, hlen, hmap, hget⟩ := clones_eq_map (cloneAddress h.size cloned) hc
  rw [get?_extend_of_le _ (le_cloneAddress h.size ha), cloneAddress_of_mem h.size ha, clones, hmap]
  have hidx : cloned[cloned.idxOf a]? = some a := by
    rw [List.getElem?_eq_getElem (List.idxOf_lt_length_of_mem ha), List.getElem_idxOf]
  simp [← hget _ a hidx, ho]

/-- Every new object is the clone of an old one. -/
theorem exists_of_get?_extend_clones (hc : ∀ x ∈ cloned, ∃ o, h.get? x = some o)
    (hnodup : cloned.Nodup) {p : Object} (hb : h.size ≤ b.index)
    (hp : (h.extend (h.clones cloned)).get? b = some p) :
    ∃ a ∈ cloned, b = cloneAddress h.size cloned a ∧
      ∃ o, h.get? a = some o ∧ p = o.rename (cloneAddress h.size cloned) := by
  have hlt : b.index - h.size < cloned.length := by
    have := lt_size_of_get? hp
    rw [size_extend, length_clones hc] at this
    omega
  have ha : cloned[b.index - h.size] ∈ cloned := List.getElem_mem hlt
  have hb' : b = cloneAddress h.size cloned cloned[b.index - h.size] := by
    obtain ⟨n⟩ := b
    rw [cloneAddress_of_mem h.size ha, hnodup.idxOf_getElem, Address.mk.injEq]
    simp only at hb ⊢
    omega
  obtain ⟨o, ho⟩ := hc _ ha
  refine ⟨_, ha, hb', o, ho, ?_⟩
  have := get?_extend_clones hc ha ho
  rw [← hb', hp] at this
  exact Option.some.inj this

end CloneAddress

/-! ## The heap after a snapshot -/

/-- What has to be cloned with an instance. -/
def cloned (h : Heap) (i : Instance) : List Address :=
  h.closure (i.fields.values.flatMap Value.references)

/-- Where what an instance leads to goes in its snapshot. -/
def cloneOf (h : Heap) (i : Instance) : Address → Address :=
  cloneAddress h.size (h.cloned i)

def withClones (h : Heap) (i : Instance) : Heap :=
  h.extend (h.clones (h.cloned i))

/-- The snapshot of an instance, given its registry. -/
def snapshotWith (h : Heap) (i : Instance) (registry : Option Address) : Object :=
  .inst ⟨i.type, i.fields.mapValues (Value.rename (h.cloneOf i)), registry, true⟩

/-- A snapshot, and the heap that holds it. -/
def takeSnapshot (h : Heap) (i : Instance) : Address × Heap :=
  match i.registry.bind (h.withClones i).registryAt? with
  | none => (h.withClones i).allocate (h.snapshotWith i none)
  | some r =>
    let (registry, h') := (h.withClones i).allocate (.registry (r.copy none))
    h'.allocate (h.snapshotWith i (some registry))

section Snapshot

variable {h : Heap} {i : Instance}

theorem exists_of_mem_cloned {a : Address} (ha : a ∈ h.cloned i) : ∃ o, h.get? a = some o := by
  obtain ⟨o, ho⟩ := copied?_of_mem_closure ha
  exact ⟨o, (copied?_eq_some.mp ho).1⟩

theorem size_withClones (h : Heap) (i : Instance) :
    (h.withClones i).size = h.size + (h.cloned i).length := by
  rw [withClones, size_extend, length_clones fun _ => exists_of_mem_cloned]

theorem takeSnapshot_of_none (hi : i.registry = none) :
    h.takeSnapshot i = (h.withClones i).allocate (h.snapshotWith i none) := by
  simp [takeSnapshot, hi]

theorem takeSnapshot_of_some {a : Address} {r : Registry} (hi : i.registry = some a)
    (hr : h.registryAt? a = some r) :
    h.takeSnapshot i =
      ((h.withClones i).allocate (.registry (r.copy none))).2.allocate
        (h.snapshotWith i (some ⟨(h.withClones i).size⟩)) := by
  have hr' : (h.withClones i).registryAt? a = some r := by
    rw [registryAt?_eq_some] at hr ⊢
    rw [withClones, get?_extend_of_lt _ (lt_size_of_get? hr), hr]
  simp [takeSnapshot, hi, hr', allocate]

/-- The snapshot proper is the last of the new objects. -/
theorem takeSnapshot_index (h : Heap) (i : Instance) :
    h.size ≤ (h.takeSnapshot i).1.index ∧
      (h.takeSnapshot i).1.index < (h.takeSnapshot i).2.size := by
  have clones : h.size ≤ (h.withClones i).size := by
    rw [size_withClones]
    omega
  have last : ∀ (h' : Heap) (o : Object), (h'.allocate o).1.index = h'.size := fun _ _ => rfl
  unfold takeSnapshot
  split
  · simp only [last, size_allocate]
    omega
  · simp only [last, size_allocate]
    omega

/-! ### The objects afterwards

Old objects stay where they are.  Above them lie the clones, the copied
registry where there is one, and the snapshot proper. -/

theorem get?_takeSnapshot_of_lt {a : Address} (ha : a.index < h.size) :
    (h.takeSnapshot i).2.get? a = h.get? a := by
  have clones : (h.withClones i).get? a = h.get? a := get?_extend_of_lt _ ha
  have hlt : a.index < (h.withClones i).size := by
    rw [size_withClones]
    omega
  unfold takeSnapshot
  split
  · rw [get?_allocate_of_lt _ hlt, clones]
  · rw [get?_allocate_of_lt _ (by simp only [size_allocate]; omega), get?_allocate_of_lt _ hlt,
      clones]

/-- The object at the new address of a clone, its references renamed. -/
theorem get?_takeSnapshot_cloneOf {a : Address} {o : Object} (ha : a ∈ h.cloned i)
    (ho : h.get? a = some o) :
    (h.takeSnapshot i).2.get? (h.cloneOf i a) = some (o.rename (h.cloneOf i)) := by
  have clone : (h.withClones i).get? (h.cloneOf i a) = some (o.rename (h.cloneOf i)) :=
    get?_extend_clones (fun _ => exists_of_mem_cloned) ha ho
  have hlt := lt_size_of_get? clone
  unfold takeSnapshot
  split
  · rw [get?_allocate_of_lt _ hlt, clone]
  · rw [get?_allocate_of_lt _ (by simp only [size_allocate]; omega), get?_allocate_of_lt _ hlt,
      clone]

/-- The snapshot proper.  Its registry is a new one. -/
theorem get?_takeSnapshot_self (h : Heap) (i : Instance) :
    ∃ registry, (h.takeSnapshot i).2.get? (h.takeSnapshot i).1 =
        some (h.snapshotWith i registry) ∧
      ∀ r, registry = some r → h.size ≤ r.index := by
  unfold takeSnapshot
  split
  · exact ⟨none, get?_allocate_self _ _, by simp⟩
  · refine ⟨some ⟨(h.withClones i).size⟩, get?_allocate_self _ _, ?_⟩
    rintro r ⟨⟩
    rw [size_withClones]
    exact Nat.le_add_right _ _

/-- The handlers of the snapshot's own: the same ones in an open registry. -/
theorem registryAt?_takeSnapshot
    (hr : ∀ a, i.registry = some a → ∃ r, h.registryAt? a = some r) {registry : Option Address}
    (hb : (h.takeSnapshot i).2.get? (h.takeSnapshot i).1 = some (h.snapshotWith i registry)) :
    registry.bind (h.takeSnapshot i).2.registryAt? =
      (i.registry.bind h.registryAt?).map (·.copy none) := by
  cases hi : i.registry with
  | none =>
      rw [takeSnapshot_of_none hi] at hb
      have self := (get?_allocate_self _ _).symm.trans hb
      simp only [snapshotWith, Option.some.injEq, Object.inst.injEq, Instance.mk.injEq] at self
      simp [← self.2.2.1]
  | some a =>
      obtain ⟨r, hra⟩ := hr a hi
      rw [takeSnapshot_of_some hi hra] at hb ⊢
      have self := (get?_allocate_self _ _).symm.trans hb
      simp only [snapshotWith, Option.some.injEq, Object.inst.injEq, Instance.mk.injEq] at self
      rw [← self.2.2.1]
      simp only [Option.bind_some, hra, Option.map_some]
      rw [registryAt?_eq_some, get?_allocate_of_lt _ (by simp only [size_allocate]; omega),
        get?_allocate_self]

theorem rename_eq_registry {φ : Address → Address} {o : Object} {r : Registry}
    (ho : o.rename φ = .registry r) : o = .registry r := by
  cases o <;> simp_all [Object.rename]

/-- What a new object is made from: a clone from what it is the clone of, and
the registry of the snapshot proper from the same handlers on the old heap. -/
theorem exists_of_get?_takeSnapshot {a : Address} {o : Object} (ha : h.size ≤ a.index)
    (ho : (h.takeSnapshot i).2.get? a = some o) :
    (∃ b ∈ h.cloned i, ∃ p, h.get? b = some p ∧ o = p.rename (h.cloneOf i)) ∨
      (∃ b r, h.get? b = some (.registry r) ∧ o = .registry (r.copy none)) ∨
      ∃ registry, a = (h.takeSnapshot i).1 ∧ o = h.snapshotWith i registry ∧
        ∀ r, registry = some r → h.size ≤ r.index := by
  have clone : ∀ {b p}, h.size ≤ b.index → (h.withClones i).get? b = some p →
      ∃ c ∈ h.cloned i, ∃ q, h.get? c = some q ∧ p = q.rename (h.cloneOf i) := by
    intro b p hb hp
    obtain ⟨c, hc, -, q, hq, hpq⟩ := exists_of_get?_extend_clones
      (fun _ => exists_of_mem_cloned) (nodup_closure _ _) hb hp
    exact ⟨c, hc, q, hq, hpq⟩
  have last : ∀ {h' : Heap} {p : Object}, a.index = h'.size → a = (h'.allocate p).1 :=
    fun same => congrArg Address.mk same
  cases hr : i.registry.bind (h.withClones i).registryAt? with
  | none =>
      simp only [takeSnapshot, hr] at ho ⊢
      rw [get?_allocate] at ho
      split at ho
      · rename_i hlast
        cases ho
        exact .inr (.inr ⟨none, last hlast, rfl, by simp⟩)
      · exact .inl (clone ha ho)
  | some r =>
      simp only [takeSnapshot, hr] at ho ⊢
      rw [get?_allocate] at ho
      split at ho
      · rename_i hlast
        cases ho
        refine .inr (.inr ⟨some ⟨(h.withClones i).size⟩, last hlast, rfl, ?_⟩)
        rintro r ⟨⟩
        rw [size_withClones]
        exact Nat.le_add_right _ _
      · rw [get?_allocate] at ho
        split at ho
        · cases ho
          obtain ⟨b, -, hb⟩ := Option.bind_eq_some_iff.mp hr
          rw [registryAt?_eq_some] at hb
          by_cases hlt : b.index < h.size
          · rw [withClones, get?_extend_of_lt _ hlt] at hb
            exact .inr (.inl ⟨b, r, hb, rfl⟩)
          · obtain ⟨c, -, q, hq, hqr⟩ := clone (Nat.le_of_not_lt hlt) hb
            rw [rename_eq_registry hqr.symm] at hq
            exact .inr (.inl ⟨c, r, hq, rfl⟩)
        · exact .inl (clone ha ho)

end Snapshot

end Heap

namespace Action

theorem registryAt_eq {s : State} {a : Address} {r : Registry}
    (hr : s.heap.registryAt? a = some r) : registryAt a s = .ok r s := by
  simp only [registryAt, bind, EStateM.bind, heap, hr, demand_some]

theorem copyRegistryAt_eq {s : State} {a : Address} {r : Registry}
    (hr : s.heap.registryAt? a = some r) :
    copyRegistryAt a s = allocate (.registry (r.copy none)) s := by
  rw [copyRegistryAt, bind_ok (registryAt_eq hr)]

/-- The clones come first, then the registry, then the snapshot. -/
theorem snapshot_apply (s : State) (i : Instance) :
    snapshot i s = (i.registry.mapM copyRegistryAt >>= fun registry =>
      allocate (s.heap.snapshotWith i registry)) { s with heap := s.heap.withClones i } :=
  rfl

/-- What the action does, where the link to the registry is good. -/
theorem snapshot_eq {s : State} {i : Instance}
    (hr : ∀ a, i.registry = some a → ∃ r, s.heap.registryAt? a = some r) :
    snapshot i s = .ok (s.heap.takeSnapshot i).1 { s with heap := (s.heap.takeSnapshot i).2 } := by
  rw [snapshot_apply]
  cases hi : i.registry with
  | none =>
      rw [Heap.takeSnapshot_of_none hi]
      rfl
  | some a =>
      obtain ⟨r, hra⟩ := hr a hi
      have hr' : (s.heap.withClones i).registryAt? a = some r := by
        rw [Heap.registryAt?_eq_some] at hra ⊢
        rw [Heap.withClones, Heap.get?_extend_of_lt _ (Heap.lt_size_of_get? hra), hra]
      have copied := copyRegistryAt_eq (s := { s with heap := s.heap.withClones i }) hr'
      rw [Heap.takeSnapshot_of_some hi hra]
      exact bind_ok (map_ok copied)

end Action

end OperatorDispatch
