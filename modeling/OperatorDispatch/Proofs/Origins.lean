import OperatorDispatch.Proofs.Definitions
import OperatorDispatch.Proofs.Faithful

/-!
# Where objects come from

`Heap.Later` follows an object forward in time.  This module looks back: given
an object on the heap after a change, what was on the heap before that it was
made from.

* A registry is empty, has the handlers of a registry that was there, or has
  one handler more, taken in by `Registry.add`.
* The type of an instance is sealed, or was the type of an instance before.
* A type definition was there before, or has just been opened, with an empty
  registry that refuses replacement.

An invariant of all registries, of all instances or of all type definitions
then takes one case for each origin, and not one for each kind of change.
-/

namespace OperatorDispatch

/-! ## Origins of registries -/

/-- The registry, as far as look-up and registration can tell, seals apart. -/
structure Registry.SameHandlers (r r' : Registry) : Prop where
  handlers : r'.handlers = r.handlers
  allowReplace : r'.allowReplace = r.allowReplace

namespace Registry.SameHandlers

theorem refl (r : Registry) : r.SameHandlers r :=
  ⟨rfl, rfl⟩

theorem copy (r : Registry) (owner : Option String) : r.SameHandlers (r.copy owner) :=
  ⟨rfl, rfl⟩

end Registry.SameHandlers

/-- What a registry on a changed heap was made from. -/
inductive Heap.RegistryOrigin (h : Heap) : Registry → Prop
  | fresh (owner : String) (allowReplace : Bool) : RegistryOrigin h (.fresh owner allowReplace)
  | same {a : Address} {r r' : Registry} (there : h.get? a = some (.registry r))
      (same : r.SameHandlers r') : RegistryOrigin h r'
  | added {a : Address} {r r' : Registry} {sel : Selector} {handler : Value}
      (there : h.get? a = some (.registry r)) (added : r.add sel handler = .ok r') :
      RegistryOrigin h r'

namespace Heap

variable {h : Heap} {a : Address} {i : Instance}

theorem RegistryOrigin.old {r : Registry} (hr : h.get? a = some (.registry r)) :
    h.RegistryOrigin r :=
  .same hr (.refl r)

theorem rename_eq_inst {φ : Address → Address} {o : Object} {i' : Instance}
    (ho : o.rename φ = .inst i') : ∃ i, o = .inst i ∧ i'.type = i.type := by
  cases o with
  | inst i =>
      cases ho
      exact ⟨i, rfl, rfl⟩
  | typeDefinition | registry | cell | list | dict | reading => simp [Object.rename] at ho

theorem get?_allocate_cases {o p : Object} (hp : (h.allocate o).2.get? a = some p) :
    p = o ∨ h.get? a = some p := by
  rw [get?_allocate] at hp
  split at hp
  · exact .inl (Option.some.inj hp).symm
  · exact .inr hp

theorem get?_update_cases {b : Address} {o p : Object} (hp : (h.update b o).get? a = some p) :
    p = o ∨ h.get? a = some p := by
  rw [get?_update] at hp
  split at hp
  · exact .inl (Option.some.inj hp).symm
  · exact .inr hp

theorem get?_withType_cases {name : String} {parent : Option Address} {p : Object}
    (hp : (h.withType name parent).get? a = some p) :
    p = .typeDefinition ⟨name, parent, ⟨h.size⟩⟩ ∨
      p = .registry (.fresh ("type '" ++ name ++ "'") false) ∨ h.get? a = some p :=
  (get?_allocate_cases hp).imp_right get?_allocate_cases

theorem get?_withOwnRegistry_cases {b : Address} {p : Object}
    (hp : (h.withOwnRegistry b i).get? a = some p) :
    p = .inst { i with registry := some ⟨h.size⟩ } ∨
      p = .registry (.fresh ("instance of '" ++ h.typeNameOf i ++ "'") true) ∨
      h.get? a = some p :=
  (get?_update_cases hp).imp_right get?_allocate_cases

/-- An object on the heap with a snapshot was there before, or is new. -/
theorem get?_takeSnapshot_cases {p : Object} (hp : (h.takeSnapshot i).2.get? a = some p) :
    h.get? a = some p ∨ (∃ b q, h.get? b = some q ∧ p = q.rename (h.cloneOf i)) ∨
      (∃ b r, h.get? b = some (.registry r) ∧ p = .registry (r.copy none)) ∨
      ∃ registry, p = h.snapshotWith i registry := by
  by_cases ha : a.index < h.size
  · exact .inl ((get?_takeSnapshot_of_lt ha).symm.trans hp)
  · rcases exists_of_get?_takeSnapshot (Nat.le_of_not_lt ha) hp with
      ⟨b, -, q, hq, rfl⟩ | copied | ⟨registry, -, rfl, -⟩
    · exact .inr (.inl ⟨b, q, hq, rfl⟩)
    · exact .inr (.inr (.inl copied))
    · exact .inr (.inr (.inr ⟨registry, rfl⟩))

end Heap

namespace Scope

variable {S : Scope} {h h' : Heap} {a : Address}

theorem Change.registry_origin (hc : S.Change h h') {r : Registry}
    (hr : h'.get? a = some (.registry r)) : h.RegistryOrigin r := by
  have written : ∀ {b : Address} {o : Object}, (∀ r', o ≠ .registry r') →
      (h.update b o).get? a = some (.registry r) → h.RegistryOrigin r := by
    intro b o ho hr
    rcases Heap.get?_update_cases hr with same | hr
    · exact absurd same.symm (ho r)
    · exact .old hr
  cases hc with
  | @newContainer o container =>
      rcases Heap.get?_allocate_cases hr with rfl | hr
      · cases container
      · exact .old hr
  | newRegistry owner allowReplace =>
      rcases Heap.get?_allocate_cases hr with same | hr
      · cases same
        exact .fresh owner allowReplace
      · exact .old hr
  | copyRegistry known there owner =>
      rcases Heap.get?_allocate_cases hr with same | hr
      · cases same
        exact .same there (.copy _ owner)
      · exact .old hr
  | openType name =>
      rcases Heap.get?_withType_cases hr with same | same | hr
      · cases same
      · cases same
        exact .fresh _ false
      · exact .old hr
  | instantiate | newRecord =>
      rcases Heap.get?_allocate_cases hr with same | hr
      · cases same
      · exact .old hr
  | snapshot =>
      rcases Heap.get?_takeSnapshot_cases hr with
        hr | ⟨b, q, hq, same⟩ | ⟨b, r, hb, same⟩ | ⟨_, same⟩
      · exact .old hr
      · rw [Heap.rename_eq_registry same.symm] at hq
        exact .old hq
      · cases same
        exact .same hb (.copy _ none)
      · cases same
  | setCell | setList | setDict | setFields => exact written (by simp) hr
  | addHandler writable there value added =>
      rcases Heap.get?_update_cases hr with same | hr
      · cases same
        exact .added there added
      · exact .old hr
  | sealRegistry writable there =>
      rcases Heap.get?_update_cases hr with same | hr
      · cases same
        exact .same there ⟨rfl, rfl⟩
      · exact .old hr
  | ownRegistry =>
      rcases Heap.get?_withOwnRegistry_cases hr with same | same | hr
      · cases same
      · cases same
        exact .fresh _ true
      · exact .old hr

/-! ## Origins of instances and type definitions -/

/-- The type of an instance on a changed heap is sealed there already, or is
the type of an instance that was there before. -/
theorem Change.instance_origin (hc : S.Change h h') {i : Instance}
    (hi : h'.get? a = some (.inst i)) {t : Address} (ht : i.type = some t) :
    h.SealedAt t ∨ ∃ b j, h.get? b = some (.inst j) ∧ j.type = some t := by
  have old : ∀ {b : Address} {j : Instance}, h.get? b = some (.inst j) → i.type = j.type →
      h.SealedAt t ∨ ∃ b j, h.get? b = some (.inst j) ∧ j.type = some t :=
    fun hj same => .inr ⟨_, _, hj, same.symm.trans ht⟩
  cases hc with
  | @newContainer o container =>
      rcases Heap.get?_allocate_cases hi with rfl | hi
      · cases container
      · exact old hi rfl
  | newRegistry | copyRegistry =>
      rcases Heap.get?_allocate_cases hi with same | hi
      · cases same
      · exact old hi rfl
  | openType name =>
      rcases Heap.get?_withType_cases hi with same | same | hi
      · cases same
      · cases same
      · exact old hi rfl
  | instantiate known there registry closed =>
      rcases Heap.get?_allocate_cases hi with same | hi
      · cases same
        cases ht
        exact .inl ⟨_, _, there, registry, closed⟩
      · exact old hi rfl
  | newRecord =>
      rcases Heap.get?_allocate_cases hi with same | hi
      · cases same
        cases ht
      · exact old hi rfl
  | snapshot known there =>
      rcases Heap.get?_takeSnapshot_cases hi with
        hi | ⟨b, q, hq, same⟩ | ⟨b, r, hb, same⟩ | ⟨_, same⟩
      · exact old hi rfl
      · obtain ⟨j, rfl, htype⟩ := Heap.rename_eq_inst same.symm
        exact old hq htype
      · cases same
      · cases same
        exact old there rfl
  | setCell | setList | setDict | addHandler | sealRegistry =>
      rcases Heap.get?_update_cases hi with same | hi
      · cases same
      · exact old hi rfl
  | setFields writable there =>
      rcases Heap.get?_update_cases hi with same | hi
      · cases same
        exact old there rfl
      · exact old hi rfl
  | ownRegistry writable there =>
      rcases Heap.get?_withOwnRegistry_cases hi with same | same | hi
      · cases same
        exact old there rfl
      · cases same
      · exact old hi rfl

/-- A type definition on a changed heap was there before, or has just been
opened with a registry that refuses replacement. -/
theorem Change.type_origin (hc : S.Change h h') {t : TypeDefinition}
    (ht : h'.get? a = some (.typeDefinition t)) :
    h.get? a = some (.typeDefinition t) ∨
      ∃ r, h'.get? t.registry = some (.registry r) ∧ r.allowReplace = false := by
  cases hc with
  | @newContainer o container =>
      rcases Heap.get?_allocate_cases ht with rfl | ht
      · cases container
      · exact .inl ht
  | newRegistry | copyRegistry | instantiate | newRecord =>
      rcases Heap.get?_allocate_cases ht with same | ht
      · cases same
      · exact .inl ht
  | openType name =>
      rcases Heap.get?_withType_cases ht with same | same | ht
      · cases same
        refine .inr ⟨.fresh ("type '" ++ name ++ "'") false, ?_, rfl⟩
        rw [Heap.withType, Heap.get?_allocate_of_lt _ (by simp), Heap.get?_allocate_self]
      · cases same
      · exact .inl ht
  | snapshot =>
      by_cases ha : a.index < h.size
      · exact .inl ((Heap.get?_takeSnapshot_of_lt ha).symm.trans ht)
      · rcases Heap.exists_of_get?_takeSnapshot (Nat.le_of_not_lt ha) ht with
          ⟨b, hb, q, hq, same⟩ | ⟨b, r, hb, same⟩ | ⟨_, -, same, -⟩
        · have copied := Heap.isCopied_of_mem_cloned hb hq
          cases q <;> simp [Object.rename, Object.isCopied] at same copied
        · cases same
        · cases same
  | setCell | setList | setDict | setFields | addHandler | sealRegistry =>
      rcases Heap.get?_update_cases ht with same | ht
      · cases same
      · exact .inl ht
  | ownRegistry =>
      rcases Heap.get?_withOwnRegistry_cases ht with same | same | ht
      · cases same
      · cases same
      · exact .inl ht

end Scope

end OperatorDispatch
