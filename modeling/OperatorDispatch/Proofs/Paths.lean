import OperatorDispatch.Lookup
import OperatorDispatch.Proofs.Objects

/-!
# Paths

What can be read from a value: a path of field keys, list indexes, map keys and
cell reads leads to another value, and what is found there is its `Content`.
Paths do not enter type definitions.  For an instance the content includes its
type definition and the registry of its own handlers, so what is read along
paths is also what can be resolved at the level of instances.

An `Image` is a part of one heap found again in another, under new addresses.
Reading is the same on both sides (`Image.contentAt`).  There are two uses: a
snapshot is an image of what it was taken of, and a part of the heap that
nothing writes to is an image of itself.
-/

namespace OperatorDispatch

/-! ## Reading -/

/-- One step of a path. -/
inductive PathStep where
  | field (key : String)
  | item (index : Nat)
  | entry (key : String)
  | content
deriving DecidableEq

/-- What is found at the end of a path. -/
inductive Content where
  | primitive (p : Primitive)
  | function (f : Function)
  | inst (type : Option Address) (readOnly : Bool) (keys : List String)
      (overrides : Option Registry)
  | registry (r : Registry)
  | cell
  | list (length : Nat)
  | dict (keys : List String)
  /-- A type definition or a reading, which is never copied. -/
  | shared (a : Address)
  | missing

/-- The value that one step of a path reads. -/
def Object.read? : Object → PathStep → Option Value
  | .inst i, .field k => i.fields.get? k
  | .list vs, .item n => vs[n]?
  | .dict es, .entry k => es.get? k
  | .cell v, .content => some v
  | _, _ => none

namespace Heap

/-- The value that a path leads to. -/
def follow (h : Heap) : List PathStep → Value → Option Value
  | [], v => some v
  | p :: path, v => ((v.address?.bind h.get?).bind (·.read? p)).bind (h.follow path)

/-- The handlers of an instance's own. -/
def overrides (h : Heap) (i : Instance) : Option Registry :=
  i.registry.bind h.registryAt?

def contentOf (h : Heap) : Value → Content
  | .primitive p => .primitive p
  | .function f => .function f
  | .object a =>
    match h.get? a with
    | some (.inst i) => .inst i.type i.readOnly i.fields.keys (h.overrides i)
    | some (.registry r) => .registry r
    | some (.cell _) => .cell
    | some (.list vs) => .list vs.length
    | some (.dict es) => .dict es.keys
    | some (.typeDefinition _) | some (.reading _) => .shared a
    | none => .missing

/-- What is found at the end of a path, where it can be followed. -/
def contentAt (h : Heap) (v : Value) (path : List PathStep) : Option Content :=
  (h.follow path v).map h.contentOf

end Heap

/-! ## References and renaming -/

namespace Value

@[simp] theorem mem_references {v : Value} {a : Address} : a ∈ v.references ↔ v = .object a := by
  cases v <;> simp [references, address?, eq_comm]

@[simp] theorem rename_eq_object {v : Value} {φ : Address → Address} {b : Address} :
    v.rename φ = .object b ↔ ∃ a, v = .object a ∧ φ a = b := by
  cases v <;> simp [rename]

theorem rename_id (v : Value) : v.rename id = v := by
  cases v <;> rfl

end Value

namespace Object

theorem references_of_read? {o : Object} {p : PathStep} {v : Value} (hv : o.read? p = some v)
    {a : Address} (ha : a ∈ v.references) : a ∈ o.references := by
  unfold read? at hv
  split at hv
  · exact List.mem_append_left _
      (List.mem_flatMap.mpr ⟨v, OrderedMap.mem_values_of_get? hv, ha⟩)
  · exact List.mem_flatMap.mpr ⟨v, List.mem_of_getElem? hv, ha⟩
  · exact List.mem_flatMap.mpr ⟨v, OrderedMap.mem_values_of_get? hv, ha⟩
  · cases hv
    exact ha
  · cases hv

theorem read?_rename (φ : Address → Address) (o : Object) (p : PathStep) :
    (o.rename φ).read? p = (o.read? p).map (Value.rename φ) := by
  cases o <;> cases p <;> simp [rename, read?, OrderedMap.get?_mapValues]

theorem mem_references_rename {φ : Address → Address} {o : Object} {b : Address}
    (hb : b ∈ (o.rename φ).references) : ∃ a ∈ o.references, φ a = b := by
  have values : ∀ vs : List Value, b ∈ (vs.map (Value.rename φ)).flatMap Value.references →
      ∃ a ∈ vs.flatMap Value.references, φ a = b := by
    intro vs hb
    simp only [List.mem_flatMap, List.mem_map, Value.mem_references] at hb ⊢
    obtain ⟨w, ⟨v, hv, rfl⟩, hw⟩ := hb
    obtain ⟨a, rfl, hab⟩ := Value.rename_eq_object.mp hw
    exact ⟨a, ⟨_, hv, rfl⟩, hab⟩
  cases o with
  | inst i =>
      rcases List.mem_append.mp hb with hb | hb
      · rw [OrderedMap.values_mapValues] at hb
        obtain ⟨a, ha, hab⟩ := values _ hb
        exact ⟨a, List.mem_append_left _ ha, hab⟩
      · obtain ⟨a, ha, hab⟩ := Option.map_eq_some_iff.mp (by simpa using hb)
        exact ⟨a, List.mem_append_right _ (by simp [ha]), hab⟩
  | cell v =>
      obtain ⟨a, rfl, hab⟩ := Value.rename_eq_object.mp (Value.mem_references.mp hb)
      exact ⟨a, Value.mem_references.mpr rfl, hab⟩
  | list vs => exact values vs hb
  | dict es =>
      refine values es.values ?_
      rwa [← OrderedMap.values_mapValues]
  | typeDefinition | registry | reading => simp [rename, references] at hb

end Object

/-! ## Images -/

/-- The objects of `P` in `h`, found again in `h'` under the addresses that `φ`
gives them.  They refer to each other only, and what is never copied keeps its
address. -/
structure Heap.Image (P : Address → Prop) (φ : Address → Address) (h h' : Heap) : Prop where
  object : ∀ a, P a → ∃ o, h.get? a = some o ∧ h'.get? (φ a) = some (o.rename φ)
  closed : ∀ a o, P a → h.get? a = some o → ∀ b ∈ o.references, P b
  shared : ∀ a o, P a → h.get? a = some o → o.isCopied = false → φ a = a

namespace Heap.Image

variable {P : Address → Prop} {φ : Address → Address} {h h' : Heap} (image : h.Image P φ h')

include image

/-- What can be read from inside the part lies inside the part. -/
theorem follow_inside : ∀ (path : List PathStep) {v w : Value}, (∀ a, v = .object a → P a) →
    h.follow path v = some w → ∀ a, w = .object a → P a
  | [], v, w, hv, hw => by
      cases hw
      exact hv
  | p :: path, v, w, hv, hw => by
      obtain ⟨u, hu, hw⟩ := Option.bind_eq_some_iff.mp hw
      obtain ⟨o, ho, hu⟩ := Option.bind_eq_some_iff.mp hu
      obtain ⟨a, ha, ho⟩ := Option.bind_eq_some_iff.mp ho
      refine follow_inside path (fun b hb => ?_) hw
      refine image.closed a o (hv a ?_) ho b (Object.references_of_read? hu ?_)
      · cases v <;> simp_all [Value.address?]
      · exact Value.mem_references.mpr hb

theorem follow : ∀ (path : List PathStep) {v : Value}, (∀ a, v = .object a → P a) →
    h'.follow path (v.rename φ) = (h.follow path v).map (Value.rename φ)
  | [], _, _ => rfl
  | p :: path, v, hv => by
      cases v with
      | primitive | function => rfl
      | object a =>
          obtain ⟨o, ho, ho'⟩ := image.object a (hv a rfl)
          have here : h'.follow (p :: path) (.object (φ a)) =
              ((o.read? p).map (Value.rename φ)).bind (h'.follow path) := by
            simp [Heap.follow, Value.address?, ho', Object.read?_rename]
          have there : h.follow (p :: path) (.object a) = (o.read? p).bind (h.follow path) := by
            simp [Heap.follow, Value.address?, ho]
          show h'.follow (p :: path) (.object (φ a)) = _
          rw [here, there]
          cases hu : o.read? p with
          | none => rfl
          | some u =>
              refine follow path fun b hb => ?_
              exact image.closed a o (hv a rfl) ho b
                (Object.references_of_read? hu (Value.mem_references.mpr hb))

theorem registryAt? {a : Address} (ha : P a) : h'.registryAt? (φ a) = h.registryAt? a := by
  obtain ⟨o, ho, ho'⟩ := image.object a ha
  unfold Heap.registryAt?
  rw [ho, ho']
  cases o <;> rfl

theorem overrides {a : Address} {i : Instance} (ha : P a) (hi : h.get? a = some (.inst i)) :
    (i.registry.map φ).bind h'.registryAt? = h.overrides i := by
  cases hr : i.registry with
  | none => simp [Heap.overrides, hr]
  | some r =>
      have hmem : P r := image.closed a _ ha hi r (by simp [Object.references, hr])
      simp [Heap.overrides, hr, image.registryAt? hmem]

theorem contentOf {v : Value} (hv : ∀ a, v = .object a → P a) :
    h'.contentOf (v.rename φ) = h.contentOf v := by
  cases v with
  | primitive | function => rfl
  | object a =>
      have ha := hv a rfl
      obtain ⟨o, ho, ho'⟩ := image.object a ha
      show h'.contentOf (.object (φ a)) = _
      unfold Heap.contentOf
      simp only [ho, ho']
      cases o with
      | inst i =>
          have same := image.overrides ha ho
          simp only [Object.rename, OrderedMap.keys_mapValues, Content.inst.injEq, true_and]
          exact same
      | registry | cell => rfl
      | list vs => simp [Object.rename]
      | dict es => simp [Object.rename, OrderedMap.keys_mapValues]
      | typeDefinition | reading => simp [Object.rename, image.shared a _ ha ho rfl]

/-- The same is read along the same path. -/
theorem contentAt {v : Value} (hv : ∀ a, v = .object a → P a) (path : List PathStep) :
    h'.contentAt (v.rename φ) path = h.contentAt v path := by
  unfold Heap.contentAt
  rw [image.follow path hv]
  cases hw : h.follow path v with
  | none => rfl
  | some w => simp [image.contentOf (image.follow_inside path hv hw)]

end Heap.Image

/-! ## Parts that stay as they are -/

theorem Object.rename_id (o : Object) : o.rename id = o := by
  have same : Value.rename id = id := funext Value.rename_id
  have values : ∀ m : OrderedMap String Value, m.mapValues id = m := by
    intro m
    apply OrderedMap.ext
    simp [OrderedMap.mapValues]
  cases o <;> simp [rename, same, values]

namespace Heap

variable {P : Address → Prop} {h h' : Heap}

/-- A part that nothing leads out of and nothing writes to is its own image. -/
theorem image_of_same (there : ∀ a, P a → ∃ o, h.get? a = some o)
    (same : ∀ a, P a → h'.get? a = h.get? a)
    (closed : ∀ a o, P a → h.get? a = some o → ∀ b ∈ o.references, P b) :
    h.Image P id h' := by
  refine ⟨fun a ha => ?_, closed, fun _ _ _ _ _ => rfl⟩
  obtain ⟨o, ho⟩ := there a ha
  exact ⟨o, ho, by rw [Object.rename_id, id, same a ha, ho]⟩

/-- On both heaps every path from the value leads to the same value, and the
same is found there. -/
def ReadsSame (h h' : Heap) (v : Value) : Prop :=
  ∀ path, h'.follow path v = h.follow path v ∧ h'.contentAt v path = h.contentAt v path

/-- What is read inside a part that stays as it is stays the same. -/
theorem readsSame_of_image (image : h.Image P id h') {v : Value}
    (hv : ∀ a, v = .object a → P a) : h.ReadsSame h' v := by
  intro path
  have followed := image.follow path hv
  have found := image.contentAt hv path
  rw [Value.rename_id] at followed found
  rw [followed, funext Value.rename_id]
  exact ⟨Option.map_id', found⟩

end Heap

end OperatorDispatch
