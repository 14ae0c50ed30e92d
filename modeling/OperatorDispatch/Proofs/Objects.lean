import OperatorDispatch.Snapshot

/-!
# Objects over time

What can become of an object once it is on the heap.  Objects are never
removed and never change their kind; a type definition and a reading stay as
they are; an instance keeps its type, its read-only mark and, once it has one,
its registry; a registry keeps its owner, is frozen by its seal, and only ever
grows where it refuses replacement.

`Heap.Later h h'` says that every object of `h` is still there in `h'` as
something it can have become.  It is a preorder, and everything a run does to
the heap stays inside it.
-/

namespace OperatorDispatch

/-! ## Look-up by kind -/

namespace Heap

variable {h : Heap} {a : Address}

theorem instanceAt?_eq_some {i : Instance} :
    h.instanceAt? a = some i ↔ h.get? a = some (.inst i) := by
  unfold instanceAt?
  split <;> simp_all

theorem typeAt?_eq_some {t : TypeDefinition} :
    h.typeAt? a = some t ↔ h.get? a = some (.typeDefinition t) := by
  unfold typeAt?
  split <;> simp_all

theorem registryAt?_eq_some {r : Registry} :
    h.registryAt? a = some r ↔ h.get? a = some (.registry r) := by
  unfold registryAt?
  split <;> simp_all

theorem cellAt?_eq_some {v : Value} : h.cellAt? a = some v ↔ h.get? a = some (.cell v) := by
  unfold cellAt?
  split <;> simp_all

theorem instanceOf?_eq_some {v : Value} {i : Instance} :
    h.instanceOf? v = some (a, i) ↔ v = .object a ∧ h.get? a = some (.inst i) := by
  cases v <;> simp [instanceOf?, Value.address?, ← instanceAt?_eq_some]
  grind

theorem typeOf?_eq_some {v : Value} {t : TypeDefinition} :
    h.typeOf? v = some (a, t) ↔ v = .object a ∧ h.get? a = some (.typeDefinition t) := by
  cases v <;> simp [typeOf?, Value.address?, ← typeAt?_eq_some]
  grind

theorem registryOf?_eq_some {v : Value} {r : Registry} :
    h.registryOf? v = some (a, r) ↔ v = .object a ∧ h.get? a = some (.registry r) := by
  cases v <;> simp [registryOf?, Value.address?, ← registryAt?_eq_some]
  grind

theorem cellOf?_eq_some {v w : Value} :
    h.cellOf? v = some (a, w) ↔ v = .object a ∧ h.get? a = some (.cell w) := by
  cases v <;> simp [cellOf?, Value.address?, ← cellAt?_eq_some]
  grind

/-! ## Addresses in use -/

theorem get?_eq_none : h.get? a = none ↔ h.size ≤ a.index := by
  simp [get?, size]

theorem lt_size_of_get? {o : Object} (ho : h.get? a = some o) : a.index < h.size :=
  (Array.getElem?_eq_some_iff.mp ho).1

theorem exists_get?_of_lt (ha : a.index < h.size) : ∃ o, h.get? a = some o :=
  ⟨_, Array.getElem?_eq_getElem ha⟩

@[simp] theorem size_extend (h : Heap) (os : List Object) :
    (h.extend os).size = h.size + os.length := by
  simp [extend, size]

attribute [simp] size_update size_allocate

theorem get?_extend_of_lt (os : List Object) (ha : a.index < h.size) :
    (h.extend os).get? a = h.get? a := by
  simp only [extend, get?]
  exact Array.getElem?_append_left ha

theorem get?_extend_of_le (os : List Object) (ha : h.size ≤ a.index) :
    (h.extend os).get? a = os[a.index - h.size]? := by
  simp only [extend, get?, Array.getElem?_append_right ha, size, List.getElem?_toArray]

theorem get?_allocate_of_lt (o : Object) (ha : a.index < h.size) :
    (h.allocate o).2.get? a = h.get? a := by
  rw [get?_allocate, if_neg (Nat.ne_of_lt ha)]

theorem get?_allocate_self (h : Heap) (o : Object) :
    (h.allocate o).2.get? ⟨h.size⟩ = some o := by
  rw [get?_allocate, if_pos rfl]

theorem get?_update_self {o o' : Object} (ho : h.get? a = some o) :
    (h.update a o').get? a = some o' := by
  rw [get?_update, if_pos ⟨rfl, lt_size_of_get? ho⟩]

theorem get?_update_of_ne {b : Address} (o : Object) (hb : b ≠ a) :
    (h.update a o).get? b = h.get? b := by
  rw [get?_update, if_neg fun hc => hb hc.1.symm]

theorem registryAt?_update {r : Registry} (hr : h.registryAt? a = some r) (r' : Registry) :
    (h.update a (.registry r')).registryAt? a = some r' :=
  registryAt?_eq_some.mpr (get?_update_self (registryAt?_eq_some.mp hr))

end Heap

/-! ## What an object can become -/

/-- The second object is what the first can have become on a heap that had
`frontier` objects then. -/
inductive Object.Becomes (frontier : Nat) : Object → Object → Prop
  | inst {i i' : Instance} (type : i'.type = i.type) (readOnly : i'.readOnly = i.readOnly)
      (fields : i.readOnly = true → i'.fields = i.fields)
      (registry : i'.registry = i.registry ∨
        i.registry = none ∧ ∀ r, i'.registry = some r → frontier ≤ r.index) :
      Becomes frontier (.inst i) (.inst i')
  | typeDefinition (t : TypeDefinition) : Becomes frontier (.typeDefinition t) (.typeDefinition t)
  | registry {r r' : Registry} (owner : r'.owner = r.owner)
      (allowReplace : r'.allowReplace = r.allowReplace)
      (frozen : r.isSealed = true → r' = r)
      (grows : r.allowReplace = false → r.handlers.entries <+: r'.handlers.entries) :
      Becomes frontier (.registry r) (.registry r')
  | cell (v w : Value) : Becomes frontier (.cell v) (.cell w)
  | list (vs ws : List Value) : Becomes frontier (.list vs) (.list ws)
  | dict (es fs : OrderedMap String Value) : Becomes frontier (.dict es) (.dict fs)
  | reading (r : Reading) : Becomes frontier (.reading r) (.reading r)

namespace Object.Becomes

theorem refl (n : Nat) : ∀ o, Object.Becomes n o o
  | .inst _ => .inst rfl rfl (fun _ => rfl) (.inl rfl)
  | .typeDefinition t => .typeDefinition t
  | .registry _ => .registry rfl rfl (fun _ => rfl) (fun _ => List.prefix_rfl)
  | .cell v => .cell v v
  | .list vs => .list vs vs
  | .dict es => .dict es es
  | .reading r => .reading r

theorem trans {m n : Nat} (hmn : m ≤ n) {o o' o'' : Object}
    (h : Object.Becomes m o o') (h' : Object.Becomes n o' o'') : Object.Becomes m o o'' := by
  cases h with
  | inst type readOnly fields registry =>
      cases h' with
      | inst type' readOnly' fields' registry' =>
          refine .inst (type'.trans type) (readOnly'.trans readOnly) ?_ ?_
          · intro hr
            exact (fields' (readOnly.trans hr)).trans (fields hr)
          · rcases registry' with same | ⟨none', fresh'⟩
            · rw [same]; exact registry
            · rcases registry with same | ⟨hnone, -⟩
              · exact .inr ⟨same ▸ none', fun r hr => Nat.le_trans hmn (fresh' r hr)⟩
              · exact .inr ⟨hnone, fun r hr => Nat.le_trans hmn (fresh' r hr)⟩
  | typeDefinition t => cases h'; exact .typeDefinition t
  | registry owner allowReplace frozen grows =>
      cases h' with
      | registry owner' allowReplace' frozen' grows' =>
          refine .registry (owner'.trans owner) (allowReplace'.trans allowReplace) ?_ ?_
          · intro hs
            have same := frozen hs
            exact (frozen' (same ▸ hs)).trans same
          · intro hr
            exact (grows hr).trans (grows' (allowReplace.trans hr))
  | cell v _ => cases h' with | cell _ w => exact .cell v w
  | list vs _ => cases h' with | list _ ws => exact .list vs ws
  | dict es _ => cases h' with | dict _ fs => exact .dict es fs
  | reading r => cases h'; exact .reading r

end Object.Becomes

/-! ## Later heaps -/

/-- Every object of `h` is there in `h'` as something it can have become. -/
structure Heap.Later (h h' : Heap) : Prop where
  size_le : h.size ≤ h'.size
  object : ∀ a o, h.get? a = some o → ∃ o', h'.get? a = some o' ∧ o.Becomes h.size o'

namespace Heap.Later

variable {h h' h'' : Heap} {a : Address}

theorem refl (h : Heap) : h.Later h :=
  ⟨Nat.le_refl _, fun _ o ho => ⟨o, ho, .refl _ o⟩⟩

theorem trans (hl : h.Later h') (hl' : h'.Later h'') : h.Later h'' := by
  refine ⟨Nat.le_trans hl.size_le hl'.size_le, ?_⟩
  intro a o ho
  obtain ⟨o', ho', hb⟩ := hl.object a o ho
  obtain ⟨o'', ho'', hb'⟩ := hl'.object a o' ho'
  exact ⟨o'', ho'', hb.trans hl.size_le hb'⟩

theorem typeAt? (hl : h.Later h') {t : TypeDefinition} (ht : h.typeAt? a = some t) :
    h'.typeAt? a = some t := by
  rw [typeAt?_eq_some] at ht ⊢
  obtain ⟨o', ho', hb⟩ := hl.object a _ ht
  cases hb
  exact ho'

theorem registryAt? (hl : h.Later h') {r : Registry} (hr : h.registryAt? a = some r) :
    ∃ r', h'.registryAt? a = some r' ∧ Object.Becomes h.size (.registry r) (.registry r') := by
  rw [registryAt?_eq_some] at hr
  obtain ⟨o', ho', hb⟩ := hl.object a _ hr
  cases hb with
  | registry owner allowReplace frozen grows =>
      exact ⟨_, registryAt?_eq_some.mpr ho', .registry owner allowReplace frozen grows⟩

theorem instanceAt? (hl : h.Later h') {i : Instance} (hi : h.instanceAt? a = some i) :
    ∃ i', h'.instanceAt? a = some i' ∧ Object.Becomes h.size (.inst i) (.inst i') := by
  rw [instanceAt?_eq_some] at hi
  obtain ⟨o', ho', hb⟩ := hl.object a _ hi
  cases hb with
  | inst type readOnly fields registry =>
      exact ⟨_, instanceAt?_eq_some.mpr ho', .inst type readOnly fields registry⟩

theorem cellAt? (hl : h.Later h') {v : Value} (hv : h.cellAt? a = some v) :
    ∃ w, h'.cellAt? a = some w := by
  rw [cellAt?_eq_some] at hv
  obtain ⟨o', ho', hb⟩ := hl.object a _ hv
  cases hb with
  | cell _ w => exact ⟨w, cellAt?_eq_some.mpr ho'⟩

/-- New objects leave every old one as it is. -/
theorem extend (h : Heap) (os : List Object) : h.Later (h.extend os) := by
  refine ⟨by simp, ?_⟩
  intro a o ho
  exact ⟨o, (get?_extend_of_lt os (lt_size_of_get? ho)).trans ho, .refl _ o⟩

theorem allocate (h : Heap) (o : Object) : h.Later (h.allocate o).2 := by
  refine ⟨by simp, ?_⟩
  intro a o' ho'
  exact ⟨o', (get?_allocate_of_lt o (lt_size_of_get? ho')).trans ho', .refl _ o'⟩

/-- A write is a step in time where the new object is what the old one can
become. -/
theorem update {o o' : Object} (ho : h.get? a = some o) (hb : o.Becomes h.size o') :
    h.Later (h.update a o') := by
  refine ⟨by simp, ?_⟩
  intro b p hp
  by_cases hba : b = a
  · subst hba
    rw [ho] at hp
    cases hp
    exact ⟨o', get?_update_self ho, hb⟩
  · exact ⟨p, (get?_update_of_ne o' hba).trans hp, .refl _ p⟩

end Heap.Later

end OperatorDispatch
