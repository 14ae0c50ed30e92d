import OperatorDispatch.Proofs.Ancestry
import OperatorDispatch.Proofs.Ownership
import OperatorDispatch.Proofs.Sealing

/-!
# Levels of look-up

`classify` gives a value a lookup path, and on the way it follows the parents of
a type definition with as much fuel as the address of the definition has room
for.  Here the same is said without fuel.  The `Lineage` of a type definition
are the registries of the definition and of its ancestors, up to one without a
parent, which are those on the walk of its parents (`lineage_iff`).  The `Levels`
of a value are its own registry, where it is an instance that has one, and then
the lineage of its type.

On a heap where parents are older than their children the fuel is never used
up, so every value has exactly one list of levels, and it is its lookup path.
`resolve` takes the first level that has a handler.
-/

namespace OperatorDispatch

namespace Heap

/-! ## Lineages and levels -/

/-- The registries of a type definition and of its ancestors up to the root. -/
inductive Lineage (h : Heap) : Address → List Address → Prop
  | root {a : Address} {t : TypeDefinition} (there : h.typeAt? a = some t)
      (top : t.parent = none) : Lineage h a [t.registry]
  | child {a parent : Address} {t : TypeDefinition} {levels : List Address}
      (there : h.typeAt? a = some t) (derived : t.parent = some parent)
      (rest : Lineage h parent levels) : Lineage h a (t.registry :: levels)

/-- The registries that look-up on a value goes through, the nearest first. -/
inductive Levels (h : Heap) : Value → List Address → Prop
  | primitive (p : Primitive) : Levels h (.primitive p) []
  | function (f : Function) : Levels h (.function f) []
  /-- A list, a map, a cell, or whatever else is no instance. -/
  | object {a : Address} (plain : h.instanceAt? a = none) : Levels h (.object a) []
  | record {a : Address} {i : Instance} (there : h.instanceAt? a = some i)
      (untagged : i.type = none) : Levels h (.object a) i.registry.toList
  | tagged {a t : Address} {i : Instance} {levels : List Address}
      (there : h.instanceAt? a = some i) (type : i.type = some t) (lineage : Lineage h t levels) :
      Levels h (.object a) (i.registry.toList ++ levels)

variable {h h' : Heap} {a L : Address} {x : Value} {levels levels' : List Address}

theorem chainRegistries_cons {t : TypeDefinition} (there : h.typeAt? a = some t)
    (l : List Address) : h.chainRegistries (a :: l) = t.registry :: h.chainRegistries l := by
  rw [chainRegistries, List.filterMap_cons, there]
  rfl

/-- A lineage are the registries of the type definitions on a walk. -/
theorem lineage_iff : h.Lineage a levels ↔ ∃ l, h.Walk a l ∧ levels = h.chainRegistries l := by
  constructor
  · intro hl
    induction hl with
    | root there top => exact ⟨_, .root there top, (chainRegistries_cons there []).symm⟩
    | child there derived _ ih =>
        obtain ⟨l, walk, rfl⟩ := ih
        exact ⟨_, .child there derived walk, (chainRegistries_cons there l).symm⟩
  · rintro ⟨l, walk, rfl⟩
    induction walk with
    | root there top =>
        rw [chainRegistries_cons there]
        exact .root there top
    | child there derived _ ih =>
        rw [chainRegistries_cons there]
        exact .child there derived ih

theorem Lineage.unique (hl : h.Lineage a levels) (hl' : h.Lineage a levels') :
    levels' = levels := by
  obtain ⟨l, walk, rfl⟩ := lineage_iff.mp hl
  obtain ⟨l', walk', rfl⟩ := lineage_iff.mp hl'
  rw [walk.unique walk']

theorem Levels.unique (hl : h.Levels x levels) (hl' : h.Levels x levels') : levels' = levels := by
  cases hl with
  | primitive | function => cases hl'; rfl
  | object plain =>
      cases hl' with
      | object => rfl
      | record there | tagged there => cases plain.symm.trans there
  | record there untagged =>
      cases hl' with
      | object plain => cases plain.symm.trans there
      | record there' => cases there.symm.trans there'; rfl
      | tagged there' type => cases there.symm.trans there'; cases untagged.symm.trans type
  | tagged there type lineage =>
      cases hl' with
      | object plain => cases plain.symm.trans there
      | record there' untagged => cases there.symm.trans there'; cases untagged.symm.trans type
      | tagged there' type' lineage' =>
          cases there.symm.trans there'
          cases type.symm.trans type'
          rw [lineage.unique lineage']

/-! ## The lookup path -/

/-- The lookup path, read off the heap. -/
theorem path_object (h : Heap) (a : Address) :
    (h.classify (.object a)).path =
      match h.instanceAt? a with
      | some i => h.lookupPath i
      | none => [] := by
  cases ho : h.get? a with
  | none => simp only [classify, instanceAt?, ho, Operand.path]
  | some o => cases o <;> simp only [classify, instanceAt?, ho, Operand.path]

/-- The levels of a value are those on its lookup path. -/
theorem levels_path {V : Vocabulary} (hc : (Scope.whole V).Covers h) (older : h.Older)
    (x : Value) : h.Levels x (h.classify x).path := by
  cases x with
  | primitive p => exact .primitive p
  | function f => exact .function f
  | object a =>
      rw [path_object]
      cases hi : h.instanceAt? a with
      | none => exact .object hi
      | some i =>
          cases ht : i.type with
          | none =>
              have own : h.lookupPath i = i.registry.toList := by simp [lookupPath, ht]
              simp only [own]
              exact .record hi ht
          | some t =>
              obtain ⟨-, d, hd⟩ := (hc.object a _ trivial (instanceAt?_eq_some.mp hi)).2.1 t ht
              have path : h.lookupPath i = i.registry.toList ++ h.chainRegistries (h.chain t) := by
                simp [lookupPath, ht]
              simp only [path]
              exact .tagged hi ht (lineage_iff.mpr ⟨_, walk_chain hc older hd, rfl⟩)

/-! ## What stands on a path -/

/-- A level is a registry of the value's own or that of a type definition. -/
theorem mem_path (hL : L ∈ (h.classify x).path) :
    (∃ a, x = .object a ∧ h.Owns a L) ∨ ∃ d t, h.typeAt? d = some t ∧ t.registry = L := by
  cases x with
  | primitive | function => exact absurd hL List.not_mem_nil
  | object a =>
      rw [path_object] at hL
      split at hL
      · rename_i i hi
        rcases List.mem_append.mp hL with own | inherited
        · exact .inl ⟨a, rfl, i, instanceAt?_eq_some.mp hi, Option.mem_toList.mp own⟩
        · cases ht : i.type with
          | none => simp [ht] at inherited
          | some t =>
              simp only [ht, chainRegistries, List.mem_filterMap,
                Option.map_eq_some_iff] at inherited
              obtain ⟨d, -, t', ht', rfl⟩ := inherited
              exact .inr ⟨d, t', ht', rfl⟩
      · exact absurd hL List.not_mem_nil

end Heap

theorem Scope.Steps.older {S : Scope} {s s' : State} (hs : S.Steps s s')
    (older : s.heap.Older) : s'.heap.Older := by
  refine Scope.Steps.keeps (P := fun s => s.heap.Older) (fun s s' hstep older => ?_) hs older
  cases hstep with
  | heap change => exact older.change change
  | bind | sight | log | takeRows | span | increment | reset | limit | share | operators | number
  | settle => exact older

namespace ReachableWithin

variable {V : Vocabulary} {s s' : State} {a L : Address} {x : Value} {levels : List Address}

/-- From a reachable state on, the levels of a value are its lookup path. -/
theorem levels_iff (hs : ReachableWithin V s) (steps : (Scope.whole V).Steps s s') :
    s'.heap.Levels x levels ↔ levels = (s'.heap.classify x).path := by
  have path := Heap.levels_path (Scope.Steps.confines steps hs.confines).heap
    (Scope.Steps.older steps hs.older) x
  constructor
  · exact fun h => path.unique h
  · rintro rfl
    exact path

theorem registry_of_mem_path (hs : ReachableWithin V s) (hL : L ∈ (s.heap.classify x).path) :
    ∃ r, s.heap.get? L = some (.registry r) := by
  rcases Heap.mem_path hL with ⟨a, -, own⟩ | ⟨d, t, ht, rfl⟩
  · exact hs.confines.heap.owned own
  · obtain ⟨r, hr, -⟩ := hs.wellSealed.growing d t (Heap.typeAt?_eq_some.mp ht)
    exact ⟨r, hr⟩

/-- The registry of one instance stands on the path of that instance only. -/
theorem eq_owner_of_mem_path (hs : ReachableWithin V s) (own : s.heap.Owns a L)
    (hL : L ∈ (s.heap.classify x).path) : x = .object a := by
  rcases Heap.mem_path hL with ⟨b, rfl, own'⟩ | ⟨d, t, ht, rfl⟩
  · rw [hs.unshared a b L own own']
  · -- registries of types refuse replacement, those of instances do not
    obtain ⟨r, hr, refuses⟩ := hs.wellSealed.growing d t (Heap.typeAt?_eq_some.mp ht)
    obtain ⟨i, hi, link⟩ := own
    have there : s.heap.overrides i = some r := by
      rw [Heap.overrides, link, Option.bind_some, Heap.registryAt?_eq_some.mpr hr]
    simp [hs.ownReplaceable a i r hi there] at refuses

end ReachableWithin

end OperatorDispatch
