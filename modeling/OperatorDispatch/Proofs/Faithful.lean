import OperatorDispatch.Proofs.Paths
import OperatorDispatch.Proofs.Reachability

/-!
# Snapshots are faithful

What the fields of an instance lead to is found again under its snapshot: the
clones are an image of the closure of the fields, and what is not cloned is
shared.  So every path reads the same on both sides, two paths meet on one side
exactly where they meet on the other, and look-up finds the same handlers.

Look-up leaves the closure where it goes on to the type definitions.  These are
old objects, and a snapshot leaves old objects as they are.
-/

namespace OperatorDispatch

namespace Heap

variable {S : Scope} {h h' : Heap} {a : Address} {i : Instance}

/-! ## The image -/

/-- What a snapshot of the instance has clones of, or shares. -/
def Followed (h : Heap) (i : Instance) (a : Address) : Prop :=
  a ∈ h.cloned i ∨ ∃ o, h.get? a = some o ∧ o.isCopied = false

theorem isCopied_of_mem_cloned {o : Object} (ha : a ∈ h.cloned i) (ho : h.get? a = some o) :
    o.isCopied = true := by
  obtain ⟨p, hp⟩ := copied?_of_mem_closure ha
  obtain ⟨hp, hcopied⟩ := copied?_eq_some.mp hp
  cases ho.symm.trans hp
  exact hcopied

theorem cloneOf_of_not_isCopied {o : Object} (ho : h.get? a = some o)
    (hcopied : o.isCopied = false) : h.cloneOf i a = a := by
  refine cloneAddress_of_not_mem h.size fun ha => ?_
  simp [isCopied_of_mem_cloned ha ho] at hcopied

theorem rename_of_not_isCopied {o : Object} (φ : Address → Address) (ho : o.isCopied = false) :
    o.rename φ = o := by
  cases o <;> simp_all [Object.isCopied, Object.rename]

/-- An address is followed where it is a root of the closure, if there is
anything at it. -/
theorem followed_of_root {o : Object} (ho : h.get? a = some o)
    (ha : a ∈ i.fields.values.flatMap Value.references) : h.Followed i a := by
  cases hcopied : o.isCopied with
  | true => exact .inl (mem_closure_of_root ha (copied?_eq_some.mpr ⟨ho, hcopied⟩))
  | false => exact .inr ⟨o, ho, hcopied⟩

theorem image_takeSnapshot (hc : S.Covers h) (hi : S.Admits h (.inst i)) :
    h.Image (h.Followed i) (h.cloneOf i) (h.takeSnapshot i).2 := by
  refine ⟨?_, ?_, ?_⟩
  · rintro a (ha | ⟨o, ho, hcopied⟩)
    · obtain ⟨o, ho⟩ := exists_of_mem_cloned ha
      exact ⟨o, ho, get?_takeSnapshot_cloneOf ha ho⟩
    · refine ⟨o, ho, ?_⟩
      rw [cloneOf_of_not_isCopied ho hcopied, rename_of_not_isCopied _ hcopied,
        get?_takeSnapshot_of_lt (lt_size_of_get? ho), ho]
  · rintro a o (ha | ⟨p, hp, hcopied⟩) ho b hb
    · obtain ⟨hk, hlt⟩ := Scope.known_of_mem_cloned hc hi a ha
      obtain ⟨p, hp⟩ := exists_get?_of_lt (hc.references hk ho b hb).2
      cases hcopied : p.isCopied with
      | true => exact .inl (mem_closure_of_reference ha ho hb (copied?_eq_some.mpr ⟨hp, hcopied⟩))
      | false => exact .inr ⟨p, hp, hcopied⟩
    · cases ho.symm.trans hp
      cases o <;> simp_all [Object.isCopied, Object.references]
  · exact fun a o _ ho hcopied => cloneOf_of_not_isCopied ho hcopied

/-! ## Paths from the snapshot -/

section Paths

variable (hc : S.Covers h) (hk : S.known a) (hi : h.get? a = some (.inst i))

include hc hk hi

theorem followed_of_field {v : Value} (hv : v ∈ i.fields.values) {b : Address}
    (hb : v = .object b) : h.Followed i b := by
  subst hb
  have self : S.Knows h (.object a) := ⟨hk, lt_size_of_get? hi⟩
  have known := hc.known_field self rfl hi hv
  obtain ⟨o, ho⟩ := exists_get?_of_lt known.2
  refine followed_of_root ho (List.mem_flatMap.mpr ⟨_, hv, ?_⟩)
  exact Value.mem_references.mpr rfl

/-- A path that reads anything at all reads the clone of what it read. -/
theorem follow_takeSnapshot (p : PathStep) (path : List PathStep) :
    (h.takeSnapshot i).2.follow (p :: path) (.object (h.takeSnapshot i).1) =
      (h.follow (p :: path) (.object a)).map (Value.rename (h.cloneOf i)) := by
  have image := image_takeSnapshot hc (hc.object a _ hk hi)
  obtain ⟨registry, hself, -⟩ := get?_takeSnapshot_self h i
  have read : (h.snapshotWith i registry).read? p =
      ((Object.inst i).read? p).map (Value.rename (h.cloneOf i)) := by
    cases p <;> simp [snapshotWith, Object.read?, OrderedMap.get?_mapValues]
  have here : (h.takeSnapshot i).2.follow (p :: path) (.object (h.takeSnapshot i).1) =
      (((Object.inst i).read? p).map (Value.rename (h.cloneOf i))).bind
        ((h.takeSnapshot i).2.follow path) := by
    simp [follow, Value.address?, hself, read]
  have there : h.follow (p :: path) (.object a) =
      ((Object.inst i).read? p).bind (h.follow path) := by
    simp [follow, Value.address?, hi]
  rw [here, there]
  cases hv : (Object.inst i).read? p with
  | none => rfl
  | some v =>
      refine image.follow path fun b hb => ?_
      refine followed_of_field hc hk hi (v := v) ?_ hb
      cases p with
      | field k => exact OrderedMap.mem_values_of_get? hv
      | item | entry | content => cases hv

/-- What a path leads to is followed. -/
theorem followed_of_follow {p : PathStep} {path : List PathStep} {w : Value}
    (hw : h.follow (p :: path) (.object a) = some w) {b : Address} (hb : w = .object b) :
    h.Followed i b := by
  have image := image_takeSnapshot hc (hc.object a _ hk hi)
  obtain ⟨v, hv, hw⟩ := Option.bind_eq_some_iff.mp hw
  simp only [Value.address?, Option.bind_some, hi] at hv
  refine image.follow_inside path (fun c hcv => ?_) hw b hb
  refine followed_of_field hc hk hi (v := v) ?_ hcv
  cases p with
  | field k => exact OrderedMap.mem_values_of_get? hv
  | item | entry | content => cases hv

theorem contentAt_takeSnapshot (p : PathStep) (path : List PathStep) :
    (h.takeSnapshot i).2.contentAt (.object (h.takeSnapshot i).1) (p :: path) =
      h.contentAt (.object a) (p :: path) := by
  have image := image_takeSnapshot hc (hc.object a _ hk hi)
  unfold contentAt
  rw [follow_takeSnapshot hc hk hi]
  cases hw : h.follow (p :: path) (.object a) with
  | none => rfl
  | some w =>
      have same := image.contentOf (v := w) fun b hb => followed_of_follow hc hk hi hw hb
      simp [same]

theorem lt_size_of_follow {p : PathStep} {path : List PathStep} {b : Address}
    (hb : h.follow (p :: path) (.object a) = some (.object b)) : b.index < h.size := by
  rcases followed_of_follow hc hk hi hb rfl with hmem | ⟨o, ho, -⟩
  · exact (Scope.known_of_mem_cloned hc (hc.object a _ hk hi) b hmem).2
  · exact lt_size_of_get? ho

/-- Two paths meet in the snapshot exactly where they meet in the original. -/
theorem meet_takeSnapshot {p q : PathStep} {ps qs : List PathStep} :
    (∃ x, (h.takeSnapshot i).2.follow (p :: ps) (.object (h.takeSnapshot i).1) = some (.object x) ∧
        (h.takeSnapshot i).2.follow (q :: qs) (.object (h.takeSnapshot i).1) = some (.object x)) ↔
      ∃ y, h.follow (p :: ps) (.object a) = some (.object y) ∧
        h.follow (q :: qs) (.object a) = some (.object y) := by
  simp only [follow_takeSnapshot hc hk hi, Option.map_eq_some_iff, Value.rename_eq_object]
  constructor
  · rintro ⟨x, ⟨_, hp, y, rfl, rfl⟩, _, hq, z, rfl, hzy⟩
    have hy := lt_size_of_follow hc hk hi hp
    have hz := lt_size_of_follow hc hk hi hq
    obtain rfl := (cloneAddress_inj hz hy).mp hzy
    exact ⟨z, hp, hq⟩
  · rintro ⟨y, hp, hq⟩
    exact ⟨h.cloneOf i y, ⟨_, hp, y, rfl, rfl⟩, _, hq, y, rfl, rfl⟩

end Paths

/-! ## Look-up -/

/-- The handler that a type definition and its ancestors give. -/
def typeHandler (h : Heap) (type : Option Address) (sel : Selector) : Option Function :=
  match type with
  | none => none
  | some t => (h.chainRegistries (h.chain t)).findSome? (h.handlerAt sel)

/-- Handlers of an instance's own come first. -/
theorem resolve_instance (hi : h.get? a = some (.inst i)) (sel : Selector) :
    h.resolve (h.classify (.object a)) sel =
      ((h.overrides i).bind (·.handlers.get? sel)).or (h.typeHandler i.type sel) := by
  simp only [classify, hi, resolve, lookupPath, List.findSome?_append]
  congr 1
  · cases hr : i.registry with
    | none => simp [overrides, hr]
    | some r => simp [overrides, hr, handlerAt]
  · cases i.type <;> rfl

/-- Chains stay the same as long as type definitions do. -/
theorem chainFrom_congr (hc : S.Covers h)
    (types : ∀ a t, h.typeAt? a = some t → h'.typeAt? a = some t) :
    ∀ (fuel : Nat) {a : Address}, S.KnowsType h a → h'.chainFrom fuel a = h.chainFrom fuel a
  | 0, _, _ => rfl
  | fuel + 1, a, ⟨hk, t, ht⟩ => by
      have admitted := hc.object a _ hk (typeAt?_eq_some.mp ht)
      simp only [chainFrom, ht, types a t ht]
      cases hp : t.parent with
      | none => rfl
      | some p => simp only [chainFrom_congr hc types fuel (admitted.2 p hp)]

theorem typeAt?_of_mem_chainFrom : ∀ {fuel : Nat} {a b : Address}, b ∈ h.chainFrom fuel a →
    ∃ t, h.typeAt? b = some t
  | 0, _, _, hb => absurd hb List.not_mem_nil
  | fuel + 1, a, b, hb => by
      unfold chainFrom at hb
      split at hb
      · exact absurd hb List.not_mem_nil
      · rename_i t ht
        split at hb
        · exact ⟨t, List.mem_singleton.mp hb ▸ ht⟩
        · rcases List.mem_cons.mp hb with rfl | hb
          · exact ⟨t, ht⟩
          · exact typeAt?_of_mem_chainFrom hb

/-- Look-up from a type on stays the same as long as old objects do. -/
theorem typeHandler_congr (hc : S.Covers h)
    (old : ∀ a, a.index < h.size → h'.get? a = h.get? a) {type : Option Address}
    (htype : ∀ t, type = some t → S.KnowsType h t) (sel : Selector) :
    h'.typeHandler type sel = h.typeHandler type sel := by
  cases type with
  | none => rfl
  | some t =>
      have types : ∀ b d, h.typeAt? b = some d → h'.typeAt? b = some d := by
        intro b d hd
        rw [typeAt?_eq_some] at hd ⊢
        rw [old b (lt_size_of_get? hd), hd]
      have chain : h'.chain t = h.chain t := chainFrom_congr hc types _ (htype t rfl)
      have registries : h'.chainRegistries (h.chain t) = h.chainRegistries (h.chain t) := by
        refine List.filterMap_congr fun b hb => ?_
        obtain ⟨d, hd⟩ := typeAt?_of_mem_chainFrom hb
        rw [hd, types b d hd]
      simp only [typeHandler, chain, registries]
      rw [← List.head?_filterMap, ← List.head?_filterMap]
      congr 1
      refine List.filterMap_congr fun r hr => ?_
      obtain ⟨b, hb, hreg⟩ := List.mem_filterMap.mp hr
      obtain ⟨d, hd, rfl⟩ := Option.map_eq_some_iff.mp hreg
      have hknown := hc.known_of_mem_chainFrom _ (htype t rfl).1 hb
      have admitted := hc.object b _ hknown (typeAt?_eq_some.mp hd)
      obtain ⟨-, reg, hreg⟩ := admitted.1
      have hlt := lt_size_of_get? (registryAt?_eq_some.mp hreg)
      simp only [handlerAt, Heap.registryAt?, old _ hlt]

section Lookup

variable (hc : S.Covers h) (hk : S.known a) (hi : h.get? a = some (.inst i))

include hc hk hi

theorem resolve_takeSnapshot (sel : Selector) :
    let (b, h') := h.takeSnapshot i
    h'.resolve (h'.classify (.object b)) sel = h.resolve (h.classify (.object a)) sel := by
  dsimp only
  have admitted := hc.object a _ hk hi
  obtain ⟨registry, hself, -⟩ := get?_takeSnapshot_self h i
  have own := registryAt?_takeSnapshot (fun r hr => (admitted.2.2 r hr).2) hself
  have types : (h.takeSnapshot i).2.typeHandler i.type sel = h.typeHandler i.type sel :=
    typeHandler_congr hc (fun _ => get?_takeSnapshot_of_lt) admitted.2.1 sel
  rw [resolve_instance hself, resolve_instance hi, types]
  congr 1
  simp only [overrides, own]
  cases i.registry.bind h.registryAt? <;> rfl

theorem resolve_clone {p : PathStep} {path : List PathStep} {v : Value}
    (hv : h.follow (p :: path) (.object a) = some v) (sel : Selector) :
    (h.takeSnapshot i).2.resolve
        ((h.takeSnapshot i).2.classify (v.rename (h.cloneOf i))) sel =
      h.resolve (h.classify v) sel := by
  have image := image_takeSnapshot hc (hc.object a _ hk hi)
  cases v with
  | primitive | function => rfl
  | object b =>
      have hb := followed_of_follow hc hk hi hv rfl
      obtain ⟨o, ho, ho'⟩ := image.object b hb
      show (h.takeSnapshot i).2.resolve
        ((h.takeSnapshot i).2.classify (.object (h.cloneOf i b))) sel = _
      cases o with
      | inst j =>
          have hkb : S.known b := by
            rcases hb with hb | ⟨p, hp, hcopied⟩
            · exact (Scope.known_of_mem_cloned hc (hc.object a _ hk hi) b hb).1
            · cases ho.symm.trans hp
              cases hcopied
          have admitted := hc.object b _ hkb ho
          have types : (h.takeSnapshot i).2.typeHandler j.type sel = h.typeHandler j.type sel :=
            typeHandler_congr hc (fun _ => get?_takeSnapshot_of_lt) admitted.2.1 sel
          have own : (h.takeSnapshot i).2.overrides
              { j with
                fields := j.fields.mapValues (Value.rename (h.cloneOf i))
                registry := j.registry.map (h.cloneOf i) } = h.overrides j :=
            image.overrides hb ho
          rw [resolve_instance ho', resolve_instance ho, types, own]
      | typeDefinition | registry | cell | list | dict | reading =>
          simp [classify, ho, ho', Object.rename, resolve]

end Lookup

/-! ## The copy as a whole -/

/-- What makes the instance at `b` a faithful copy of the one at `a`. -/
structure FaithfulCopy (h : Heap) (a : Address) (h' : Heap) (b : Address) : Prop where
  /-- Every path can be followed on both sides or on neither, and what is found
  at its end is the same. -/
  content : ∀ path, path ≠ [] → h'.contentAt (.object b) path = h.contentAt (.object a) path
  /-- Two paths meet on both sides or on neither. -/
  meeting : ∀ p q, p ≠ [] → q ≠ [] →
    ((∃ x, h'.follow p (.object b) = some (.object x) ∧
        h'.follow q (.object b) = some (.object x)) ↔
      ∃ y, h.follow p (.object a) = some (.object y) ∧ h.follow q (.object a) = some (.object y))
  handlers : ∀ sel,
    h'.resolve (h'.classify (.object b)) sel = h.resolve (h.classify (.object a)) sel
  /-- What is nested finds the handlers that the original of it finds. -/
  nestedHandlers : ∀ path, path ≠ [] → ∀ v w, h.follow path (.object a) = some v →
    h'.follow path (.object b) = some w → ∀ sel,
      h'.resolve (h'.classify w) sel = h.resolve (h.classify v) sel

theorem faithfulCopy_takeSnapshot (hc : S.Covers h) (hk : S.known a)
    (hi : h.get? a = some (.inst i)) :
    h.FaithfulCopy a (h.takeSnapshot i).2 (h.takeSnapshot i).1 := by
  refine ⟨?_, ?_, resolve_takeSnapshot hc hk hi, ?_⟩
  · intro path hpath
    obtain ⟨p, ps, rfl⟩ := List.exists_cons_of_ne_nil hpath
    exact contentAt_takeSnapshot hc hk hi p ps
  · intro p q hp hq
    obtain ⟨p, ps, rfl⟩ := List.exists_cons_of_ne_nil hp
    obtain ⟨q, qs, rfl⟩ := List.exists_cons_of_ne_nil hq
    exact meet_takeSnapshot hc hk hi
  · intro path hpath v w hv hw sel
    obtain ⟨p, ps, rfl⟩ := List.exists_cons_of_ne_nil hpath
    have renamed := follow_takeSnapshot hc hk hi p ps
    rw [hv, hw] at renamed
    cases renamed
    exact resolve_clone hc hk hi hv sel

end Heap

namespace Action

variable {s : State} {a : Address} {i : Instance}

/-- Taking a snapshot always succeeds, and touches the heap only. -/
theorem definition_snapshot_eq {S : Scope} (hc : S.Covers s.heap) (hk : S.known a)
    (hi : s.heap.get? a = some (.inst i)) :
    definition .snapshot [.object a] s =
      .ok (.object (s.heap.takeSnapshot i).1) { s with heap := (s.heap.takeSnapshot i).2 } := by
  have admitted := hc.object a _ hk hi
  have found : instanceOf (.object a) s = .ok (a, i) s := by
    have hfound := Heap.instanceOf?_eq_some.mpr ⟨rfl, hi⟩
    simp only [instanceOf, bind, EStateM.bind, heap, hfound, demand_some]
  have taken := snapshot_eq (s := s) (i := i) fun r hr => (admitted.2.2 r hr).2
  exact (bind_ok found).trans (bind_ok taken)

/-- Whatever the fields of an instance lead to, shared objects and cycles
included, its snapshot is a faithful copy. -/
theorem snapshot_faithful (hs : Reachable s) (hi : s.heap.get? a = some (.inst i)) :
    ∃ b s', definition .snapshot [.object a] s = .ok (.object b) s' ∧
      s.heap.FaithfulCopy a s'.heap b := by
  have hc := hs.confines.heap
  refine ⟨_, _, definition_snapshot_eq hc trivial hi, ?_⟩
  exact Heap.faithfulCopy_takeSnapshot hc trivial hi

/-- A record that is a field of its own, next to a list. -/
def knot : Expr :=
  .sequence [
    .assign "knot" (.call (.definition (.record ["items"]))
      [.call (.container .newList) [.literal (.integer 1)]]),
    .call (.container .set) [.variable "knot", .literal (.text "knot"), .variable "knot"]]

theorem get?_knot : ∃ i, (State.after 0 knot).heap.get? ⟨1⟩ = some (.inst i) :=
  ⟨_, rfl⟩

theorem snapshot_faithful_knot :
    ∃ b s', definition .snapshot [.object ⟨1⟩] (.after 0 knot) = .ok (.object b) s' ∧
      (State.after 0 knot).heap.FaithfulCopy ⟨1⟩ s'.heap b := by
  obtain ⟨i, hi⟩ := get?_knot
  exact snapshot_faithful (reachable_after 0 (Expr.within_full _)) hi

end Action

end OperatorDispatch
