import OperatorDispatch.Proofs.Faithful

/-!
# Snapshots are isolated

Everything changeable that a snapshot leads to is new, and taking it leaves
every old object as it was.  So the old objects and those of the snapshot are
two parts of the heap that do not lead to each other, but for what can never
change.  Writes to objects of the one part therefore change nothing that is
read from the other, whatever values they write; the frame of a scope that
leaves out the other part says so.
-/

namespace OperatorDispatch

namespace Heap

variable {S : Scope} {h : Heap} {a : Address} {i : Instance}

/-! ## What a snapshot leads to -/

/-- The second object can be got at from the first one, without passing
through a type definition. -/
def Leads (h : Heap) : Address → Address → Prop :=
  Relation.ReflTransGen fun a b => ∃ o, h.get? a = some o ∧ b ∈ o.references

/-- A type definition or a reading. -/
def Unchangeable (h : Heap) (a : Address) : Prop :=
  ∃ o, h.get? a = some o ∧ o.isCopied = false

theorem references_of_not_isCopied {o : Object} (ho : o.isCopied = false) : o.references = [] := by
  cases o <;> simp_all [Object.isCopied, Object.references]

theorem le_cloneOf_of_followed {b : Address} (hb : h.Followed i b) :
    h.size ≤ (h.cloneOf i b).index ∨ h.Unchangeable (h.cloneOf i b) := by
  rcases hb with hb | ⟨o, ho, hcopied⟩
  · exact .inl (le_cloneAddress h.size hb)
  · rw [cloneOf_of_not_isCopied ho hcopied]
    exact .inr ⟨o, ho, hcopied⟩

section Snapshot

variable (hc : S.Covers h) (hk : S.known a) (hi : h.get? a = some (.inst i))

include hc hk hi

/-- A new object refers to new objects and to unchangeable ones. -/
theorem references_takeSnapshot {x y : Address} {o : Object} (hx : h.size ≤ x.index)
    (ho : (h.takeSnapshot i).2.get? x = some o) (hy : y ∈ o.references) :
    h.size ≤ y.index ∨ h.Unchangeable y := by
  have image := image_takeSnapshot hc (hc.object a _ hk hi)
  rcases exists_of_get?_takeSnapshot hx ho with
    ⟨b, hb, p, hp, rfl⟩ | ⟨b, r, -, rfl⟩ | ⟨registry, -, rfl, hfresh⟩
  · obtain ⟨c, hmem, rfl⟩ := Object.mem_references_rename hy
    exact le_cloneOf_of_followed (image.closed b p (.inl hb) hp c hmem)
  · cases hy
  · rcases List.mem_append.mp hy with hy | hy
    · obtain ⟨v, hv, hy⟩ := List.mem_flatMap.mp hy
      rw [OrderedMap.values_mapValues] at hv
      obtain ⟨w, hw, rfl⟩ := List.mem_map.mp hv
      obtain ⟨c, rfl, rfl⟩ := Value.rename_eq_object.mp (Value.mem_references.mp hy)
      exact le_cloneOf_of_followed (followed_of_field hc hk hi hw rfl)
    · exact .inl (hfresh y (by simpa using hy))

/-- The registry of a new instance is new: registries are never shared. -/
theorem le_registry_of_takeSnapshot {x r : Address} {k : Instance} (hx : h.size ≤ x.index)
    (hkx : (h.takeSnapshot i).2.get? x = some (.inst k)) (hr : k.registry = some r) :
    h.size ≤ r.index := by
  have covers := hc.takeSnapshot (hc.object a _ hk hi)
  have admitted := covers.object x _ (hc.frontier x hx).1 hkx
  obtain ⟨-, registry, hregistry⟩ := admitted.2.2 r hr
  have linked : r ∈ (Object.inst k).references := by simp [Object.references, hr]
  rcases references_takeSnapshot hc hk hi hx hkx linked with hle | ⟨o, ho, hcopied⟩
  · exact hle
  · have there := registryAt?_eq_some.mp hregistry
    rw [get?_takeSnapshot_of_lt (lt_size_of_get? ho), ho] at there
    cases there
    cases hcopied

/-- What the snapshot leads to is new or can never change. -/
theorem new_of_leads {x : Address}
    (hx : (h.takeSnapshot i).2.Leads (h.takeSnapshot i).1 x) :
    h.size ≤ x.index ∨ h.Unchangeable x := by
  induction hx with
  | refl => exact .inl (takeSnapshot_index h i).1
  | tail _ last ih =>
      obtain ⟨o, ho, hy⟩ := last
      rcases ih with hnew | ⟨p, hp, hcopied⟩
      · exact references_takeSnapshot hc hk hi hnew ho hy
      · rw [get?_takeSnapshot_of_lt (lt_size_of_get? hp), hp] at ho
        cases ho
        rw [references_of_not_isCopied hcopied] at hy
        cases hy

end Snapshot

/-! ## Two parts of the heap -/

namespace Later

variable {h' : Heap}

theorem get?_of_not_isCopied (hl : h.Later h') {o : Object} (ho : h.get? a = some o)
    (hcopied : o.isCopied = false) : h'.get? a = some o := by
  obtain ⟨o', ho', hb⟩ := hl.object a o ho
  cases hb <;> simp_all [Object.isCopied]

end Later

/-- The objects that a snapshot has made, and what they share. -/
def OfSnapshot (h : Heap) (i : Instance) (x : Address) : Prop :=
  (h.size ≤ x.index ∧ x.index < (h.takeSnapshot i).2.size) ∨ h.Unchangeable x

section Parts

variable (hc : S.Covers h) (hk : S.known a) (hi : h.get? a = some (.inst i))

include hc hk hi

/-- Where the objects of the snapshot stay as they are, what is read from it
stays as it is. -/
theorem image_ofSnapshot {h' : Heap} (hl : (h.takeSnapshot i).2.Later h')
    (same : ∀ x, h.size ≤ x.index → x.index < (h.takeSnapshot i).2.size →
      h'.get? x = (h.takeSnapshot i).2.get? x) :
    (h.takeSnapshot i).2.Image (h.OfSnapshot i) id h' := by
  refine image_of_same ?_ ?_ ?_
  · rintro x (⟨-, hlt⟩ | ⟨o, ho, -⟩)
    · exact exists_get?_of_lt hlt
    · exact ⟨o, (get?_takeSnapshot_of_lt (lt_size_of_get? ho)).trans ho⟩
  · rintro x (⟨hle, hlt⟩ | ⟨o, ho, hcopied⟩)
    · exact same x hle hlt
    · have there := (get?_takeSnapshot_of_lt (i := i) (lt_size_of_get? ho)).trans ho
      rw [hl.get?_of_not_isCopied there hcopied, there]
  · rintro x o (⟨hle, hlt⟩ | ⟨p, hp, hcopied⟩) ho y hy
    · have covers := hc.takeSnapshot (hc.object a _ hk hi)
      rcases references_takeSnapshot hc hk hi hle ho hy with hnew | hshared
      · exact .inl ⟨hnew, (covers.references (hc.frontier x hle).1 ho y hy).2⟩
      · exact .inr hshared
    · rw [get?_takeSnapshot_of_lt (lt_size_of_get? hp), hp] at ho
      cases ho
      rw [references_of_not_isCopied hcopied] at hy
      cases hy

end Parts

/-- Where old objects stay as they are, what is read from them does too. -/
theorem image_old {h' : Heap} (hc : S.Covers h) (hall : ∀ x, S.known x)
    (same : ∀ x, x.index < h.size → h'.get? x = h.get? x) :
    h.Image (fun x => x.index < h.size) id h' :=
  image_of_same (fun _ => exists_get?_of_lt) same
    fun x _ _ ho y hy => (hc.references (hall x) ho y hy).2

end Heap

/-! ## Writes -/

/-- The commands that write to the object that is their first operand. -/
def Command.isWrite : Command → Bool
  | .container .writeCell | .container .set | .container .delete | .container .pop
  | .container .popItem | .container .clear | .container .setDefault | .container .merge
  | .definition (.override _) | .definition (.addTo _) | .definition .sealRegistry => true
  | _ => false

/-- A write to an object that `P` holds of, with any values at hand, and
whether it succeeds or fails. -/
inductive State.WritesOnce (P : Address → Prop) (s : State) : State → Prop
  | write (call : Function → Arguments → Action Value) (engine : Engine) {c : Command}
      {a : Address} {operands : List Value} (kind : c.isWrite = true) (target : P a)
      (there : ∀ x, .object x ∈ .object a :: operands → x.index < s.heap.size) :
      WritesOnce P s
        (Action.finalState (Action.command call engine c (.object a :: operands) s))

/-- Any number of such writes. -/
abbrev State.Writes (P : Address → Prop) : State → State → Prop :=
  Relation.ReflTransGen (State.WritesOnce P)

namespace Action

variable {S : Scope} {s : State} {call : Function → Arguments → Action Value} {engine : Engine}

/-- A write stays in a scope that may write to its target, and to the registry
of its target where that is an instance. -/
theorem runs_write_command (hs : S.Confines s) {c : Command} {a : Address} {operands : List Value}
    (kind : c.isWrite = true) (hw : S.writable a)
    (hown : ∀ i r, s.heap.get? a = some (.inst i) → i.registry = some r → S.writable r)
    (hvs : ∀ v ∈ .object a :: operands, S.Knows s.heap v) :
    Runs S.Step s (command call engine c (.object a :: operands)) fun _ _ => True := by
  have target : ∀ v, (Value.object a :: operands).head? = some v → S.MayWrite v := by
    rintro v ⟨⟩ b ⟨⟩
    exact hw
  have effect : ∀ {m : Action Unit}, (Runs S.Step s m fun _ _ => True) →
      Runs S.Step s (do m; return .null : Action Value) fun _ _ => True :=
    fun hm => runs_bind hm fun _ _ _ _ => runs_pure trivial
  cases c with
  | container c => exact (runs_container hs hvs target).mono fun _ _ _ _ => trivial
  | inspection | dispatch | telemetry => cases kind
  | definition c =>
      cases c with
      | override selector =>
          match operands with
          | [handler] =>
              refine effect (runs_overrideHandler hs ?_ (hvs handler (by simp)) ?_)
              · rintro b ⟨⟩
                exact hw
              · rintro b i r ⟨⟩ hi hr
                exact hown i r hi hr
          | [] | _ :: _ :: _ => exact runs_raise
      | addTo selector =>
          match operands with
          | [handler] =>
              refine runs_registryOf_bind ?_
              rintro b r ⟨⟩ -
              exact effect (runs_addNamed hw (hvs handler (by simp)))
          | [] | _ :: _ :: _ => exact runs_raise
      | sealRegistry =>
          match operands with
          | [] =>
              refine runs_registryOf_bind ?_
              rintro b r ⟨⟩ -
              exact effect ((runs_sealRegistry hw).mono fun _ _ _ _ => trivial)
          | _ :: _ => exact runs_raise
      | _ => cases kind

/-- Writes to some objects, and where they are instances to their registries,
stay in a scope that may write to these. -/
theorem steps_of_writes {P : Address → Prop} {t : State} (hs : S.Confines s)
    (hall : ∀ x, S.known x) (hfull : S.vocabulary = .full) (hw : ∀ a, P a → S.writable a)
    (there : ∀ a, P a → a.index < s.heap.size)
    (hown : ∀ a i r, P a → s.heap.get? a = some (.inst i) → i.registry = some r → S.writable r)
    (writes : s.Writes P t) : S.Steps s t := by
  induction writes with
  | refl => exact .refl
  | @tail t t' _ last ih =>
      have ht := Scope.Steps.confines ih hs
      have hl := Scope.Steps.later ih
      cases last with
      | write call engine kind target inRange =>
          refine ih.trans (runs_write_command ht kind (hw _ target) ?_ ?_).steps
          · -- the registry is the one from the beginning, or made by a write
            intro i r hi hr
            obtain ⟨o, ho⟩ := Heap.exists_get?_of_lt (there _ target)
            obtain ⟨o', ho', hb⟩ := hl.object _ o ho
            cases hi.symm.trans ho'
            cases hb with
            | inst _ _ _ registry =>
                rcases registry with same | ⟨-, fresh⟩
                · exact hown _ _ r target ho (same ▸ hr)
                · exact (hs.heap.frontier r (fresh r hr)).2
          · intro v hv
            cases v with
            | primitive => trivial
            | function f =>
                show f.body.within S.vocabulary = true
                rw [hfull]
                exact Expr.within_full _
            | object x => exact ⟨hall x, inRange x hv⟩

end Action

/-! ## Isolation -/

/-- What makes the snapshot at `b`, taken in `s` of the instance at `a`,
isolated. -/
structure State.IsolatedSnapshot (s : State) (a : Address) (s' : State) (b : Address) : Prop where
  reachable : Reachable s'
  /-- Nothing but the heap is touched. -/
  heapOnly : s' = { s with heap := s'.heap }
  /-- Old objects stay as they are. -/
  old : ∀ x, x.index < s.heap.size → s'.heap.get? x = s.heap.get? x
  /-- Every changeable object that the snapshot leads to is new. -/
  fresh : ∀ x o, s'.heap.Leads b x → s'.heap.get? x = some o → o.isCopied = true →
    s.heap.size ≤ x.index
  /-- At any later time, writes to old objects change nothing that is read from
  the snapshot. -/
  snapshotKept : ∀ t t', Reachable t → s'.heap.Later t.heap →
    (∀ x, s.heap.size ≤ x.index → x.index < s'.heap.size →
      t.heap.get? x = s'.heap.get? x) →
    t.Writes (fun x => x.index < s.heap.size) t' → s'.heap.ReadsSame t'.heap (.object b)
  /-- At any later time, writes to objects of the snapshot change nothing that
  is read from the original. -/
  originalKept : ∀ t t', Reachable t → s'.heap.Later t.heap →
    (∀ x, x.index < s.heap.size → t.heap.get? x = s.heap.get? x) →
    t.Writes (fun x => s.heap.size ≤ x.index ∧ x.index < s'.heap.size) t' →
    s.heap.ReadsSame t'.heap (.object a)

section Isolation

variable {s t t' : State} {a : Address} {i : Instance}

/-- An instance that was there keeps its registry or has one from later on. -/
theorem Heap.Later.registry_of_inst {h h' : Heap} (hl : h.Later h') {x r : Address}
    {j : Instance} (hx : x.index < h.size) (hj : h'.get? x = some (.inst j))
    (hr : j.registry = some r) :
    (∃ k, h.get? x = some (.inst k) ∧ k.registry = some r) ∨ h.size ≤ r.index := by
  obtain ⟨o, ho⟩ := Heap.exists_get?_of_lt hx
  obtain ⟨o', ho', hb⟩ := hl.object x o ho
  cases hj.symm.trans ho'
  cases hb with
  | @inst k _ _ _ _ registry =>
      rcases registry with same | ⟨-, fresh⟩
      · exact .inl ⟨k, ho, same ▸ hr⟩
      · exact .inr (fresh r hr)

/-- Everything is known, and everything but the objects of the snapshot may be
written to. -/
def Scope.outside (h : Heap) (i : Instance) : Scope where
  known _ := True
  writable x := x.index < h.size ∨ (h.takeSnapshot i).2.size ≤ x.index
  vocabulary := .full

/-- Everything is known, and everything but the objects that were there before
may be written to. -/
def Scope.above (h : Heap) : Scope where
  known _ := True
  writable x := h.size ≤ x.index
  vocabulary := .full

section Kept

variable (hs : Reachable s) (hi : s.heap.get? a = some (.inst i)) (ht : Reachable t)
  (hl : (s.heap.takeSnapshot i).2.Later t.heap)

include hs hi ht hl

/-- Writes to old objects stay outside the snapshot. -/
theorem readsSame_snapshot
    (same : ∀ x, s.heap.size ≤ x.index → x.index < (s.heap.takeSnapshot i).2.size →
      t.heap.get? x = (s.heap.takeSnapshot i).2.get? x)
    (writes : t.Writes (fun x => x.index < s.heap.size) t') :
    (s.heap.takeSnapshot i).2.ReadsSame t'.heap (.object (s.heap.takeSnapshot i).1) := by
  have hc := hs.confines.heap
  have hsize := (Heap.later_takeSnapshot s.heap i).size_le
  have steps : (Scope.outside s.heap i).Steps t t' := by
    refine Action.steps_of_writes (ht.confines.of_whole rfl (fun _ => trivial) ?_)
      (fun _ => trivial) rfl (fun _ hx => .inl hx) ?_ ?_ writes
    · exact fun x hx => .inr (Nat.le_trans hl.size_le hx)
    · exact fun x hx => Nat.lt_of_lt_of_le hx (Nat.le_trans hsize hl.size_le)
    · intro x j r hx hj hr
      rcases hl.registry_of_inst (Nat.lt_of_lt_of_le hx hsize) hj hr with ⟨k, hk, hr⟩ | hnew
      · rw [Heap.get?_takeSnapshot_of_lt hx] at hk
        have admitted := hc.object x _ trivial hk
        obtain ⟨-, reg, hreg⟩ := admitted.2.2 r hr
        exact .inl (Heap.lt_size_of_get? (Heap.registryAt?_eq_some.mp hreg))
      · exact .inr hnew
  have image := Heap.image_ofSnapshot hc trivial hi (hl.trans steps.later) fun x hle hlt => by
    rw [← same x hle hlt]
    refine steps.frame ?_ (Nat.lt_of_lt_of_le hlt hl.size_le)
    rintro (h | h) <;> omega
  refine Heap.readsSame_of_image image ?_
  rintro x ⟨⟩
  exact .inl (Heap.takeSnapshot_index _ _)

/-- Writes to objects of the snapshot stay above the old ones. -/
theorem readsSame_original
    (same : ∀ x, x.index < s.heap.size → t.heap.get? x = s.heap.get? x)
    (writes : t.Writes
      (fun x => s.heap.size ≤ x.index ∧ x.index < (s.heap.takeSnapshot i).2.size) t') :
    s.heap.ReadsSame t'.heap (.object a) := by
  have hc := hs.confines.heap
  have hsize := (Heap.later_takeSnapshot s.heap i).size_le
  have steps : (Scope.above s.heap).Steps t t' := by
    refine Action.steps_of_writes (ht.confines.of_whole rfl (fun _ => trivial) ?_)
      (fun _ => trivial) rfl (fun _ hx => hx.1) ?_ ?_ writes
    · exact fun x hx => Nat.le_trans hsize (Nat.le_trans hl.size_le hx)
    · exact fun x hx => Nat.lt_of_lt_of_le hx.2 hl.size_le
    · intro x j r hx hj hr
      rcases hl.registry_of_inst hx.2 hj hr with ⟨k, hk, hr⟩ | hnew
      · exact Heap.le_registry_of_takeSnapshot hc trivial hi hx.1 hk hr
      · exact Nat.le_trans hsize hnew
  have kept : ∀ x, x.index < s.heap.size → t'.heap.get? x = s.heap.get? x := by
    intro x hx
    rw [← same x hx]
    refine steps.frame ?_ (Nat.lt_of_lt_of_le hx (Nat.le_trans hsize hl.size_le))
    exact Nat.not_le.mpr hx
  refine Heap.readsSame_of_image (Heap.image_old hc (fun _ => trivial) kept) ?_
  rintro x ⟨⟩
  exact Heap.lt_size_of_get? hi

end Kept

/-- Code that takes a snapshot of its receiver leads there. -/
theorem reachable_takeSnapshot (hs : Reachable s) (hi : s.heap.get? a = some (.inst i)) :
    Reachable { s with heap := (s.heap.takeSnapshot i).2 } := by
  have taken := Action.definition_snapshot_eq hs.confines.heap trivial hi
  have evaluated : Action.evaluate (Action.callAt (.own .standard) 0) (.own .standard)
      (some ⟨.object a, none⟩) (.call (.definition .snapshot) [.variable "this"]) s =
      .ok (.object (s.heap.takeSnapshot i).1)
        { s with heap := (s.heap.takeSnapshot i).2 } := taken
  have known : (Scope.whole .full).KnowsFrame s.heap (some ⟨.object a, none⟩) := by
    rintro _ ⟨⟩
    exact ⟨⟨trivial, Heap.lt_size_of_get? hi⟩, by simp⟩
  have reached := ReachableWithin.evaluate hs 0
    (show (Scope.whole .full).KnowsEngine s.heap (.own .standard) from trivial) known
    (show (Expr.call (.definition .snapshot) [.variable "this"]).within .full = true from rfl)
  rwa [evaluated] at reached

/-- A snapshot shares nothing changeable with what was there before, and the
two stay apart. -/
theorem Action.snapshot_isolated (hs : Reachable s) (hi : s.heap.get? a = some (.inst i)) :
    ∃ b s', Action.definition .snapshot [.object a] s = .ok (.object b) s' ∧
      s.IsolatedSnapshot a s' b := by
  have hc := hs.confines.heap
  refine ⟨_, _, Action.definition_snapshot_eq hc trivial hi, ?_, rfl, ?_, ?_, ?_, ?_⟩
  · exact reachable_takeSnapshot hs hi
  · exact fun x => Heap.get?_takeSnapshot_of_lt
  · intro x o hx ho hcopied
    rcases Heap.new_of_leads hc trivial hi hx with hnew | ⟨p, hp, hshared⟩
    · exact hnew
    · have there := (Heap.get?_takeSnapshot_of_lt (i := i) (Heap.lt_size_of_get? hp)).trans hp
      cases ho.symm.trans there
      simp [hcopied] at hshared
  · exact fun t t' ht hl same writes => readsSame_snapshot hs hi ht hl same writes
  · exact fun t t' ht hl same writes => readsSame_original hs hi ht hl same writes

theorem Action.snapshot_isolated_knot :
    ∃ b s', definition .snapshot [.object ⟨1⟩] (.after 0 knot) = .ok (.object b) s' ∧
      (State.after 0 knot).IsolatedSnapshot ⟨1⟩ s' b := by
  obtain ⟨i, hi⟩ := get?_knot
  exact snapshot_isolated (reachable_after 0 (Expr.within_full _)) hi

end Isolation

end OperatorDispatch
