import OperatorDispatch.Proofs.Faithful

/-!
# Values inside themselves

The fields of an instance may lead back to it.  The closure of its fields then
has the instance among its members and clones it with the rest, and the snapshot
proper is one more instance on top.  So a way back to the instance does not lead
back to the snapshot: all of them lead to that one clone, which they lead back to
in turn, and which is as writable as the instance was.
-/

namespace OperatorDispatch

namespace Heap

variable {S : Scope} {h : Heap} {a : Address} {i : Instance}

/-- A way back from an instance to itself. -/
def WayBack (h : Heap) (a : Address) (path : List PathStep) : Prop :=
  path ≠ [] ∧ h.follow path (.object a) = some (.object a)

/-! ## The clone of the instance -/

/-- The snapshot proper lies above all clones. -/
theorem size_withClones_le_takeSnapshot (h : Heap) (i : Instance) :
    (h.withClones i).size ≤ (h.takeSnapshot i).1.index := by
  have last : ∀ (h' : Heap) (o : Object), (h'.allocate o).1.index = h'.size := fun _ _ => rfl
  unfold takeSnapshot
  split
  · exact Nat.le_refl _
  · simp only [last, size_allocate]
    exact Nat.le_succ _

theorem cloneOf_ne_takeSnapshot (ha : a ∈ h.cloned i) : h.cloneOf i a ≠ (h.takeSnapshot i).1 := by
  intro same
  have below := cloneAddress_lt h.size ha
  have above := size_withClones_le_takeSnapshot h i
  rw [size_withClones, ← same] at above
  exact Nat.not_le.mpr below above

section WayBack

variable (hc : S.Covers h) (hk : S.known a) (hi : h.get? a = some (.inst i))
  {path : List PathStep} (back : h.WayBack a path)

include hc hk hi back

/-- An instance that its fields lead back to is cloned with what they lead to. -/
theorem mem_cloned_of_wayBack : a ∈ h.cloned i := by
  obtain ⟨nonempty, led⟩ := back
  obtain ⟨p, ps, rfl⟩ := List.exists_cons_of_ne_nil nonempty
  rcases followed_of_follow hc hk hi led rfl with cloned | ⟨o, ho, shared⟩
  · exact cloned
  · cases hi.symm.trans ho
    cases shared

/-- From the snapshot a way back leads to the clone. -/
theorem follow_wayBack :
    (h.takeSnapshot i).2.follow path (.object (h.takeSnapshot i).1) =
      some (.object (h.cloneOf i a)) := by
  obtain ⟨nonempty, led⟩ := back
  obtain ⟨p, ps, rfl⟩ := List.exists_cons_of_ne_nil nonempty
  rw [follow_takeSnapshot hc hk hi, led]
  rfl

/-- From the clone it leads to the clone again. -/
theorem follow_wayBack_clone :
    (h.takeSnapshot i).2.follow path (.object (h.cloneOf i a)) =
      some (.object (h.cloneOf i a)) := by
  have image := image_takeSnapshot hc (hc.object a _ hk hi)
  have inside : ∀ b, Value.object a = .object b → h.Followed i b := by
    rintro b ⟨⟩
    exact .inl (mem_cloned_of_wayBack hc hk hi back)
  have renamed := image.follow path inside
  rw [back.2] at renamed
  exact renamed

end WayBack

end Heap

namespace Action

variable {s : State} {a : Address} {i : Instance} {path : List PathStep}

/-- In the snapshot of an instance that its fields lead back to, every way back
leads to one and the same clone.  The clone is not the snapshot: it can be
written to if the instance could. -/
theorem snapshot_of_knot (hs : Reachable s) (hi : s.heap.get? a = some (.inst i))
    (back : s.heap.WayBack a path) :
    ∃ b c s' j k, definition .snapshot [.object a] s = .ok (.object b) s' ∧ c ≠ b ∧
      s.heap.size ≤ c.index ∧
      s'.heap.get? b = some (.inst j) ∧ j.readOnly = true ∧
      s'.heap.get? c = some (.inst k) ∧ k.readOnly = i.readOnly ∧ k.type = i.type ∧
      k.fields.keys = i.fields.keys ∧
      ∀ path, s.heap.WayBack a path →
        s'.heap.follow path (.object b) = some (.object c) ∧ s'.heap.WayBack c path := by
  have hc := hs.confines.heap
  have cloned := Heap.mem_cloned_of_wayBack hc trivial hi back
  obtain ⟨registry, snapshot, -⟩ := Heap.get?_takeSnapshot_self s.heap i
  refine ⟨_, s.heap.cloneOf i a, _, _, _, definition_snapshot_eq hc trivial hi,
    Heap.cloneOf_ne_takeSnapshot cloned, Heap.le_cloneAddress _ cloned, snapshot, rfl,
    Heap.get?_takeSnapshot_cloneOf cloned hi, rfl, rfl, OrderedMap.keys_mapValues _ _, ?_⟩
  intro path back
  refine ⟨Heap.follow_wayBack hc trivial hi back, back.1, ?_⟩
  exact Heap.follow_wayBack_clone hc trivial hi back

/-- The record that is a field of its own has such a clone, and it is writable. -/
theorem snapshot_of_knot_writable :
    (State.after 0 knot).heap.WayBack ⟨1⟩ [.field "knot"] ∧
      ∃ b c s' k, definition .snapshot [.object ⟨1⟩] (.after 0 knot) = .ok (.object b) s' ∧
        c ≠ b ∧ s'.heap.follow [.field "knot"] (.object b) = some (.object c) ∧
        s'.heap.get? c = some (.inst k) ∧ k.readOnly = false := by
  have back : (State.after 0 knot).heap.WayBack ⟨1⟩ [.field "knot"] := ⟨nofun, rfl⟩
  obtain ⟨i, hi⟩ := get?_knot
  have open_ : i.readOnly = false := by
    cases hi
    rfl
  obtain ⟨b, c, s', j, k, taken, apart, -, -, -, there, writable, -, -, ways⟩ :=
    snapshot_of_knot (reachable_after 0 (Expr.within_full _)) hi back
  exact ⟨back, b, c, s', k, taken, apart, (ways _ back).1, there, writable.trans open_⟩

/-- The way back from the record leads from its snapshot to something else, which
can be written to. -/
theorem knot_left_open :
    (State.after 0 knot).heap.follow [.field "knot"] (.object ⟨1⟩) = some (.object ⟨1⟩) ∧
      ∃ s' k, definition .snapshot [.object ⟨1⟩] (.after 0 knot) = .ok (.object ⟨4⟩) s' ∧
        s'.heap.follow [.field "knot"] (.object ⟨4⟩) = some (.object ⟨3⟩) ∧
        s'.heap.get? ⟨3⟩ = some (.inst k) ∧ k.readOnly = false :=
  ⟨rfl, _, _, rfl, rfl, rfl, rfl⟩

end Action

end OperatorDispatch
