import OperatorDispatch.Proofs.Mutations
import OperatorDispatch.Proofs.Reachability

/-!
# Read-only instances

A snapshot is read-only, and so is every copy of it that a later snapshot leads
to.  The fields of a read-only instance are the same after whatever a run does,
since the one step that writes to fields is there for writable instances only.

The check for it stands where a single field is bound or dropped, and mutations
look up first.  So a mutation of a read-only instance is refused where its plan
has a write, and otherwise does what it does to any instance.  Deletion is the
exception: its check comes before the look-up, so it is refused even where the
field is missing and there would be nothing to drop.
-/

namespace OperatorDispatch

/-! ## No step writes to them -/

namespace Heap

variable {h h' : Heap} {a : Address} {i : Instance}

/-- There is a read-only instance with the fields and the type of the given
one. -/
def StillHas (h : Heap) (a : Address) (i : Instance) : Prop :=
  ∃ i', h.instanceAt? a = some i' ∧ i'.readOnly = true ∧ i'.fields = i.fields ∧ i'.type = i.type

/-- The fields of a read-only instance stay what they are. -/
theorem Later.stillHas (hl : h.Later h') (hi : h.instanceAt? a = some i)
    (closed : i.readOnly = true) : h'.StillHas a i := by
  obtain ⟨o, ho, becomes⟩ := hl.object a _ (instanceAt?_eq_some.mp hi)
  cases becomes with
  | inst type readOnly fields =>
      exact ⟨_, instanceAt?_eq_some.mpr ho, readOnly.trans closed, fields closed, type⟩

end Heap

/-! ## What mutations do to them -/

section

variable {s : State} {a : Address} {i : Instance}

open OperatorDispatch.Action

/-- A mutation of a read-only instance is refused, or has nothing to write and
gives its answer. -/
theorem Mutation.run_readOnly (hi : s.heap.get? a = some (.inst i)) (closed : i.readOnly = true)
    (m : Mutation) :
    ((m.plan s.heap i.fields).writes ≠ [] ∨ ∃ k, m = .delete k) ∧
        m.run (.object a) s = .error (.raised (.readOnly (s.heap.typeNameOf i))) s ∨
      (m.plan s.heap i.fields).writes = [] ∧ (∀ k, m ≠ .delete k) ∧
        m.run (.object a) s = (m.plan s.heap i.fields).answer.give s := by
  cases m with
  | set k v =>
      have refused := (setItem_eq hi k v).trans (setField_readOnly hi closed)
      exact .inl ⟨.inl (by simp [plan]), bind_error refused⟩
  | delete k =>
      have refused := (deleteItem_eq hi (.text k)).trans (deleteField_readOnly hi closed _)
      exact .inl ⟨.inr ⟨k, rfl⟩, bind_error refused⟩
  | pop k default =>
      cases there : i.fields.get? k with
      | some v =>
          refine .inl ⟨.inl (by simp [plan_pop_there there]), ?_⟩
          exact (run_pop k default _ s).trans ((popField_there hi default there).trans
            (bind_error (deleteField_readOnly hi closed _)))
      | none =>
          cases default with
          | none =>
              rw [plan_pop_missing there]
              exact .inr ⟨rfl, by simp, popField_missing hi there⟩
          | some d =>
              rw [plan_pop_default there]
              exact .inr ⟨rfl, by simp, popField_default hi there d⟩
  | popItem =>
      cases entries : i.fields.entries with
      | nil =>
          rw [plan, entries]
          exact .inr ⟨rfl, by simp, bind_error (popFirst_empty hi entries)⟩
      | cons e es =>
          have refused := (popFirst_head hi entries).trans
            (bind_error (deleteField_readOnly hi closed _))
          exact .inl ⟨.inl (by simp [plan, entries]), bind_error refused⟩
  | clear =>
      rw [run_clear hi, plan, OrderedMap.keys]
      cases entries : i.fields.entries with
      | nil => exact .inr ⟨rfl, by simp, rfl⟩
      | cons e es =>
          have refused : clearFields (.object a) (e :: es) s = _ :=
            bind_error (deleteField_readOnly hi closed _)
          exact .inl ⟨.inl (by simp), bind_error refused⟩
  | setDefault k default =>
      cases there : i.fields.get? k with
      | some v =>
          rw [plan, there]
          exact .inr ⟨rfl, by simp, setDefault_there hi there default⟩
      | none =>
          refine .inl ⟨.inl (by simp [plan, there]), ?_⟩
          exact (setDefault_missing hi there default).trans
            (bind_error (setField_readOnly hi closed))
  | merge source =>
      rw [run_merge hi, plan]
      cases entries : s.heap.entries? source with
      | none =>
          exact .inr ⟨rfl, by simp, bind_error (entriesOf_none entries)⟩
      | some es =>
          cases es with
          | nil => exact .inr ⟨rfl, by simp, bind_ok (entriesOf_some entries)⟩
          | cons e es =>
              have refused : setFields (.object a) (e :: es) s = _ :=
                bind_error (setField_readOnly hi closed)
              exact .inl ⟨.inl (by simp), (bind_ok (entriesOf_some entries)).trans
                (bind_error refused)⟩

theorem Answer.eq_fault {answer : Answer} {fault : Fault} {s' : State}
    (given : answer.give s = .error (.raised fault) s') : answer = .fault fault := by
  cases answer with
  | value | entry => cases given
  | fault f =>
      cases given
      rfl

/-- No plan has that refusal for its answer. -/
theorem Mutation.plan_answer_ne_readOnly (m : Mutation) (h : Heap)
    (fields : OrderedMap String Value) (typeName : String) :
    (m.plan h fields).answer ≠ .fault (.readOnly typeName) := by
  cases m with
  | set | clear => simp [plan]
  | delete | pop | popItem | setDefault | merge =>
      simp only [plan]
      split <;> simp

/-! ## The writable twin -/

/-- The state with the instance made writable. -/
def State.unlocked (s : State) (a : Address) (i : Instance) : State :=
  { s with heap := s.heap.update a (.inst { i with readOnly := false }) }

theorem entries?_unlocked (hi : s.heap.get? a = some (.inst i)) (v : Value) :
    (s.unlocked a i).heap.entries? v = s.heap.entries? v := by
  unfold Heap.entries?
  cases v with
  | primitive | function => rfl
  | object b =>
      by_cases hb : b = a
      · subst hb
        have there : (s.unlocked b i).heap.get? b = some (.inst { i with readOnly := false }) :=
          Heap.get?_update_self hi
        simp only [Value.address?, Option.bind_some, hi, there]
      · have there : (s.unlocked a i).heap.get? b = s.heap.get? b := Heap.get?_update_of_ne _ hb
        simp only [Value.address?, Option.bind_some, there]

theorem Mutation.plan_unlocked (hi : s.heap.get? a = some (.inst i)) (m : Mutation) :
    m.plan (s.unlocked a i).heap i.fields = m.plan s.heap i.fields := by
  cases m with
  | set | delete | pop | popItem | clear | setDefault => rfl
  | merge source => simp only [plan, entries?_unlocked hi]

end

/-! ## Read-only instances -/

/-- What a read-only instance is good for. -/
structure State.Protects (s : State) (a : Address) (i : Instance) : Prop where
  /-- No step of any run changes its fields: neither one at the top of the run
  nor one in the midst of a handler, and not in a run that is cut short. -/
  unchanged : ∀ s', (Scope.whole .full).Steps s s' → s'.heap.StillHas a i
  /-- So the fields are the same whatever code is run from here, under any engine
  and in any frame, and whether it succeeds or fails. -/
  lasting : ∀ s', s.LeadsTo .full s' → s'.heap.StillHas a i
  /-- A writable instance with the same fields is written to as planned. -/
  twin : ∀ m : Mutation, m.run (.object a) (s.unlocked a i) =
    (m.plan s.heap i.fields).carryOut a { i with readOnly := false } (s.unlocked a i)
  /-- Refused, with nothing changed, is what would write, and every deletion. -/
  refused : ∀ m : Mutation,
    m.run (.object a) s = .error (.raised (.readOnly (s.heap.typeNameOf i))) s ↔
      (m.plan s.heap i.fields).writes ≠ [] ∨ ∃ k, m = .delete k
  /-- Whatever else is done has the same answer as on the writable instance, and
  changes nothing. -/
  otherwise : ∀ m : Mutation, (m.plan s.heap i.fields).writes = [] → (∀ k, m ≠ .delete k) →
    m.run (.object a) s = (m.plan s.heap i.fields).answer.give s ∧
      m.run (.object a) (s.unlocked a i) =
        (m.plan s.heap i.fields).answer.give (s.unlocked a i)

/-- A read-only instance never changes. -/
theorem readOnly_protects {s : State} {a : Address} {i : Instance} (hs : Reachable s)
    (hi : s.heap.instanceAt? a = some i) (closed : i.readOnly = true) : s.Protects a i := by
  have there := Heap.instanceAt?_eq_some.mp hi
  have unlocked : (s.unlocked a i).heap.get? a = some (.inst { i with readOnly := false }) :=
    Heap.get?_update_self there
  have twin : ∀ m : Mutation, m.run (.object a) (s.unlocked a i) =
      (m.plan s.heap i.fields).carryOut a { i with readOnly := false } (s.unlocked a i) := by
    intro m
    rw [← Mutation.plan_unlocked there m]
    exact m.run_writable unlocked rfl
  have unchanged : ∀ s', (Scope.whole .full).Steps s s' → s'.heap.StillHas a i :=
    fun s' steps => (Scope.Steps.later steps).stillHas hi closed
  refine ⟨unchanged, fun s' leads => unchanged s' (hs.steps_of_leadsTo leads), twin,
    fun m => ?_, fun m idle notDelete => ⟨?_, ?_⟩⟩
  · rcases m.run_readOnly there closed with ⟨writes, refused⟩ | ⟨idle, notDelete, ran⟩
    · exact iff_of_true refused writes
    · refine iff_of_false ?_ ?_
      · rw [ran]
        exact fun given => m.plan_answer_ne_readOnly _ _ _ (Answer.eq_fault given)
      · rintro (writes | ⟨k, same⟩)
        · exact writes idle
        · exact notDelete k same
  · rcases m.run_readOnly there closed with ⟨writes | ⟨k, same⟩, -⟩ | ⟨-, -, ran⟩
    · exact absurd idle writes
    · exact absurd same (notDelete k)
    · exact ran
  · rw [twin m]
    generalize m.plan s.heap i.fields = p at idle ⊢
    obtain ⟨writes, answer⟩ := p
    cases idle
    exact Plan.carryOut_idle unlocked answer

/-- A record with one field, and a snapshot of it. -/
def pictured : Expr :=
  .call (.definition .snapshot) [.call (.definition (.record ["x"])) [.literal (.integer 1)]]

/-- The snapshot may be looked at in ways that would change it if there were
something to change. -/
theorem readOnly_protects_snapshot :
    ∃ i, (State.after 0 pictured).heap.instanceAt? ⟨1⟩ = some i ∧ i.readOnly = true ∧
      (State.after 0 pictured).Protects ⟨1⟩ i ∧
      (Mutation.setDefault "x" .null).run (.object ⟨1⟩) (.after 0 pictured) =
        .ok (.integer 1) (.after 0 pictured) :=
  ⟨_, rfl, rfl, readOnly_protects (reachable_after 0 (Expr.within_full pictured)) rfl rfl, rfl⟩

/-- Deletion of a field that is not there is refused on the snapshot, though
there is nothing to drop, and on a writable instance the field is missed. -/
theorem readOnly_delete_missing :
    ∃ i, (State.after 0 pictured).heap.instanceAt? ⟨1⟩ = some i ∧ i.readOnly = true ∧
      ((Mutation.delete "y").plan (State.after 0 pictured).heap i.fields).writes = [] ∧
      (Mutation.delete "y").run (.object ⟨1⟩) (.after 0 pictured) =
        .error (.raised (.readOnly "Object")) (.after 0 pictured) ∧
      (Mutation.delete "y").run (.object ⟨1⟩) ((State.after 0 pictured).unlocked ⟨1⟩ i) =
        .error (.raised (.missingKey (.legible "y"))) ((State.after 0 pictured).unlocked ⟨1⟩ i) :=
  ⟨_, rfl, rfl, rfl, rfl, rfl⟩

end OperatorDispatch
