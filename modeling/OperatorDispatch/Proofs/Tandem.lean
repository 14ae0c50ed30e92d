import OperatorDispatch.Proofs.Actions
import OperatorDispatch.Proofs.Reproduction

/-!
# Actions on two sides of a gap

Two actions go in tandem when they take a state and what it is displaced by a gap to
such states again and end the same way, with the result of the one across the gap from
the result of the other.  The states agree in everything but addresses.

The rules follow the shape of the code, one for each way of touching a state and one
for sequencing.
-/

namespace OperatorDispatch

/-! ## States -/

/-- A sighting from before the two runs parted, or one on either side of the gap. -/
def Sighting.Displaced (g : Gap) (x x' : Sighting) : Prop :=
  x' = x ∨ x'.value = across g x.value ∧ x.heap.Displaced g x'.heap

/-- A dispatch by its operator and its ending. -/
def DispatchRecord.gist (r : DispatchRecord) : Operator × DispatchEnding :=
  (r.application.operator, r.ending)

/-- The second state is the first one with its heap displaced: the same but for
addresses, and but for what the records of dispatches say beside their gist. -/
structure State.Displaced (g : Gap) (s s' : State) : Prop where
  heap : s.heap.Displaced g s'.heap
  bindings : s'.bindings = across g s.bindings
  sightings : List.Forall₂ (Sighting.Displaced g) s.sightings s'.sightings
  dispatches : s'.dispatches.map DispatchRecord.gist = s.dispatches.map DispatchRecord.gist
  journal : s'.journal = s.journal
  ledger : s'.ledger = s.ledger
  operators : s'.operators = s.operators
  shared : s'.shared = across g s.shared
  nextFunction : s'.nextFunction = s.nextFunction

namespace Action

variable {α β : Type} [Movable α] [Movable β] {g : Gap} {s s' : State}

/-- The same ending on both sides. -/
inductive EndTandem (g : Gap) : EStateM.Result Interruption State α →
    EStateM.Result Interruption State α → Prop
  | ok (x : α) {t t' : State} (moved : t.Displaced g t') :
      EndTandem g (.ok x t) (.ok (across g x) t')
  | error (e : Interruption) {t t' : State} (moved : t.Displaced g t') :
      EndTandem g (.error e t) (.error e t')

/-- Actions that do the same on the two sides of a gap. -/
def Tandem (g : Gap) (m m' : Action α) : Prop :=
  ∀ s s', s.Displaced g s' → EndTandem g (m s) (m' s')

/-! ## Sequencing -/

omit [Movable β] in
theorem EndTandem.elim {r r' : EStateM.Result Interruption State α} (h : EndTandem g r r') :
    (∃ x t t', r = .ok x t ∧ r' = .ok (across g x) t' ∧ t.Displaced g t') ∨
      ∃ e t t', r = .error e t ∧ r' = .error e t' ∧ t.Displaced g t' := by
  cases h with
  | ok x moved => exact .inl ⟨x, _, _, rfl, rfl, moved⟩
  | error e moved => exact .inr ⟨e, _, _, rfl, rfl, moved⟩

/-- What comes after two actions that end the same way. -/
theorem EndTandem.bind {m m' : Action α} {f f' : α → Action β} (hm : EndTandem g (m s) (m' s'))
    (hf : ∀ x t t', m s = .ok x t → t.Displaced g t' → EndTandem g (f x t) (f' (across g x) t')) :
    EndTandem g ((m >>= f) s) ((m' >>= f') s') := by
  rcases hm.elim with ⟨x, t, t', h, h', moved⟩ | ⟨e, t, t', h, h', moved⟩
  · rw [bind_ok h, bind_ok h']
    exact hf x t t' h moved
  · rw [bind_error h, bind_error h']
    exact .error e moved

theorem tandem_bind {m m' : Action α} {f f' : α → Action β} (hm : Tandem g m m')
    (hf : ∀ x, Tandem g (f x) (f' (across g x))) : Tandem g (m >>= f) (m' >>= f') :=
  fun s s' hs => (hm s s' hs).bind fun x t t' _ ht => hf x t t' ht

omit [Movable β]

theorem tandem_pure (x : α) : Tandem g (pure x) (pure (across g x)) :=
  fun _ _ hs => .ok x hs

theorem tandem_throw (e : Interruption) : Tandem g (throw e : Action α) (throw e) :=
  fun _ _ hs => .error e hs

theorem tandem_raise (fault : Fault) : Tandem g (raise fault : Action α) (raise fault) :=
  tandem_throw (.raised fault)

/-- An action for its effect, with null as its answer. -/
theorem tandem_null {m m' : Action Unit} (hm : Tandem g m m') :
    Tandem g (do m; return .null : Action Value) (do m'; return .null : Action Value) :=
  tandem_bind hm fun _ => tandem_pure Value.null

/-! ## Computations that may fail -/

section Partial

variable {γ : Type}

theorem tandem_ofExcept_bind {r : Except Fault β} [Movable β] {f f' : β → Action α}
    (hf : ∀ x, Tandem g (f x) (f' (across g x))) :
    Tandem g (ofExcept r >>= f) (ofExcept (across g r) >>= f') := by
  cases r with
  | error fault => exact fun _ _ hs => .error _ hs
  | ok x => exact hf x

/-- The same computation on both sides. -/
theorem tandem_ofExcept_same {r : Except Fault γ} {f f' : γ → Action α}
    (hf : ∀ x, Tandem g (f x) (f' x)) : Tandem g (ofExcept r >>= f) (ofExcept r >>= f') := by
  cases r with
  | error fault => exact fun _ _ hs => .error _ hs
  | ok x => exact hf x

theorem tandem_demand (fault : Fault) (o : Option α) :
    Tandem g (demand fault o) (demand fault (across g o)) := by
  cases o with
  | none => exact tandem_raise fault
  | some x => exact tandem_pure x

theorem tandem_demand_bind {fault : Fault} {o : Option β} [Movable β] {f f' : β → Action α}
    (hf : ∀ x, Tandem g (f x) (f' (across g x))) :
    Tandem g (demand fault o >>= f) (demand fault (across g o) >>= f') :=
  tandem_bind (tandem_demand fault o) hf

theorem tandem_demand_same {fault : Fault} {o : Option γ} {f f' : γ → Action α}
    (hf : ∀ x, Tandem g (f x) (f' x)) :
    Tandem g (demand fault o >>= f) (demand fault o >>= f') := by
  cases o with
  | none => exact fun _ _ hs => .error _ hs
  | some x => exact hf x

end Partial

/-! ## Touching a state -/

/-- What is read off the heap is read off heaps with the gap between them. -/
theorem tandem_heap_bind {f f' : Heap → Action α}
    (hf : ∀ h h', h.Displaced g h' → Tandem g (f h) (f' h')) :
    Tandem g (heap >>= f) (heap >>= f') :=
  fun s s' hs => hf s.heap s'.heap hs.heap s s' hs

theorem tandem_get_bind {f f' : State → Action α}
    (hf : ∀ t t', t.Displaced g t' → Tandem g (f t) (f' t')) : Tandem g (get >>= f) (get >>= f') :=
  fun s s' hs => hf s s' hs s s' hs

/-- A new object, and its address on either side. -/
theorem endTandem_allocate {o o' : Object} (hs : s.Displaced g s') (matching : o.Matches g o')
    (parent : ∀ p, o.parent? = some p → p.index < s.heap.size) :
    EndTandem g (allocate o s) (allocate o' s') := by
  have there : (⟨s'.heap.size⟩ : Address) = across g (⟨s.heap.size⟩ : Address) :=
    hs.heap.shift_frontier.symm
  show EndTandem g (.ok (⟨s.heap.size⟩ : Address) _) (.ok (⟨s'.heap.size⟩ : Address) _)
  rw [there]
  exact .ok _ { hs with heap := hs.heap.allocate matching parent }

theorem tandem_allocate {o o' : Object} (matching : o.Matches g o') (root : o.parent? = none) :
    Tandem g (allocate o) (allocate o') := by
  intro s s' hs
  refine endTandem_allocate hs matching fun p hp => ?_
  rw [root] at hp
  cases hp

theorem tandem_write (a : Address) {o o' : Object} (matching : o.Matches g o')
    (root : o.parent? = none) : Tandem g (write a o) (write (g.shift a) o') :=
  fun _ _ hs => .ok () { hs with heap := hs.heap.update matching root }

theorem tandem_extend {os os' : List Object} (matching : List.Forall₂ (Object.Matches g) os os')
    (roots : ∀ o ∈ os, o.parent? = none) : Tandem g (extend os) (extend os') :=
  fun _ _ hs => .ok () { hs with heap := hs.heap.extend matching roots }

theorem tandem_setVariable (name : String) (v : Value) :
    Tandem g (setVariable name v) (setVariable name (across g v)) := by
  intro s s' hs
  refine .ok () { hs with bindings := ?_ }
  show s'.bindings.insert name (across g v) = _
  rw [hs.bindings]
  exact OrderedMap.insert_mapValues (across g) s.bindings name v

theorem tandem_sight (v : Value) : Tandem g (sight v) (sight (across g v)) :=
  fun _ _ hs => .ok () { hs with
    sightings := List.rel_append hs.sightings (.cons (.inr ⟨rfl, hs.heap⟩) .nil) }

theorem tandem_log (row : LogRow) : Tandem g (log row) (log row) :=
  fun _ _ hs => .ok () { hs with journal := congrArg (· ++ [row]) hs.journal }

theorem tandem_takeRows_bind {f f' : List LogRow → Action α}
    (hf : ∀ rows, Tandem g (f rows) (f' rows)) : Tandem g (takeRows >>= f) (takeRows >>= f') := by
  intro s s' hs
  show EndTandem g (f s.journal _) (f' s'.journal _)
  rw [hs.journal]
  exact hf _ _ _ { hs with journal := rfl }

theorem tandem_setLedger (l : Ledger) : Tandem g (setLedger l) (setLedger l) :=
  fun _ _ hs => .ok () { hs with ledger := rfl }

theorem tandem_setShared (settings : Settings) :
    Tandem g (setShared settings) (setShared (across g settings)) :=
  fun _ _ hs => .ok () { hs with shared := rfl }

theorem tandem_setOperators (t : OperatorTables) : Tandem g (setOperators t) (setOperators t) :=
  fun _ _ hs => .ok () { hs with operators := rfl }

theorem tandem_freshNumber : Tandem g freshNumber freshNumber := by
  intro s s' hs
  show EndTandem g (.ok s.nextFunction _) (.ok s'.nextFunction _)
  rw [hs.nextFunction]
  exact .ok s.nextFunction { hs with nextFunction := rfl }

end Action

end OperatorDispatch
