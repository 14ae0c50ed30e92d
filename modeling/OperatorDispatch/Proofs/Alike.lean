import OperatorDispatch.Proofs.Accounting

/-!
# Alike states

Two states are alike when they differ in their ledgers, in the settings that
dispatches were made under, and in nothing else; of the shared settings they
have the sentinel in common.  An action is blind when it takes alike states to
alike states and ends the same way in both: it cannot tell that anything is
being recorded.

A span asks a fault for its text, and a fault that cannot give one is replaced
on the way (`Fault.told`).  So a run that has spans and one that has none can
end with different faults, which are the same once they have been told
(`Fault.Like`).  Nothing else comes of the difference, since code that catches
a fault does not see which one it was.

The rules follow the shape of the code, one for each way of touching a state
and one for sequencing.  There is none for reading the ledger.
-/

namespace OperatorDispatch

/-! ## Faults of two runs -/

/-- Faults of two runs: the same once they have been told, and the same at once
where the two have the same spans. -/
structure Fault.Like (spans : Prop) (fault fault' : Fault) : Prop where
  told : fault'.told = fault.told
  same : spans → fault' = fault

/-- Faults can differ only where one of them has a key that cannot be written
out, and the other tells why. -/
theorem Fault.told_eq_told_iff {fault fault' : Fault} : fault'.told = fault.told ↔
    fault' = fault ∨ ∃ why, fault = .missingKey (.illegible why) ∧ fault' = .native why ∨
      fault' = .missingKey (.illegible why) ∧ fault = .native why := by
  unfold told
  split <;> split <;> simp_all [eq_comm]

theorem Fault.Like.refl {spans : Prop} (fault : Fault) : fault.Like spans fault :=
  ⟨rfl, fun _ => rfl⟩

/-- How two runs are interrupted. -/
inductive Interruption.Like (spans : Prop) : Interruption → Interruption → Prop
  | raised {fault fault' : Fault} (faults : fault.Like spans fault') :
      Like spans (.raised fault) (.raised fault')
  | aborted (text : String) : Like spans (.aborted text) (.aborted text)
  | exhausted : Like spans .exhausted .exhausted

theorem Interruption.Like.refl {spans : Prop} (why : Interruption) : why.Like spans why := by
  cases why with
  | raised fault => exact .raised (.refl fault)
  | aborted text => exact .aborted text
  | exhausted => exact .exhausted

/-! ## Alike states -/

/-- How a dispatch ended, with its fault told. -/
def DispatchEnding.told : DispatchEnding → DispatchEnding
  | .raised fault => .raised fault.told
  | ending => ending

/-- A dispatch that is over, whatever the settings it was made under. -/
def DispatchRecord.content (r : DispatchRecord) : Application × Decision × DispatchEnding :=
  (r.application, r.decision, r.ending.told)

/-- Settings that may differ in what is recorded, though not in whether there
are spans where this is to be the same. -/
structure Settings.Like (spans : Prop) (settings settings' : Settings) : Prop where
  sentinel : settings'.sentinel = settings.sentinel
  spans : spans → settings'.traceSpans = settings.traceSpans

theorem Settings.Like.refl {spans : Prop} (settings : Settings) : settings.Like spans settings :=
  ⟨rfl, fun _ => rfl⟩

/-- What leaves a dispatch is as much alike as what its work raised. -/
theorem Settings.Like.told {spans : Prop} {settings settings' : Settings} {fault fault' : Fault}
    (like : settings.Like spans settings') (faults : fault.Like spans fault') :
    (settings.told fault).Like spans (settings'.told fault') where
  told := by rw [Settings.told_told, Settings.told_told, faults.told]
  same := by
    intro here
    unfold Settings.told
    rw [faults.same here, like.spans here]

/-- The states of two runs that recorded differently and are the same
otherwise.  Neither ledger has anything but dispatches announced to its
collector. -/
structure State.Alike (spans : Prop) (s s' : State) : Prop where
  heap : s'.heap = s.heap
  bindings : s'.bindings = s.bindings
  sightings : s'.sightings = s.sightings
  journal : s'.journal = s.journal
  dispatches : s'.dispatches.map DispatchRecord.content = s.dispatches.map DispatchRecord.content
  operators : s'.operators = s.operators
  shared : Option.Rel (Settings.Like spans) s.shared s'.shared
  nextFunction : s'.nextFunction = s.nextFunction
  left : s.ledger.CountsDispatches
  right : s'.ledger.CountsDispatches

theorem State.Alike.refl {spans : Prop} {s : State} (hs : s.ledger.CountsDispatches) :
    s.Alike spans s := by
  have shared : Option.Rel (Settings.Like spans) s.shared s.shared := by
    cases s.shared with
    | none => exact .none
    | some settings => exact .some (.refl settings)
  exact ⟨rfl, rfl, rfl, rfl, rfl, rfl, shared, rfl, hs, hs⟩

namespace Action

variable {α β : Type} {spans : Prop} {s s' : State}

/-- The same result, or interruptions that are alike, with alike states. -/
inductive EndAlike (spans : Prop) :
    EStateM.Result Interruption State α → EStateM.Result Interruption State α → Prop
  | ok (x : α) {t t' : State} (alike : t.Alike spans t') : EndAlike spans (.ok x t) (.ok x t')
  | error {e e' : Interruption} {t t' : State} (like : e.Like spans e')
      (alike : t.Alike spans t') : EndAlike spans (.error e t) (.error e' t')

/-- An action that cannot tell alike states from each other. -/
def Blind (spans : Prop) (m : Action α) : Prop :=
  ∀ s s', s.Alike spans s' → EndAlike spans (m s) (m s')

/-! ## Sequencing -/

theorem EndAlike.elim {r r' : EStateM.Result Interruption State α} (h : EndAlike spans r r') :
    (∃ x t t', r = .ok x t ∧ r' = .ok x t' ∧ t.Alike spans t') ∨
      ∃ e e' t t', r = .error e t ∧ r' = .error e' t' ∧ e.Like spans e' ∧ t.Alike spans t' := by
  cases h with
  | ok x alike => exact .inl ⟨x, _, _, rfl, rfl, alike⟩
  | error like alike => exact .inr ⟨_, _, _, _, rfl, rfl, like, alike⟩

/-- What comes after two actions that end alike. -/
theorem EndAlike.bind {m m' : Action α} {f f' : α → Action β}
    (hm : EndAlike spans (m s) (m' s'))
    (hf : ∀ x t t', m s = .ok x t → t.Alike spans t' → EndAlike spans (f x t) (f' x t')) :
    EndAlike spans ((m >>= f) s) ((m' >>= f') s') := by
  rcases hm.elim with ⟨x, t, t', h, h', alike⟩ | ⟨e, e', t, t', h, h', like, alike⟩
  · rw [bind_ok h, bind_ok h']
    exact hf x t t' h alike
  · rw [bind_error h, bind_error h']
    exact .error like alike

theorem blind_bind {m : Action α} {f : α → Action β} (hm : Blind spans m)
    (hf : ∀ x, Blind spans (f x)) : Blind spans (m >>= f) :=
  fun s s' hs => (hm s s' hs).bind fun x t t' _ ht => hf x t t' ht

/-! ## Touching a state -/

theorem blind_pure (x : α) : Blind spans (pure x) :=
  fun _ _ hs => .ok x hs

theorem blind_throw (e : Interruption) : Blind spans (throw e : Action α) :=
  fun _ _ hs => .error (.refl e) hs

theorem blind_raise (fault : Fault) : Blind spans (raise fault : Action α) :=
  blind_throw (.raised fault)

theorem blind_ofExcept (r : Except Fault α) : Blind spans (ofExcept r) := by
  cases r with
  | ok x => exact blind_pure x
  | error fault => exact blind_raise fault

theorem blind_heap : Blind spans heap := by
  intro s s' hs
  show EndAlike spans (.ok s.heap s) (.ok s'.heap s')
  rw [hs.heap]
  exact .ok _ hs

theorem blind_heap_bind {f : Heap → Action α} (hf : ∀ h, Blind spans (f h)) :
    Blind spans (heap >>= f) :=
  blind_bind blind_heap hf

theorem blind_allocate (o : Object) : Blind spans (allocate o) := by
  intro s s' hs
  show EndAlike spans (.ok (s.heap.allocate o).1 _) (.ok (s'.heap.allocate o).1 _)
  rw [hs.heap]
  exact .ok _ { hs with heap := rfl }

theorem blind_write (a : Address) (o : Object) : Blind spans (write a o) :=
  fun _ _ hs => .ok () { hs with heap := congrArg (·.update a o) hs.heap }

theorem blind_extend (os : List Object) : Blind spans (extend os) :=
  fun _ _ hs => .ok () { hs with heap := congrArg (·.extend os) hs.heap }

theorem blind_setVariable (name : String) (v : Value) : Blind spans (setVariable name v) :=
  fun _ _ hs => .ok () { hs with bindings := congrArg (·.insert name v) hs.bindings }

theorem blind_sight (v : Value) : Blind spans (sight v) := by
  intro s s' hs
  refine .ok () { hs with sightings := ?_ }
  show s'.sightings ++ [⟨v, s'.heap⟩] = s.sightings ++ [⟨v, s.heap⟩]
  rw [hs.sightings, hs.heap]

theorem blind_log (row : LogRow) : Blind spans (log row) :=
  fun _ _ hs => .ok () { hs with journal := congrArg (· ++ [row]) hs.journal }

theorem blind_takeRows : Blind spans takeRows := by
  intro s s' hs
  show EndAlike spans (.ok s.journal _) (.ok s'.journal _)
  rw [hs.journal]
  exact .ok _ { hs with journal := rfl }

theorem blind_setOperators (t : OperatorTables) : Blind spans (setOperators t) :=
  fun _ _ hs => .ok () { hs with operators := rfl }

theorem blind_setShared (settings : Settings) : Blind spans (setShared settings) :=
  fun _ _ hs => .ok () { hs with shared := .some (.refl settings) }

theorem blind_freshNumber : Blind spans freshNumber := by
  intro s s' hs
  show EndAlike spans (.ok s.nextFunction _) (.ok s'.nextFunction _)
  rw [hs.nextFunction]
  exact .ok _ { hs with nextFunction := rfl }

/-! ### Reading, where two actions differ in what follows -/

theorem EndAlike.heap_bind {f f' : Heap → Action α} (hs : s.Alike spans s')
    (hf : EndAlike spans (f s.heap s) (f' s.heap s')) :
    EndAlike spans ((heap >>= f) s) ((heap >>= f') s') := by
  show EndAlike spans (f s.heap s) (f' s'.heap s')
  rwa [hs.heap]

theorem EndAlike.get_bind {f f' : State → Action α} (hf : EndAlike spans (f s s) (f' s' s')) :
    EndAlike spans ((get >>= f) s) ((get >>= f') s') :=
  hf

theorem EndAlike.demand_bind {fault : Fault} {o : Option β} {f f' : β → Action α}
    (hs : s.Alike spans s') (hf : ∀ x, o = some x → EndAlike spans (f x s) (f' x s')) :
    EndAlike spans ((demand fault o >>= f) s) ((demand fault o >>= f') s') := by
  cases o with
  | none => exact .error (.refl _) hs
  | some x => exact hf x rfl

theorem EndAlike.ofExcept_bind {r : Except Fault β} {f f' : β → Action α} (hs : s.Alike spans s')
    (hf : ∀ x, r = .ok x → EndAlike spans (f x s) (f' x s')) :
    EndAlike spans ((ofExcept r >>= f) s) ((ofExcept r >>= f') s') := by
  cases r with
  | error fault => exact .error (.refl _) hs
  | ok x => exact hf x rfl

/-- An action for its effect, with null as its answer. -/
theorem blind_null {m : Action Unit} (hm : Blind spans m) :
    Blind spans (do m; return .null : Action Value) :=
  blind_bind hm fun _ => blind_pure _

end Action

end OperatorDispatch
