import OperatorDispatch.Proofs.Definitions
import OperatorDispatch.Proofs.Settlement

/-!
# Dispatch inside a scope

A dispatch asks of the scope what it asks of its caller: that a call of a known
handler on known arguments stays in the scope (`Scope.Serves`).  The decision is
read off the heap and mentions nothing unknown; carrying it out goes through
steps of the scope, and closing the dispatch is one more step (`runs_apply`).
-/

namespace OperatorDispatch

/-! ## Look-up on a covered heap -/

namespace Scope

variable {S : Scope} {h : Heap}

/-- The handlers that a decision calls and the values that it mentions. -/
def KnowsDecision (S : Scope) (h : Heap) : Decision → Prop
  | .answer v _ => S.Knows h v
  | .fallBack .. | .fail _ => True
  | .invoke f arguments _ => f.body.within S.vocabulary = true ∧ S.KnowsArguments h arguments

def KnowsApplication (S : Scope) (h : Heap) (a : Application) : Prop :=
  match a.form with
  | .binary lhs rhs => S.Knows h lhs ∧ S.Knows h rhs
  | .unary operand | .step operand _ => S.Knows h operand

theorem knows_ofNative {c : Category} {typeName : String} {result : Primitive → Primitive}
    {r : Except NativeFault Primitive} :
    S.KnowsDecision h (Decision.ofNative c typeName result r) := by
  unfold Decision.ofNative
  split <;> trivial

namespace Covers

variable (hc : S.Covers h)

include hc

theorem known_of_mem_chainFrom :
    ∀ (fuel : Nat) {a b : Address}, S.known a → b ∈ h.chainFrom fuel a → S.known b
  | 0, _, _, _, hb => absurd hb List.not_mem_nil
  | fuel + 1, a, b, ha, hb => by
      unfold Heap.chainFrom at hb
      split at hb
      · exact absurd hb List.not_mem_nil
      · rename_i t ht
        have admitted := hc.object a _ ha (Heap.typeAt?_eq_some.mp ht)
        split at hb
        · exact List.mem_singleton.mp hb ▸ ha
        · rename_i p hp
          rcases List.mem_cons.mp hb with rfl | hb
          · exact ha
          · exact known_of_mem_chainFrom fuel (admitted.2 p hp).1 hb

theorem known_lookupPath {a b : Address} {i : Instance} (ha : S.known a)
    (hi : h.get? a = some (.inst i)) (hb : b ∈ h.lookupPath i) : S.known b := by
  have admitted := hc.object a _ ha hi
  rcases List.mem_append.mp hb with hb | hb
  · exact (admitted.2.2 b (by simpa using hb)).1
  · cases ht : i.type with
    | none => simp [ht] at hb
    | some t =>
        simp only [ht] at hb
        obtain ⟨c, hcmem, hreg⟩ := List.mem_filterMap.mp hb
        obtain ⟨d, hd, rfl⟩ := Option.map_eq_some_iff.mp hreg
        have known := hc.known_of_mem_chainFrom _ (admitted.2.1 t ht).1 hcmem
        have definition := hc.object c _ known (Heap.typeAt?_eq_some.mp hd)
        exact definition.1.1

/-- Look-up finds code of the vocabulary only. -/
theorem within_of_resolve {v : Value} {sel : Selector} {f : Function} (hv : S.Knows h v)
    (hf : h.resolve (h.classify v) sel = some f) : f.body.within S.vocabulary = true := by
  cases v with
  | primitive | function => simp [Heap.classify, Heap.resolve] at hf
  | object a =>
      cases ho : h.get? a with
      | none => simp [Heap.classify, ho, Heap.resolve] at hf
      | some o =>
          cases o with
          | inst i =>
              simp only [Heap.classify, ho, Heap.resolve] at hf
              obtain ⟨b, hb, hfound⟩ := List.exists_of_findSome?_eq_some hf
              obtain ⟨r, hr, hget⟩ := Option.bind_eq_some_iff.mp hfound
              have known := hc.known_lookupPath hv.1 ho hb
              have admitted := hc.object b _ known (Heap.registryAt?_eq_some.mp hr)
              exact admitted f (OrderedMap.mem_values_of_get? hget)
          | typeDefinition | registry | cell | list | dict | reading =>
              simp [Heap.classify, ho, Heap.resolve] at hf

theorem knows_equality {lhs rhs : Value} (hl : S.Knows h lhs) (hr : S.Knows h rhs) :
    S.KnowsDecision h (Decision.equality h lhs rhs) := by
  unfold Decision.equality
  split
  · trivial
  · split
    · rename_i f hf
      refine ⟨hc.within_of_resolve hl hf, hl, ?_⟩
      rintro v ⟨⟩
      exact hr
    · split <;> trivial

theorem knows_strictEquality {lhs rhs : Value} (hl : S.Knows h lhs) (hr : S.Knows h rhs) :
    S.KnowsDecision h (Decision.strictEquality h lhs rhs) := by
  have arguments : S.KnowsArguments h ⟨lhs, some rhs⟩ := by
    refine ⟨hl, ?_⟩
    rintro v ⟨⟩
    exact hr
  unfold Decision.strictEquality
  split
  · trivial
  · split
    · rename_i f hf
      exact ⟨hc.within_of_resolve hl hf, arguments⟩
    · unfold Decision.derivedEquality
      split
      · rename_i f _ hf
        split
        · exact ⟨hc.within_of_resolve hl hf, arguments⟩
        · trivial
      · split <;> trivial

theorem knows_binary {o : Operator} {lhs rhs : Value} (hl : S.Knows h lhs)
    (hr : S.Knows h rhs) : S.KnowsDecision h (Decision.binary h o lhs rhs) := by
  unfold Decision.binary
  split
  · exact knows_ofNative
  · trivial
  · split
    · rename_i f hf
      refine ⟨hc.within_of_resolve hl hf, hl, ?_⟩
      rintro v ⟨⟩
      exact hr
    · trivial

theorem knows_unary {o : Operator} {operand : Value} {native : Primitive → Primitive}
    {use : Use} (hv : S.Knows h operand) :
    S.KnowsDecision h (Decision.unary h o operand native use) := by
  unfold Decision.unary
  split
  · exact knows_ofNative
  · split
    · rename_i f hf
      exact ⟨hc.within_of_resolve hv hf, hv, by simp⟩
    · trivial

/-- A decision mentions nothing that was not known before. -/
theorem knows_decide {a : Application} (ha : S.KnowsApplication h a) :
    S.KnowsDecision h (a.decide h) := by
  obtain ⟨o, form⟩ := a
  cases form with
  | binary lhs rhs =>
      obtain ⟨hl, hr⟩ := ha
      dsimp only [Application.decide]
      split
      · exact hc.knows_equality hl hr
      · exact hc.knows_strictEquality hl hr
      · exact hc.knows_binary hl hr
  | unary operand => exact hc.knows_unary ha
  | step operand after => exact hc.knows_unary ha

end Covers

/-! ## Well-formed applications -/

theorem knowsApplication_binary {t : OperatorTables} {literal : String} {lhs rhs : Value}
    {a : Application} (hl : S.Knows h lhs) (hr : S.Knows h rhs)
    (ha : Application.binary t literal lhs rhs = .ok a) : S.KnowsApplication h a := by
  unfold Application.binary at ha
  split at ha
  · cases ha
    exact ⟨hl, hr⟩
  · cases ha

theorem knowsApplication_unaryAt {o : Operator} {literal : String} {p : Position}
    {operand : Value} {a : Application} (hv : S.Knows h operand)
    (ha : Application.unaryAt o literal p operand = .ok a) : S.KnowsApplication h a := by
  unfold Application.unaryAt at ha
  split at ha <;> cases ha <;> exact hv

theorem knowsApplication_unary {t : OperatorTables} {literal : String}
    {position : Option String} {operand : Value} {a : Application} (hv : S.Knows h operand)
    (ha : Application.unary t literal position operand = .ok a) : S.KnowsApplication h a := by
  unfold Application.unary at ha
  split at ha
  · cases ha
  · split at ha
    · cases ha
    · exact knowsApplication_unaryAt hv ha

/-! ## Callers -/

/-- A call of a known handler on known arguments stays in the scope. -/
def Serves (S : Scope) (engine : Engine) (call : Function → Arguments → Action Value) : Prop :=
  ∀ (f : Function) (arguments : Arguments) (s : State), S.Confines s →
    S.KnowsEngine s.heap engine → f.body.within S.vocabulary = true →
    S.KnowsArguments s.heap arguments →
    Action.Runs S.Step s (call f arguments) fun v s' => S.Knows s'.heap v

end Scope

namespace Action

variable {S : Scope} {s : State} {engine : Engine} {settings : Settings}
  {call : Function → Arguments → Action Value}

/-! ## Carrying a decision out -/

section Conduct

variable (hcall : S.Serves engine call) (hs : S.Confines s) (he : S.KnowsEngine s.heap engine)

include hcall hs he

/-- Where a snapshot is taken the call starts from a state that knows more, and
its receiver among it. -/
theorem runs_invoke {f : Function} {arguments : Arguments} (use : Use)
    (hf : f.body.within S.vocabulary = true) (ha : S.KnowsArguments s.heap arguments) :
    Runs S.Step s (invoke call f arguments use) fun x s' => S.Knows s'.heap x.1 := by
  cases use with
  | answer => exact runs_bind (hcall f arguments s hs he hf ha) fun _ _ _ hv => runs_pure hv
  | truth =>
      refine runs_bind (hcall f arguments s hs he hf ha) fun v s' _ _ => ?_
      exact runs_heap_bind (runs_pure (show S.Knows s'.heap (.boolean _) from trivial))
  | receiver =>
      refine runs_bind (hcall f arguments s hs he hf ha) fun _ _ hsteps _ => ?_
      exact runs_pure (ha.1.later (Scope.Steps.later hsteps))
  | snapshot =>
      refine runs_heap_bind (runs_demand_bind ?_)
      rintro ⟨a, i⟩ hi
      obtain ⟨hthis, hi⟩ := Heap.instanceOf?_eq_some.mp hi
      have hknown := ha.1
      rw [hthis] at hknown
      refine runs_bind (runs_snapshot hs hknown.1 hi) ?_
      rintro b s' hsteps ⟨rfl, rfl⟩
      have hl := Scope.Steps.later hsteps
      have hb := Heap.takeSnapshot_index s.heap i
      refine runs_bind (hcall f arguments _ (Scope.Steps.confines hsteps hs) (he.later hl) hf
        (ha.later hl)) fun _ s'' hcalled _ => ?_
      refine runs_pure ⟨(hs.heap.frontier _ hb.1).1, ?_⟩
      exact Nat.lt_of_lt_of_le hb.2 (Scope.Steps.later hcalled).size_le

theorem runs_perform {a : Application} {d : Decision} (hd : S.KnowsDecision s.heap d)
    (plain : ∀ fallback typeName, d ≠ .fallBack fallback typeName) :
    Runs S.Step s (perform call settings a d) fun x s' => S.Knows s'.heap x.1 := by
  have carried : Runs S.Step s (carryOut call settings a.operator d)
      fun x s' => S.Knows s'.heap x.1 := by
    cases d with
    | answer v outcome => exact runs_pure hd
    | fallBack fallback typeName => exact absurd rfl (plain fallback typeName)
    | fail fault => exact runs_raise
    | invoke f arguments use => exact runs_invoke hcall hs he use hd.1 hd.2
  refine runs_bind carried ?_
  rintro ⟨v, outcome⟩ s' - hv
  dsimp only
  split
  · exact runs_heap_bind (runs_pure trivial)
  · exact runs_pure hv

end Conduct

/-- A fallback writes its row and does nothing else. -/
theorem perform_fallBack (call : Function → Arguments → Action Value) (a : Application)
    (fallback : Fallback) (typeName : String) (hsent : S.Knows s.heap settings.sentinel) :
    let t := { s with journal := s.journal ++ [.fallback a.operator.literal typeName fallback] }
    (∃ v, S.Knows s.heap v ∧
        perform call settings a (.fallBack fallback typeName) s = .ok (v, .default) t) ∨
      ∃ fault, perform call settings a (.fallBack fallback typeName) s =
        .error (.raised fault) t := by
  intro t
  have answered : ∀ v : Value, S.Knows s.heap v →
      fallBack settings a.operator fallback typeName s = .ok (v, .default) t →
      ∃ w, S.Knows s.heap w ∧
        perform call settings a (.fallBack fallback typeName) s = .ok (w, .default) t := by
    intro v hv hfall
    unfold perform carryOut
    rw [bind_ok hfall]
    dsimp only
    split
    · exact ⟨.boolean (!s.heap.truthy v), trivial, rfl⟩
    · exact ⟨v, hv, rfl⟩
  cases fallback with
  | sentinel => exact .inl (answered _ hsent rfl)
  | unequal => exact .inl (answered (.boolean false) trivial rfl)
  | refuse => exact .inr ⟨_, bind_error rfl⟩

/-! ## Closing -/

/-- The record of a dispatch that did not fall back tells of no row. -/
theorem rows_eq_nil {r : DispatchRecord}
    (plain : ∀ fallback typeName, r.decision ≠ .fallBack fallback typeName) : r.rows = [] := by
  unfold DispatchRecord.rows
  split
  · rename_i fallback typeName h
    exact absurd h (plain fallback typeName)
  · rfl

theorem reached_concluded {t : State} {r : DispatchRecord} {v : Value}
    (hsteps : S.Steps s t) (hlast : S.Step t (t.close r)) (hv : S.Knows t.heap v) :
    Reached S.Step s (fun v s' => S.Knows s'.heap v) (concluded r (.ok v) t) := by
  unfold concluded
  cases (t.ledger.enter r).2 with
  | none => exact ⟨hsteps.tail hlast, hv⟩
  | some refusal => exact hsteps.tail hlast

theorem reached_concluded_error {t : State} {r : DispatchRecord} {e : Interruption}
    {Q : Value → State → Prop} (hsteps : S.Steps s t) (hlast : S.Step t (t.close r)) :
    Reached S.Step s Q (concluded r (.error e) t) := by
  unfold concluded
  cases (t.ledger.enter r).2 with
  | none => exact hsteps.tail hlast
  | some refusal => exact hsteps.tail hlast

/-- Where the work stays in the scope, so does the dispatch. -/
theorem reached_conclusion {a : Application} {d : Decision}
    {result : EStateM.Result Interruption State (Value × Outcome)}
    (hr : Reached S.Step s (fun x s' => S.Knows s'.heap x.1) result)
    (decided : ∃ h, d = a.decide h)
    (led : ∀ v outcome t, result = .ok (v, outcome) t → d.outcome? = some outcome)
    (plain : ∀ fallback typeName, d ≠ .fallBack fallback typeName) :
    Reached S.Step s (fun v s' => S.Knows s'.heap v) (conclusion settings a d result) := by
  have close : ∀ (t : State) (ending : DispatchEnding),
      (∀ outcome, ending = .returned outcome → d.outcome? = some outcome) →
      S.Step t (t.close ⟨settings, a, d, ending⟩) := by
    intro t ending hled
    rw [State.close_eq_settle (rows_eq_nil plain)]
    exact .settle ⟨decided, hled⟩
  cases result with
  | ok x t =>
      refine reached_concluded hr.1 (close t (.returned x.2) ?_) hr.2
      rintro outcome ⟨⟩
      exact led x.1 x.2 t rfl
  | error e t =>
      cases e with
      | raised fault => exact reached_concluded_error hr (close t (.raised _) (by simp))
      | aborted text => exact reached_concluded_error hr (close t .aborted (by simp))
      | exhausted => exact hr

theorem runs_apply (hcall : S.Serves engine call) (hs : S.Confines s)
    (he : S.KnowsEngine s.heap engine) (hsent : S.Knows s.heap settings.sentinel)
    {a : Application} (ha : S.KnowsApplication s.heap a) :
    Runs S.Step s (apply call settings a) fun v s' => S.Knows s'.heap v := by
  have hd := hs.heap.knows_decide ha
  unfold Runs
  rw [apply_eq]
  cases hdec : a.decide s.heap with
  | fallBack fallback typeName =>
      -- the row and the closing are one step
      let t : State :=
        { s with journal := s.journal ++ [.fallback a.operator.literal typeName fallback] }
      have settled : ∀ ending : DispatchEnding,
          (∀ outcome, ending = .returned outcome →
            (Decision.fallBack fallback typeName).outcome? = some outcome) →
          S.Step s (t.close ⟨settings, a, .fallBack fallback typeName, ending⟩) :=
        fun ending led => .settle (r := ⟨settings, a, .fallBack fallback typeName, ending⟩)
          ⟨⟨s.heap, hdec.symm⟩, led⟩
      rcases perform_fallBack call a fallback typeName hsent with
        ⟨v, hv, hp⟩ | ⟨fault, hp⟩
      · have last := settled (.returned .default) (by
          rintro outcome ⟨⟩
          exact perform_outcome hp)
        rw [hp]
        dsimp only [conclusion, concluded]
        cases (t.ledger.enter ⟨settings, a, .fallBack fallback typeName, _⟩).2 with
        | none => exact ⟨.single last, hv⟩
        | some refusal => exact .single last
      · have last := settled (.raised (settings.told fault)) (by simp)
        rw [hp]
        dsimp only [conclusion, concluded]
        cases (t.ledger.enter ⟨settings, a, .fallBack fallback typeName, _⟩).2 with
        | none => exact .single last
        | some refusal => exact .single last
  | answer | fail | invoke =>
      rw [hdec] at hd
      exact reached_conclusion (runs_perform hcall hs he hd (by simp)) ⟨s.heap, hdec.symm⟩
        (fun _ _ _ => perform_outcome) (by simp)

end Action

end OperatorDispatch
