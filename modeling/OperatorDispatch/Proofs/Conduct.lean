import OperatorDispatch.Proofs.Postfix

/-!
# How a dispatch goes about its work

The engine reads the heap and leaves the writing to handlers.  A decision that
calls no handler has an ending of its own, which depends on what is there and
changes nothing but the journal (`perform_alone`).  A decision that calls one
puts a value by for the answer, makes the call, and makes the answer out of what
came back (`perform_consulting`); in between it does nothing, so the heap that
the call left is the heap that the dispatch leaves.

Together with what closing a dispatch does, this is all there is to one:
`State.Conducts` has a constructor for each way, and every dispatch from a
reachable state goes one of them (`dispatch_reads_only`).
-/

namespace OperatorDispatch

/-! ## What can be decided -/

/-- Whether a handler is called. -/
def Decision.invokes : Decision → Bool
  | .invoke .. => true
  | .answer .. | .fallBack .. | .fail _ => false

namespace Application

/-- What a handler of the application is called with. -/
def arguments (a : Application) : Arguments :=
  match a.form with
  | .binary lhs rhs => ⟨lhs, some rhs⟩
  | .unary operand | .step operand _ => ⟨operand, none⟩

/-- The decisions that an application can lead to.  The left operand alone is
asked for a handler and named where there is none. -/
inductive Decides (h : Heap) (a : Application) : Decision → Prop
  /-- An answer that no handler gives is a primitive, and not said to be a
  handler's. -/
  | answers {p : Primitive} {outcome : Outcome}
      (own : outcome ∈ [.identity, .derived, .default, .native]) :
      Decides h a (.answer (.primitive p) outcome)
  | fallsBack {fallback : Fallback}
      (own : fallback ∈ [a.operator.category.fallback, a.operator.category.primitiveFallback]) :
      Decides h a (.fallBack fallback (h.classify a.arguments.this).typeName)
  | fails (fault : NativeFault) : Decides h a (.fail fault)
  /-- A snapshot is handed back behind the operand of a step only. -/
  | invokes {f : Function} {use : Use} {sel : Selector}
      (found : h.resolve (h.classify a.arguments.this) sel = some f)
      (behind : use = .snapshot → ∃ operand, a.form = .step operand true) :
      Decides h a (.invoke f a.arguments use)

end Application

namespace Decision

open Application (Decides)

variable {h : Heap} {a : Application} {o : Operator} {lhs rhs operand : Value}

theorem decides_ofNative {result : Primitive → Primitive} {r : Except NativeFault Primitive} :
    a.Decides h (ofNative a.operator.category (h.classify a.arguments.this).typeName result r) := by
  unfold ofNative
  split
  · exact .answers (by decide)
  · exact .fallsBack (by simp)
  · exact .fails _

theorem decides_equality : Decides h ⟨o, .binary lhs rhs⟩ (equality h lhs rhs) := by
  unfold equality
  split
  · exact .answers (by decide)
  · split
    · rename_i f hf
      exact .invokes (a := ⟨o, .binary lhs rhs⟩) hf nofun
    · split <;> exact .answers (by decide)

theorem decides_strictEquality : Decides h ⟨o, .binary lhs rhs⟩ (strictEquality h lhs rhs) := by
  unfold strictEquality
  split
  · exact .answers (by decide)
  · split
    · rename_i f hf
      exact .invokes (a := ⟨o, .binary lhs rhs⟩) hf nofun
    · unfold derivedEquality
      split
      · rename_i left f _ hf
        split
        · exact .invokes (a := ⟨o, .binary lhs rhs⟩) hf nofun
        · exact .answers (by decide)
      · split <;> exact .answers (by decide)

theorem decides_binary : Decides h ⟨o, .binary lhs rhs⟩ (binary h o lhs rhs) := by
  unfold binary
  split
  · exact decides_ofNative (a := ⟨o, .binary _ _⟩)
  · exact .fallsBack (a := ⟨o, .binary _ _⟩) (by simp)
  · split
    · rename_i f hf
      exact .invokes (a := ⟨o, .binary lhs rhs⟩) hf nofun
    · exact .fallsBack (a := ⟨o, .binary lhs rhs⟩) (by simp)

theorem decides_unary {native : Primitive → Primitive} {use : Use} (ho : a.operator = o)
    (harguments : a.arguments = ⟨operand, none⟩)
    (behind : use = .snapshot → ∃ operand, a.form = .step operand true) :
    a.Decides h (unary h o operand native use) := by
  subst ho
  unfold unary
  split
  · rename_i p
    have named : (h.classify a.arguments.this).typeName = p.kind.name := by
      rw [harguments]
      rfl
    rw [← named]
    exact decides_ofNative
  · have this : operand = a.arguments.this := by rw [harguments]
    split
    · rename_i f hf
      rw [← harguments]
      exact .invokes (this ▸ hf) behind
    · rw [this]
      exact .fallsBack (by simp)

end Decision

namespace Application

theorem decides (h : Heap) (a : Application) : a.Decides h (a.decide h) := by
  obtain ⟨o, form⟩ := a
  cases form with
  | binary lhs rhs =>
      dsimp only [decide]
      split
      · exact Decision.decides_equality
      · exact Decision.decides_strictEquality
      · exact Decision.decides_binary
  | unary operand => exact Decision.decides_unary rfl rfl nofun
  | step operand after =>
      refine Decision.decides_unary rfl rfl fun behind => ⟨operand, ?_⟩
      cases after with
      | true => rfl
      | false => cases behind

variable {h : Heap} {a : Application} {f : Function} {passed : Arguments} {use : Use}

/-- A handler is called with the operands. -/
theorem arguments_of_decide (hd : a.decide h = .invoke f passed use) : passed = a.arguments := by
  have possible := a.decides h
  rw [hd] at possible
  cases possible
  rfl

theorem exists_handler_of_invokes (hd : (a.decide h).invokes = true) :
    ∃ f use, a.decide h = .invoke f a.arguments use := by
  have possible := a.decides h
  generalize a.decide h = d at hd possible
  cases possible with
  | answers | fallsBack | fails => cases hd
  | invokes => exact ⟨_, _, rfl⟩

theorem found_of_decide (hd : a.decide h = .invoke f passed use) :
    ∃ sel, h.resolve (h.classify a.arguments.this) sel = some f := by
  have possible := a.decides h
  rw [hd] at possible
  cases possible with
  | invokes found behind => exact ⟨_, found⟩

/-- What is asked for a handler is an instance. -/
theorem exists_instance_of_decide (hd : a.decide h = .invoke f passed use) :
    ∃ x i, a.arguments.this = .object x ∧ h.get? x = some (.inst i) := by
  obtain ⟨sel, found⟩ := found_of_decide hd
  cases hthis : a.arguments.this with
  | primitive p =>
      rw [hthis] at found
      cases found
  | function g =>
      rw [hthis] at found
      cases found
  | object x =>
      rw [hthis] at found
      exact ⟨x, (Heap.exists_instance_of_resolve found).imp fun _ hi => ⟨rfl, hi⟩⟩

theorem step_of_decide (hd : a.decide h = .invoke f passed .snapshot) :
    ∃ operand, a.form = .step operand true := by
  have possible := a.decides h
  rw [hd] at possible
  cases possible with
  | invokes found behind => exact behind rfl

end Application

/-! ## Endings without a handler -/

/-- The ending of a dispatch as its record has it. -/
def DispatchEnding.ofExcept : Except Fault (Value × Outcome) → DispatchEnding
  | .ok (_, outcome) => .returned outcome
  | .error fault => .raised fault

namespace Application

variable {a : Application} {settings : Settings} {h : Heap} {d : Decision}

/-- An answer, turned round where the application asks for it. -/
def turn (a : Application) (h : Heap) (v : Value) : Value :=
  if a.negates then .boolean (!h.truthy v) else v

/-- The ending that a decision has without a handler; there is none if it is
to call one. -/
def ending? (a : Application) (settings : Settings) (h : Heap) :
    Decision → Option (Except Fault (Value × Outcome))
  | .answer v outcome => some (.ok (a.turn h v, outcome))
  | .fallBack .sentinel _ => some (.ok (a.turn h settings.sentinel, .default))
  | .fallBack .unequal _ => some (.ok (a.turn h (.boolean false), .default))
  | .fallBack .refuse typeName =>
    some (.error (.operatorNotDefined a.operator.category a.operator.literal typeName))
  | .fail fault => some (.error (.native fault))
  | .invoke .. => none

/-- Nothing in an ending depends on the heap, once it is decided: an equality
does not fall back to the sentinel, and turning a primitive round takes no
heap. -/
theorem ending?_decide (h h' : Heap) :
    a.ending? settings h' (a.decide h) = a.ending? settings h (a.decide h) := by
  have possible := a.decides h
  generalize a.decide h = d at possible
  cases possible with
  | answers | fails | invokes => rfl
  | @fallsBack fallback own =>
      cases fallback with
      | refuse | unequal => rfl
      | sentinel =>
          have unturned : a.negates = false := by
            unfold negates
            split
            · cases hc : a.operator.category <;>
                simp_all [Category.fallback, Category.primitiveFallback]
            · rfl
          simp only [ending?, turn, unturned, Bool.false_eq_true, if_false]

/-- A fault that no handler has raised has a text. -/
theorem told_of_ending? {fault : Fault} (hr : a.ending? settings h d = some (.error fault)) :
    settings.told fault = fault := by
  have legible : fault.told = fault := by
    cases d with
    | answer | invoke => cases hr
    | fail => cases hr; rfl
    | fallBack fallback => cases fallback <;> cases hr; rfl
  rw [Settings.told, legible, ite_self]

theorem exists_ending (a : Application) (settings : Settings) (h : Heap)
    (hd : d.invokes = false) : ∃ r, a.ending? settings h d = some r := by
  cases d with
  | answer | fail => exact ⟨_, rfl⟩
  | fallBack fallback typeName => cases fallback <;> exact ⟨_, rfl⟩
  | invoke => cases hd

end Application

namespace Action

variable {s : State} {call : Function → Arguments → Action Value} {settings : Settings}
  {a : Application}

/-- Turning an answer round reads the heap and leaves everything as it is. -/
theorem perform_of_carryOut {d : Decision} {v : Value} {outcome : Outcome} {t : State}
    (carried : carryOut call settings a.operator d s = .ok (v, outcome) t) :
    perform call settings a d s = .ok (a.turn t.heap v, outcome) t := by
  rw [perform, bind_ok carried, Application.turn]
  dsimp only
  split <;> rfl

/-- A decision that calls no handler touches nothing but the journal. -/
theorem perform_alone {d : Decision} {r : Except Fault (Value × Outcome)}
    (hr : a.ending? settings s.heap d = some r) :
    perform call settings a d s =
      ofExcept r
        { s with journal := s.journal ++
            (⟨settings, a, d, .ofExcept r⟩ : DispatchRecord).rows } := by
  cases d with
  | answer v outcome =>
      cases hr
      simp only [DispatchRecord.rows, List.append_nil]
      exact perform_of_carryOut (d := .answer v outcome) rfl
  | fail fault =>
      cases hr
      simp only [DispatchRecord.rows, List.append_nil]
      exact bind_error rfl
  | fallBack fallback typeName =>
      cases fallback with
      | sentinel =>
          cases hr
          exact perform_of_carryOut (d := .fallBack .sentinel typeName) rfl
      | unequal =>
          cases hr
          exact perform_of_carryOut (d := .fallBack .unequal typeName) rfl
      | refuse =>
          cases hr
          exact bind_error rfl
  | invoke => cases hr

/-- What a dispatch comes to that is entered in a ledger: the answer stands
unless the collector objects. -/
def upheld (l : Ledger) (r : DispatchRecord) (answer : Except Fault Value) : Except Fault Value :=
  match (l.enter r).2 with
  | none => answer
  | some refusal => .error (refusalFault refusal)

theorem concluded_upheld (r : DispatchRecord) (answer : Except Fault Value) (s : State) :
    concluded r (ofExcept answer) s = ofExcept (upheld s.ledger r answer) (s.close r) := by
  unfold concluded upheld
  cases (s.ledger.enter r).2 <;> rfl

/-- A dispatch that calls no handler is settled on the spot. -/
theorem apply_alone {r : Except Fault (Value × Outcome)}
    (hr : a.ending? settings s.heap (a.decide s.heap) = some r) :
    apply call settings a s =
      ofExcept (upheld s.ledger ⟨settings, a, a.decide s.heap, .ofExcept r⟩ (r.map Prod.fst))
        (s.settle ⟨settings, a, a.decide s.heap, .ofExcept r⟩) := by
  rw [apply_eq, perform_alone hr]
  cases r with
  | ok x => exact concluded_upheld _ (.ok x.1) _
  | error fault =>
      show concluded ⟨settings, a, a.decide s.heap, .raised (settings.told fault)⟩
        (.error (.raised (settings.told fault))) _ = _
      rw [Application.told_of_ending? hr]
      exact concluded_upheld _ (.error fault) _

end Action

/-! ## Endings with a handler -/

/-- The outcome with which a handler's result is used. -/
def Use.outcome : Use → Outcome
  | .truth => .derived
  | .answer | .receiver | .snapshot => .handler

/-- The answer that is made of a handler's result, given the value that was
put by for it. -/
def Use.answerFrom (use : Use) (kept : Value) (h : Heap) (result : Value) : Value :=
  match use with
  | .answer => result
  | .truth => .boolean (h.truthy result)
  | .receiver | .snapshot => kept

/-- What is put by for the answer of a dispatch that calls a handler, and the
state that the handler is called in.  Only for a step behind its operand is
there something to do: the snapshot is taken first. -/
def State.kept (s : State) (passed : Arguments) (use : Use) : Value × State :=
  match use, s.heap.instanceOf? passed.this with
  | .snapshot, some (_, i) =>
    (.object (s.heap.takeSnapshot i).1, { s with heap := (s.heap.takeSnapshot i).2 })
  | _, _ => (passed.this, s)

namespace Action

variable {s : State} {call : Function → Arguments → Action Value} {settings : Settings}
  {a : Application} {f : Function} {passed : Arguments} {use : Use}

/-- What comes before the call of a handler. -/
def keep (passed : Arguments) : Use → Action Value
  | .snapshot => do
    let (_, i) ← demand .unusable ((← heap).instanceOf? passed.this)
    return .object (← snapshot i)
  | .answer | .truth | .receiver => return passed.this

/-- The work of a dispatch that makes its answer out of a handler's result. -/
def responded (a : Application) (use : Use) (kept : Value) :
    EStateM.Result Interruption State Value → EStateM.Result Interruption State (Value × Outcome)
  | .ok v t => .ok (a.turn t.heap (use.answerFrom kept t.heap v), use.outcome) t
  | .error e t => .error e t

theorem finalState_responded {kept : Value} (result : EStateM.Result Interruption State Value) :
    finalState (responded a use kept result) = finalState result := by
  cases result <;> rfl

/-- The call comes after what is put by, and nothing but reading comes after
the call. -/
theorem invoke_eq (call : Function → Arguments → Action Value) (f : Function)
    (passed : Arguments) (use : Use) :
    invoke call f passed use = (do
      let kept ← keep passed use
      let v ← call f passed
      return (use.answerFrom kept (← heap) v, use.outcome)) := by
  cases use with
  | answer | receiver | truth => rfl
  | snapshot =>
      simp only [invoke, keep, bind_assoc, pure_bind]
      rfl

theorem perform_consulting {kept : Value} {s₁ : State}
    (hkept : keep passed use s = .ok kept s₁) :
    perform call settings a (.invoke f passed use) s =
      responded a use kept (call f passed s₁) := by
  have carried : carryOut call settings a.operator (.invoke f passed use) s =
      (do
        let v ← call f passed
        return (use.answerFrom kept (← heap) v, use.outcome) : Action _) s₁ := by
    show invoke call f passed use s = _
    rw [invoke_eq, bind_ok hkept]
  cases hcall : call f passed s₁ with
  | ok v t => exact perform_of_carryOut (carried.trans (bind_ok hcall))
  | error e t => exact bind_error (carried.trans (bind_error hcall))

theorem kept_snapshot {x : Address} {i : Instance} (hthis : passed.this = .object x)
    (hi : s.heap.get? x = some (.inst i)) :
    s.kept passed .snapshot =
      (.object (s.heap.takeSnapshot i).1, { s with heap := (s.heap.takeSnapshot i).2 }) := by
  simp only [State.kept, Heap.instanceOf?_eq_some.mpr ⟨hthis, hi⟩]

theorem keep_of_ne_snapshot (hu : use ≠ .snapshot) :
    keep passed use s = .ok passed.this s := by
  cases use with
  | answer | truth | receiver => rfl
  | snapshot => exact absurd rfl hu

theorem keep_snapshot {x : Address} {i : Instance} (hthis : passed.this = .object x)
    (hi : s.heap.get? x = some (.inst i)) :
    keep passed .snapshot s = (do return .object (← snapshot i) : Action Value) s := by
  have found : demand .unusable (s.heap.instanceOf? passed.this) s = .ok (x, i) s := by
    rw [Heap.instanceOf?_eq_some.mpr ⟨hthis, hi⟩]
    rfl
  exact bind_ok found

/-- On a covered heap what comes before the call succeeds. -/
theorem keep_eq {V : Vocabulary} (hc : (Scope.whole V).Covers s.heap)
    (decided : a.decide s.heap = .invoke f a.arguments use) :
    keep a.arguments use s = .ok (s.kept a.arguments use).1 (s.kept a.arguments use).2 := by
  cases use with
  | answer | truth | receiver => rfl
  | snapshot =>
      obtain ⟨x, i, hthis, hi⟩ := Application.exists_instance_of_decide decided
      have taken := snapshot_eq (s := s) (i := i) fun r hr =>
        ((hc.object x _ trivial hi).2.2 r hr).2
      rw [keep_snapshot hthis hi, kept_snapshot hthis hi]
      exact bind_ok taken

/-- What was there before the call is there when the handler is called. -/
theorem get?_kept (s : State) (passed : Arguments) (use : Use) {x : Address}
    (hx : x.index < s.heap.size) : (s.kept passed use).2.heap.get? x = s.heap.get? x := by
  unfold State.kept
  split
  · exact Heap.get?_takeSnapshot_of_lt hx
  · rfl

/-! ## Closing -/

theorem heap_concluded (r : DispatchRecord)
    (answer : State → EStateM.Result Interruption State Value)
    (h : ∀ t, finalState (answer t) = t) (t : State) :
    (finalState (concluded r answer t)).heap = t.heap := by
  unfold concluded
  split
  · rw [h]
    rfl
  · rfl

/-- Closing a dispatch leaves the heap as the work left it. -/
theorem heap_conclusion {d : Decision}
    (result : EStateM.Result Interruption State (Value × Outcome)) :
    (finalState (conclusion settings a d result)).heap = (finalState result).heap := by
  cases result with
  | ok x t => exact heap_concluded ⟨settings, a, d, .returned x.2⟩ (.ok x.1) (fun _ => rfl) t
  | error e t =>
      cases e with
      | raised fault =>
          exact heap_concluded ⟨settings, a, d, .raised (settings.told fault)⟩
            (.error (.raised (settings.told fault))) (fun _ => rfl) t
      | aborted text =>
          exact heap_concluded ⟨settings, a, d, .aborted⟩ (.error (.aborted text)) (fun _ => rfl) t
      | exhausted => rfl

end Action

/-! ## The ways of a dispatch -/

/-- How a dispatch goes about its work, whoever makes the calls for it. -/
inductive State.Conducts (s : State) (settings : Settings) (request : Request) : Prop
  /-- The request is refused, and nothing happens. -/
  | refuses {fault : Fault} (refused : request.application s.operators = .error fault)
      (served : ∀ call, Action.serve call settings request s = .error (.raised fault) s)
  /-- No handler is called, the outcome is not a handler's, and the record of
  the dispatch is all that is new. -/
  | alone {a : Application} {ending : DispatchEnding} {result : Except Fault Value}
      (accepted : request.application s.operators = .ok a)
      (decided : (a.decide s.heap).invokes = false)
      (outcome : ending.outcome? ≠ some .handler)
      (served : ∀ call, Action.serve call settings request s =
        Action.ofExcept result (s.settle ⟨settings, a, a.decide s.heap, ending⟩))
  /-- One handler is called, with the operands and from the state at hand, and
  the heap that it leaves is left. -/
  | consults {a : Application} {f : Function} {use : Use}
      (accepted : request.application s.operators = .ok a)
      (decided : a.decide s.heap = .invoke f a.arguments use)
      (inPlace : use ≠ .snapshot)
      (served : ∀ call, Action.serve call settings request s =
        Action.conclusion settings a (.invoke f a.arguments use)
          (Action.responded a use a.arguments.this (call f a.arguments s)))
      (left : ∀ call, (Action.finalState (Action.serve call settings request s)).heap =
        (Action.finalState (call f a.arguments s)).heap)
  /-- Behind the operand of a step the same is done after the snapshot, from a
  heap that has it besides what was there. -/
  | consultsBehind {o : Operator} {x : Address} {i : Instance} {f : Function}
      (accepted : request.application s.operators = .ok ⟨o, .step (.object x) true⟩)
      (stands : s.heap.get? x = some (.inst i))
      (decided : (⟨o, .step (.object x) true⟩ : Application).decide s.heap =
        .invoke f ⟨.object x, none⟩ .snapshot)
      (kept : ∀ y, y.index < s.heap.size → (s.heap.takeSnapshot i).2.get? y = s.heap.get? y)
      (served : ∀ call, Action.serve call settings request s =
        Action.conclusion settings ⟨o, .step (.object x) true⟩
          (.invoke f ⟨.object x, none⟩ .snapshot)
          (Action.responded ⟨o, .step (.object x) true⟩ .snapshot
            (.object (s.heap.takeSnapshot i).1)
            (call f ⟨.object x, none⟩ { s with heap := (s.heap.takeSnapshot i).2 })))
      (left : ∀ call, (Action.finalState (Action.serve call settings request s)).heap =
        (Action.finalState
          (call f ⟨.object x, none⟩ { s with heap := (s.heap.takeSnapshot i).2 })).heap)

namespace Action

variable {s : State} {settings : Settings} {request : Request} {a : Application}
  {f : Function} {use : Use}

theorem outcome_of_ending {h : Heap} {r : Except Fault (Value × Outcome)}
    (hr : a.ending? settings h (a.decide h) = some r) :
    (DispatchEnding.ofExcept r).outcome? ≠ some .handler := by
  have possible := a.decides h
  cases hd : a.decide h with
  | answer v outcome =>
      rw [hd] at hr possible
      cases hr
      cases possible with
      | answers own =>
          rintro ⟨⟩
          revert own
          decide
  | fail fault =>
      rw [hd] at hr
      cases hr
      exact nofun
  | fallBack fallback typeName =>
      rw [hd] at hr
      cases fallback <;> cases hr <;> exact nofun
  | invoke =>
      rw [hd] at hr
      cases hr

/-- A dispatch that calls a handler is the call, with what is put by for the
answer before it and the closing behind it. -/
theorem serve_consulting {kept : Value} {s₁ : State}
    (accepted : request.application s.operators = .ok a)
    (decided : a.decide s.heap = .invoke f a.arguments use)
    (hkept : keep a.arguments use s = .ok kept s₁) (call : Function → Arguments → Action Value) :
    serve call settings request s =
      conclusion settings a (.invoke f a.arguments use)
        (responded a use kept (call f a.arguments s₁)) := by
  rw [serve_accepted accepted, apply_eq, decided, perform_consulting hkept]

theorem heap_consulting {kept : Value} {s₁ : State}
    (accepted : request.application s.operators = .ok a)
    (decided : a.decide s.heap = .invoke f a.arguments use)
    (hkept : keep a.arguments use s = .ok kept s₁) (call : Function → Arguments → Action Value) :
    (finalState (serve call settings request s)).heap =
      (finalState (call f a.arguments s₁)).heap := by
  rw [serve_consulting accepted decided hkept call, heap_conclusion, finalState_responded]

/-- Whatever is asked of the dispatcher, on its own it only reads.  Without a
handler every object and every variable stays and none is added; with one, what
becomes of them is between the handler and the snapshot. -/
theorem dispatch_reads_only (hs : Reachable s) (settings : Settings) (request : Request) :
    s.Conducts settings request := by
  have hc := hs.confines.heap
  cases accepted : request.application s.operators with
  | error fault => exact .refuses accepted fun _ => serve_refused accepted
  | ok a =>
      cases called : (a.decide s.heap).invokes with
      | false =>
          obtain ⟨r, hr⟩ := Application.exists_ending a settings s.heap called
          exact .alone accepted called (outcome_of_ending hr) fun call =>
            (serve_accepted accepted).trans (apply_alone hr)
      | true =>
          obtain ⟨f, use, decided⟩ := Application.exists_handler_of_invokes called
          have kept := keep_eq hc decided
          have served : ∀ call, serve call settings request s = _ :=
            serve_consulting accepted decided kept
          have left : ∀ call, (finalState (serve call settings request s)).heap = _ :=
            heap_consulting accepted decided kept
          cases use with
          | answer | truth | receiver => exact .consults accepted decided nofun served left
          | snapshot =>
              obtain ⟨o, form⟩ := a
              obtain ⟨operand, rfl⟩ := Application.step_of_decide decided
              obtain ⟨x, i, rfl, hi⟩ := Application.exists_instance_of_decide decided
              rw [kept_snapshot rfl hi] at served left
              exact .consultsBehind accepted hi decided
                (fun y hy => Heap.get?_takeSnapshot_of_lt hy) served left

theorem dispatch_reads_only_counting :
    (State.after 0 counting).Conducts .standard (.unary "++" (some "postfix") (.object ⟨3⟩)) :=
  dispatch_reads_only (reachable_after 0 (Expr.within_full _)) _ _

end Action

end OperatorDispatch
