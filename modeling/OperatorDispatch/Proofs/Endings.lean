import OperatorDispatch.Proofs.Accounting
import OperatorDispatch.Proofs.Conduct

/-!
# Requests that end at once

A dispatch that calls no handler is over as soon as it is decided.
`State.EndsAtOnce` says what it comes to: the result with its outcome, or the fault,
that its decision has by itself.  Whoever would make the calls, that is what the
host gets, unless the collector objects to the count; and all that is new in the
state is the record of the dispatch.

Primitives have no handlers, so on them every dispatch ends at once.  An
equality is decided by value, any other operator by its native operation: a
result is the answer, operands of the wrong kinds are left to the fallback of the
category, and every other fault is raised.

A collector that admits dispatches has nothing to object to in a run that increments
no counters of its own (`unopposed_of_quiet`).
-/

namespace OperatorDispatch

/-- A request ends at once, with this result and outcome or this fault. -/
def State.EndsAtOnce (s : State) (settings : Settings) (request : Request)
    (r : Except Fault (Value × Outcome)) : Prop :=
  ∃ a, request.application s.operators = .ok a ∧
    ∀ call, Action.serve call settings request s =
      Action.ofExcept
        (Action.upheld s.ledger ⟨settings, a, a.decide s.heap, .ofExcept r⟩ (r.map Prod.fst))
        (s.settle ⟨settings, a, a.decide s.heap, .ofExcept r⟩)

/-- The collector takes every dispatch that is made under the settings. -/
def State.Unopposed (s : State) (settings : Settings) : Prop :=
  ∀ r : DispatchRecord, r.settings = settings → (s.ledger.enter r).2 = none

/-- What the fallback of a category makes of a primitive on the left. -/
def Operator.fallBackEnding (o : Operator) (settings : Settings) (p : Primitive) :
    Except Fault (Value × Outcome) :=
  match o.category.primitiveFallback with
  | .sentinel => .ok (settings.sentinel, .default)
  | .unequal => .ok (.boolean false, .default)
  | .refuse => .error (.operatorNotDefined o.category o.literal p.kind.name)

/-- What a native operation on primitives comes to as a dispatch. -/
def Operator.nativeEnding (o : Operator) (settings : Settings) (p : Primitive) :
    Except NativeFault Primitive → Except Fault (Value × Outcome)
  | .ok w => .ok (.primitive w, .native)
  | .error (.incompatible _) => o.fallBackEnding settings p
  | .error fault => .error (.native fault)

variable {s : State} {settings : Settings} {request : Request} {a : Application} {o : Operator}
  {literal : String} {p q : Primitive}

namespace Application

/-! ## The decision on a pair of operands -/

section Pairs

variable {h : Heap} {lhs rhs : Value}

theorem decide_equals (sel : o.selector = .equals) :
    (⟨o, .binary lhs rhs⟩ : Application).decide h = .equality h lhs rhs := by
  simp only [decide, sel]

theorem decide_strictEquals (sel : o.selector = .strictEquals) :
    (⟨o, .binary lhs rhs⟩ : Application).decide h = .strictEquality h lhs rhs := by
  simp only [decide, sel]

/-- There are two kinds of equality. -/
theorem selector_of_equality (category : o.category = .equality) :
    o.selector = .equals ∨ o.selector = .strictEquals := by
  rw [Operator.category] at category
  revert category
  cases o.selector <;> simp [Selector.category]

theorem decide_other (category : o.category ≠ .equality) :
    (⟨o, .binary lhs rhs⟩ : Application).decide h = .binary h o lhs rhs := by
  rw [Operator.category] at category
  unfold decide
  dsimp only
  split
  · rename_i sel
    rw [sel] at category
    exact absurd rfl category
  · rename_i sel
    rw [sel] at category
    exact absurd rfl category
  · rfl

/-- On primitives an equality is decided by value. -/
theorem decide_equality (category : o.category = .equality) (p q : Primitive) :
    ∃ b, (⟨o, .binary (.primitive p) (.primitive q)⟩ : Application).decide h =
      .answer (.boolean b) .native := by
  rcases selector_of_equality category with sel | sel
  · exact ⟨_, decide_equals sel⟩
  · exact ⟨_, decide_strictEquals sel⟩

end Pairs

/-! ## The ending of a native operation -/

theorem negates_of_category (form : Form) (h : o.category ≠ .equality) :
    (⟨o, form⟩ : Application).negates = false := by
  unfold negates
  split <;> simp [h]

theorem ending?_ofNative (form : Form) (h : Heap) (category : o.category ≠ .equality)
    (result : Except NativeFault Primitive) :
    (⟨o, form⟩ : Application).ending? settings h
        (.ofNative o.category p.kind.name id result) =
      some (o.nativeEnding settings p result) := by
  have unturned (v : Value) : (⟨o, form⟩ : Application).turn h v = v := by
    simp only [turn, negates_of_category form category, Bool.false_eq_true, if_false]
  cases result with
  | ok w => simp only [Decision.ofNative, ending?, unturned, id, Operator.nativeEnding]
  | error fault =>
      cases fault with
      | incompatible why =>
          simp only [Decision.ofNative, Operator.nativeEnding, Operator.fallBackEnding]
          cases o.category.primitiveFallback <;> simp only [ending?, unturned]
      | integerTooLarge | infiniteDividend | tooManyDigits | endlessText | noOperation => rfl

end Application

/-! ## Requests at their end -/

namespace State

theorem unopposed_of_quiet (hs : ReachableWithin .quiet s)
    (admits : s.ledger.collector.AdmitsDispatches) (settings : Settings) :
    s.Unopposed settings := by
  intro r _
  obtain ⟨series, -, entered⟩ := Ledger.enter_eq (hs.replayed.countsDispatches admits) r
  rw [entered]

/-- With nothing to object to, a request gives what it ends with. -/
theorem EndsAtOnce.serve_eq {r : Except Fault (Value × Outcome)}
    (ends : s.EndsAtOnce settings request r) (free : s.Unopposed settings)
    (call : Function → Arguments → Action Value) :
    ∃ t, Action.serve call settings request s = Action.ofExcept (r.map Prod.fst) t := by
  obtain ⟨a, -, served⟩ := ends
  refine ⟨s.settle ⟨settings, a, a.decide s.heap, .ofExcept r⟩, ?_⟩
  rw [served call, Action.upheld, free ⟨settings, a, a.decide s.heap, .ofExcept r⟩ rfl]

end State

namespace Action

theorem endsAtOnce_of_ending {r : Except Fault (Value × Outcome)}
    (accepted : request.application s.operators = .ok a)
    (hr : a.ending? settings s.heap (a.decide s.heap) = some r) :
    s.EndsAtOnce settings request r :=
  ⟨a, accepted, fun _ => (serve_accepted accepted).trans (apply_alone hr)⟩

section Primitives

variable (found : s.operators.find? .binary literal = some o)

include found

/-- On two primitives a dispatch ends by the native operation. -/
theorem endsAtOnce_native (category : o.category ≠ .equality) (settings : Settings)
    (p q : Primitive) :
    s.EndsAtOnce settings (.binary literal (.primitive p) (.primitive q))
      (o.nativeEnding settings p (Native.binary o.selector p q)) := by
  refine endsAtOnce_of_ending
    (application_binary _ _ (OperatorTables.lookup_of_find? found)) ?_
  rw [Application.decide_other category]
  exact Application.ending?_ofNative _ _ category _

theorem endsAtOnce_equality (category : o.category = .equality) (settings : Settings)
    (p q : Primitive) :
    ∃ b, s.EndsAtOnce settings (.binary literal (.primitive p) (.primitive q))
      (.ok (.boolean b, .native)) := by
  obtain ⟨b, decided⟩ := Application.decide_equality (h := s.heap) category p q
  have accepted := application_binary (.primitive p) (.primitive q)
    (OperatorTables.lookup_of_find? found)
  have ended : ∃ b', (⟨o, .binary (.primitive p) (.primitive q)⟩ : Application).turn s.heap
      (.boolean b) = .boolean b' := by
    unfold Application.turn
    split <;> exact ⟨_, rfl⟩
  obtain ⟨b', turned⟩ := ended
  refine ⟨b', endsAtOnce_of_ending accepted ?_⟩
  rw [decided, Application.ending?, turned]

end Primitives

/-- On one primitive a dispatch ends by the native operation. -/
theorem endsAtOnce_unary (settings : Settings) {p : Primitive}
    (accepted : request.application s.operators = .ok ⟨o, .unary (.primitive p)⟩)
    (category : o.category ≠ .equality) :
    s.EndsAtOnce settings request (o.nativeEnding settings p (Native.unary o.selector p)) :=
  endsAtOnce_of_ending accepted (Application.ending?_ofNative _ _ category _)

end Action

end OperatorDispatch
