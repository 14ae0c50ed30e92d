import OperatorDispatch.Proofs.Negation

/-!
# Identity and derived strict equality

Nothing comes before identity: a value other than a primitive is equal to itself,
in both ways, and no handler is asked.

A left operand that has `equals` and not `strictEquals` is strictly equal by the
former, once the right operand has been found to be of the right kind: an
untagged left operand takes anything but a primitive, and a tagged one an instance
of its very own type definition (`Heap.Apart`).  This is looked at before the
call, so where it fails nothing is called; and where it does not fail the two
equalities make the same call from the same state, and go in step.
-/

namespace OperatorDispatch

/-! ## Operands apart -/

namespace Heap

/-- An instance of a type definition, and not only of a subtype of it. -/
def IsInstanceOf (h : Heap) (v : Value) (t : Address) : Prop :=
  ∃ x i, v = .object x ∧ h.get? x = some (.inst i) ∧ i.type = some t

/-- The right operand is not to be compared by `equals` strictly. -/
inductive Apart (h : Heap) (lhs rhs : Value) : Prop
  | primitive {p : Primitive} (eq : rhs = .primitive p)
  | tagged {t : Address} (own : h.IsInstanceOf lhs t) (other : ¬ h.IsInstanceOf rhs t)

variable {h : Heap} {lhs rhs : Value} {t : Address}

/-- The type definition of a value, as the classification has it. -/
theorem isInstanceOf_iff : h.IsInstanceOf lhs t ↔
    ∃ left, h.classify lhs = .taggable left ∧ left.type = some t := by
  unfold classify
  constructor
  · rintro ⟨x, i, rfl, hi, typed⟩
    dsimp only
    rw [hi]
    exact ⟨_, rfl, typed⟩
  · rintro ⟨left, classified, typed⟩
    split at classified
    · cases classified
    · cases classified
      cases typed
    · rename_i x
      split at classified
      · rename_i i hi
        cases classified
        exact ⟨x, i, rfl, hi, typed⟩
      · cases classified
        cases typed
      · cases classified
        cases typed

/-- What the engine calls nominally compatible is what is not apart. -/
theorem nominallyCompatible_iff {left : Taggable} (classified : h.classify lhs = .taggable left) :
    nominallyCompatible left (h.classify rhs) = true ↔ ¬ h.Apart lhs rhs := by
  have typed (t : Address) : h.IsInstanceOf lhs t ↔ left.type = some t := by
    rw [isInstanceOf_iff, classified]
    simp
  cases hr : h.classify rhs with
  | primitive p =>
      obtain rfl : rhs = .primitive p := by
        unfold classify at hr
        split at hr
        · cases hr
          rfl
        · cases hr
        · split at hr <;> cases hr
      exact iff_of_false nofun fun close => close (.primitive rfl)
  | taggable right =>
      have notPrimitive (p : Primitive) : rhs ≠ .primitive p := by
        rintro rfl
        cases hr
      have typed' (t : Address) : h.IsInstanceOf rhs t ↔ right.type = some t := by
        rw [isInstanceOf_iff, hr]
        simp
      unfold nominallyCompatible
      cases hl : left.type with
      | none =>
          refine iff_of_true rfl ?_
          rintro (⟨eq⟩ | ⟨own, other⟩)
          · exact notPrimitive _ eq
          · rw [typed, hl] at own
            cases own
      | some t =>
          simp only [Option.isNone_some, Bool.false_or, beq_iff_eq]
          constructor
          · rintro same (⟨eq⟩ | ⟨own, other⟩)
            · exact notPrimitive _ eq
            · rw [typed, hl] at own
              rw [typed', same] at other
              exact other own
          · intro close
            by_contra different
            exact close (.tagged ((typed t).mpr hl) fun h => different ((typed' t).mp h))

end Heap

/-! ## Decisions -/

/-- Two values are identical if they are the same value and it is no primitive. -/
theorem Value.identical_self {x : Value} (h : ∀ p, x ≠ .primitive p) : x.identical x = true := by
  cases x with
  | primitive p => exact absurd rfl (h p)
  | function f => exact beq_self_eq_true f.number
  | object a => exact beq_self_eq_true a

theorem Value.not_identical {x : Address} {v : Value} (h : v ≠ .object x) :
    (Value.object x).identical v = false := by
  cases v with
  | primitive | function => rfl
  | object y => exact beq_eq_false_iff_ne.mpr fun same => h (by rw [same])

/-- What a left operand is like that has `equals` and not `strictEquals`. -/
structure Heap.HasEqualsOnly (h : Heap) (lhs : Value) (f : Function) : Prop where
  strict : h.resolve (h.classify lhs) .strictEquals = none
  loose : h.resolve (h.classify lhs) .equals = some f

namespace Heap.HasEqualsOnly

open Decision

variable {h : Heap} {lhs rhs : Value} {f : Function}

theorem ne_primitive (has : h.HasEqualsOnly lhs f) (p : Primitive) : lhs ≠ .primitive p := by
  rintro rfl
  cases has.loose

theorem not_identical (has : h.HasEqualsOnly lhs f) (distinct : rhs ≠ lhs) :
    lhs.identical rhs = false := by
  cases lhs with
  | primitive => rfl
  | function => cases has.loose
  | object x => exact Value.not_identical distinct

theorem exists_taggable (has : h.HasEqualsOnly lhs f) :
    ∃ left, h.classify lhs = .taggable left := by
  cases hl : h.classify lhs with
  | primitive p =>
      have loose := has.loose
      rw [hl] at loose
      cases loose
  | taggable left => exact ⟨left, rfl⟩

variable (has : h.HasEqualsOnly lhs f) (distinct : rhs ≠ lhs)

include has distinct

theorem equality_eq : equality h lhs rhs = .invoke f ⟨lhs, some rhs⟩ .answer := by
  unfold equality
  rw [has.not_identical distinct, has.loose]
  rfl

theorem strictEquality_eq {left : Taggable} (classified : h.classify lhs = .taggable left) :
    strictEquality h lhs rhs =
      if nominallyCompatible left (h.classify rhs) then .invoke f ⟨lhs, some rhs⟩ .truth
      else .answer (.boolean false) .derived := by
  have strict := has.strict
  have loose := has.loose
  rw [classified] at strict loose
  simp only [strictEquality, derivedEquality, has.not_identical distinct, classified, strict, loose,
    Bool.false_eq_true, if_false]

theorem strictEquality_apart (apart : h.Apart lhs rhs) :
    strictEquality h lhs rhs = .answer (.boolean false) .derived := by
  obtain ⟨left, classified⟩ := has.exists_taggable
  rw [has.strictEquality_eq distinct classified, if_neg]
  rw [nominallyCompatible_iff classified, not_not]
  exact apart

theorem strictEquality_close (close : ¬ h.Apart lhs rhs) :
    strictEquality h lhs rhs = .invoke f ⟨lhs, some rhs⟩ .truth := by
  obtain ⟨left, classified⟩ := has.exists_taggable
  rw [has.strictEquality_eq distinct classified, if_pos]
  exact (nominallyCompatible_iff classified).mpr close

end Heap.HasEqualsOnly

/-! ## Dispatches -/

/-- The records of an equality by a handler and of the strict equality that is
derived from it. -/
structure DispatchRecord.Derives (f : Function) (passed : Arguments) (r r' : DispatchRecord) :
    Prop where
  literals : r.literal = "==" ∧ r'.literal = "==="
  settings : r'.settings = r.settings
  form : r'.application.form = r.application.form
  decisions : r.decision = .invoke f passed .answer ∧ r'.decision = .invoke f passed .truth
  ending : r'.ending = r.ending.map fun _ => .derived

namespace Action

/-- Identity, and what strict equality is derived to be. -/
structure ComparesStrictly (s : State) (settings : Settings) : Prop where
  /-- A value other than a primitive is itself, and nothing is called. -/
  identity : ∀ x : Value, (∀ p, x ≠ .primitive p) → ∀ literal ∈ ["==", "==="],
    s.EndsAtOnce settings (.binary literal x x) (.ok (.boolean true, .identity))
  /-- Operands apart are unequal, and nothing is called. -/
  apart : ∀ lhs rhs f, s.heap.HasEqualsOnly lhs f → rhs ≠ lhs → s.heap.Apart lhs rhs →
    s.EndsAtOnce settings (.binary "===" lhs rhs) (.ok (.boolean false, .derived))
  /-- Otherwise the answer is the truth value of what `equals` answers. -/
  derived : ∀ lhs rhs f, s.heap.HasEqualsOnly lhs f → rhs ≠ lhs → ¬ s.heap.Apart lhs rhs →
    ∀ call, InStep (fun h v => .boolean (h.truthy v))
      (DispatchRecord.Derives f ⟨lhs, some rhs⟩) (finalState (call f ⟨lhs, some rhs⟩ s))
      (serve call settings (.binary "==" lhs rhs) s)
      (serve call settings (.binary "===" lhs rhs) s)
  implies : ∀ lhs rhs f, s.heap.HasEqualsOnly lhs f → ∀ call t,
    serve call settings (.binary "===" lhs rhs) s = .ok (.boolean true) t →
      ∃ v t', serve call settings (.binary "==" lhs rhs) s = .ok v t' ∧ t'.heap.truthy v = true

variable {s : State} {settings : Settings} {o : Operator} {literal : String} {lhs rhs : Value}
  {f : Function}

/-- The tokens of the two equalities. -/
theorem found_equality (hs : Reachable s) :
    ∃ o, s.operators.find? .binary "==" = some o ∧ o.negated = false ∧ o.selector = .equals :=
  ⟨_, hs.find?_operators rfl, rfl, rfl⟩

theorem found_strictEquality (hs : Reachable s) :
    ∃ o, s.operators.find? .binary "===" = some o ∧ o.negated = false ∧
      o.selector = .strictEquals :=
  ⟨_, hs.find?_operators rfl, rfl, rfl⟩

theorem endsAtOnce_answer (found : s.operators.find? .binary literal = some o)
    (plain : o.negated = false) {v : Value} {outcome : Outcome}
    (decided : (⟨o, .binary lhs rhs⟩ : Application).decide s.heap = .answer v outcome) :
    s.EndsAtOnce settings (.binary literal lhs rhs) (.ok (v, outcome)) := by
  refine endsAtOnce_of_ending (application_binary lhs rhs (OperatorTables.lookup_of_find? found)) ?_
  rw [decided, Application.ending?, Application.turn_plain plain]

theorem endsAtOnce_identity (hs : Reachable s) (settings : Settings) {x : Value}
    (h : ∀ p, x ≠ .primitive p) (hl : literal ∈ ["==", "==="]) :
    s.EndsAtOnce settings (.binary literal x x) (.ok (.boolean true, .identity)) := by
  have identical := Value.identical_self h
  simp only [List.mem_cons, List.not_mem_nil, or_false] at hl
  rcases hl with rfl | rfl
  · obtain ⟨o, found, plain, sel⟩ := found_equality hs
    refine endsAtOnce_answer found plain ?_
    rw [Application.decide_equals sel]
    exact if_pos identical
  · obtain ⟨o, found, plain, sel⟩ := found_strictEquality hs
    refine endsAtOnce_answer found plain ?_
    rw [Application.decide_strictEquals sel]
    exact if_pos identical

theorem endsAtOnce_apart (hs : Reachable s) (settings : Settings) (has : s.heap.HasEqualsOnly lhs f)
    (distinct : rhs ≠ lhs) (apart : s.heap.Apart lhs rhs) :
    s.EndsAtOnce settings (.binary "===" lhs rhs) (.ok (.boolean false, .derived)) := by
  obtain ⟨o, found, plain, sel⟩ := found_strictEquality hs
  refine endsAtOnce_answer found plain ?_
  rw [Application.decide_strictEquals sel]
  exact has.strictEquality_apart distinct apart

/-- The truth value of what a handler answers is taken behind the call. -/
theorem perform_truth (plain : o.negated = false) {o' : Operator} (plain' : o'.negated = false)
    (call : Function → Arguments → Action Value) (f : Function) (passed : Arguments) :
    perform call settings ⟨o', .binary lhs rhs⟩ (.invoke f passed .truth) s =
      recast (fun h v => .boolean (h.truthy v)) (fun _ => .derived)
        (perform call settings ⟨o, .binary lhs rhs⟩ (.invoke f passed .answer) s) := by
  have kept : keep passed .answer s = .ok passed.this s := rfl
  have kept' : keep passed .truth s = .ok passed.this s := rfl
  rw [perform_consulting kept, perform_consulting kept']
  cases call f passed s with
  | ok v t =>
      simp only [responded, recast, Application.turn_plain plain, Application.turn_plain plain',
        Use.answerFrom, Use.outcome]
  | error e t => rfl

theorem inStep_derived (hs : Reachable s) (settings : Settings) (has : s.heap.HasEqualsOnly lhs f)
    (distinct : rhs ≠ lhs) (close : ¬ s.heap.Apart lhs rhs)
    (call : Function → Arguments → Action Value) :
    InStep (fun h v => .boolean (h.truthy v)) (DispatchRecord.Derives f ⟨lhs, some rhs⟩)
      (finalState (call f ⟨lhs, some rhs⟩ s)) (serve call settings (.binary "==" lhs rhs) s)
      (serve call settings (.binary "===" lhs rhs) s) := by
  obtain ⟨o, found, plain, sel⟩ := found_equality hs
  obtain ⟨o', found', plain', sel'⟩ := found_strictEquality hs
  have known := OperatorTables.lookup_of_find? found
  have known' := OperatorTables.lookup_of_find? found'
  rw [serve_accepted (application_binary lhs rhs known),
    serve_accepted (application_binary lhs rhs known'), apply_eq, apply_eq,
    Application.decide_equals sel, Application.decide_strictEquals sel',
    has.equality_eq distinct, has.strictEquality_close distinct close, perform_truth plain plain']
  have left : finalState (call f ⟨lhs, some rhs⟩ s) = finalState
      (perform call settings ⟨o, .binary lhs rhs⟩ (.invoke f ⟨lhs, some rhs⟩ .answer) s) := by
    have kept : keep ⟨lhs, some rhs⟩ .answer s = .ok lhs s := rfl
    rw [perform_consulting kept, finalState_responded]
  rw [left]
  refine inStep_conclusion (fun ending => ?_) _
  exact ⟨⟨Request.lookup_literal known, Request.lookup_literal known'⟩, rfl, rfl, ⟨rfl, rfl⟩, rfl⟩

/-- A request that ends with an answer gives that answer or a failure. -/
theorem answer_of_endsAtOnce {v w : Value} {outcome : Outcome} {t : State} {request : Request}
    (ends : s.EndsAtOnce settings request (.ok (v, outcome)))
    {call : Function → Arguments → Action Value}
    (served : serve call settings request s = .ok w t) : w = v := by
  obtain ⟨a, -, ends⟩ := ends
  rw [ends, upheld] at served
  split at served <;> cases served
  rfl

/-- Where one request gives the answer that it ends with, so does another one under
the same settings. -/
theorem answers_of_endsAtOnce {v w : Value} {outcome outcome' : Outcome} {t : State}
    {request request' : Request} {call : Function → Arguments → Action Value} {u : Value}
    (ends : s.EndsAtOnce settings request (.ok (v, outcome)))
    (ends' : s.EndsAtOnce settings request' (.ok (w, outcome')))
    (served : serve call settings request s = .ok u t) :
    ∃ t', serve call settings request' s = .ok w t' := by
  obtain ⟨a, -, ends⟩ := ends
  obtain ⟨a', -, ends'⟩ := ends'
  obtain ⟨r, hr⟩ : ∃ r : DispatchRecord, r = ⟨settings, a, a.decide s.heap,
      .ofExcept (.ok (v, outcome))⟩ := ⟨_, rfl⟩
  obtain ⟨r', hr'⟩ : ∃ r' : DispatchRecord, r' = ⟨settings, a', a'.decide s.heap,
      .ofExcept (.ok (w, outcome'))⟩ := ⟨_, rfl⟩
  have agreed : (s.ledger.enter r).2 = (s.ledger.enter r').2 := by
    rw [hr, hr']
    exact Ledger.refusal_enter s.ledger rfl rfl
  rw [ends, ← hr, upheld, agreed] at served
  rw [ends', ← hr', upheld]
  cases refusal : (s.ledger.enter r').2 with
  | none => exact ⟨s.settle r', rfl⟩
  | some why =>
      rw [refusal] at served
      cases served

/-- A value is itself before any handler is asked; and with `equals` alone, strict
equality is kind first, and then the truth of what `equals` answers. -/
theorem derived_equality (hs : Reachable s) (settings : Settings) :
    ComparesStrictly s settings where
  identity x h literal hl := endsAtOnce_identity hs settings h hl
  apart lhs rhs f has distinct apart := endsAtOnce_apart hs settings has distinct apart
  derived lhs rhs f has distinct close := inStep_derived hs settings has distinct close
  implies lhs rhs f has call t served := by
    by_cases same : rhs = lhs
    · subst same
      have ends : ∀ literal ∈ ["==", "==="], s.EndsAtOnce settings (.binary literal rhs rhs)
          (.ok (.boolean true, .identity)) :=
        fun literal hl => endsAtOnce_identity hs settings has.ne_primitive hl
      obtain ⟨t', answered⟩ :=
        answers_of_endsAtOnce (ends "===" (by decide)) (ends "==" (by decide)) served
      exact ⟨_, t', answered, rfl⟩
    · by_cases apart : s.heap.Apart lhs rhs
      · have ends := endsAtOnce_apart hs settings has same apart
        cases answer_of_endsAtOnce ends served
      · have step := inStep_derived hs settings has same apart call
        rw [served] at step
        obtain ⟨v, t', answered, truth⟩ := step.exists_answer
        exact ⟨v, t', answered, (Primitive.boolean.inj (Value.primitive.inj truth)).symm⟩

/-- A type with `equals`, two instances of it and one of a subtype. -/
def shapes : Expr :=
  .sequence [
    .assign "Shape" (.call (.definition (.define "Shape" ["equals"]))
      [.handler "same" (.variable "other"), .literal .null]),
    .assign "Square" (.call (.definition (.define "Square" [])) [.variable "Shape"]),
    .call (.definition (.instantiate [])) [.variable "Shape"],
    .call (.definition (.instantiate [])) [.variable "Shape"],
    .call (.definition (.instantiate [])) [.variable "Square"]]

/-- Two instances of one type are compared by its handler, and one of a subtype is
unequal to them at once. -/
theorem derived_equality_shapes :
    ∃ f, (State.after 0 shapes).heap.HasEqualsOnly (.object ⟨4⟩) f ∧
      (State.after 0 shapes).EndsAtOnce .standard (.binary "===" (.object ⟨4⟩) (.object ⟨6⟩))
        (.ok (.boolean false, .derived)) ∧
      ∀ call, InStep (fun h v => .boolean (h.truthy v))
        (DispatchRecord.Derives f ⟨.object ⟨4⟩, some (.object ⟨5⟩)⟩)
        (finalState (call f ⟨.object ⟨4⟩, some (.object ⟨5⟩)⟩ (.after 0 shapes)))
        (serve call .standard (.binary "==" (.object ⟨4⟩) (.object ⟨5⟩)) (.after 0 shapes))
        (serve call .standard (.binary "===" (.object ⟨4⟩) (.object ⟨5⟩)) (.after 0 shapes)) := by
  have strict : ((State.after 0 shapes).heap.resolve
      ((State.after 0 shapes).heap.classify (.object ⟨4⟩)) .strictEquals).isNone = true := by
    decide +kernel
  have loose : ((State.after 0 shapes).heap.resolve
      ((State.after 0 shapes).heap.classify (.object ⟨4⟩)) .equals).isSome = true := by
    decide +kernel
  obtain ⟨f, loose⟩ := Option.isSome_iff_exists.mp loose
  have has : (State.after 0 shapes).heap.HasEqualsOnly (.object ⟨4⟩) f :=
    ⟨Option.isNone_iff_eq_none.mp strict, loose⟩
  have compares := derived_equality (reachable_after 0 (Expr.within_full shapes)) .standard
  have square : (Value.object ⟨6⟩) ≠ .object ⟨4⟩ := nofun
  have shape : (Value.object ⟨5⟩) ≠ .object ⟨4⟩ := nofun
  refine ⟨f, has, compares.apart _ _ f has square ?_, compares.derived _ _ f has shape ?_⟩
  · by_contra close
    have unasked : (Decision.strictEquality (State.after 0 shapes).heap (.object ⟨4⟩)
        (.object ⟨6⟩)).invokes = false := by decide +kernel
    rw [has.strictEquality_close square close] at unasked
    cases unasked
  · intro apart
    have asked : (Decision.strictEquality (State.after 0 shapes).heap (.object ⟨4⟩)
        (.object ⟨5⟩)).invokes = true := by decide +kernel
    rw [has.strictEquality_apart shape apart] at asked
    cases asked

end Action

end OperatorDispatch
