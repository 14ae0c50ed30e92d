import OperatorDispatch.Proofs.Failures

/-!
# How a dispatch on two primitives ends

The verdict on the native operation is carried over to the dispatch.  What the
operation refuses for the kinds of its operands is answered by the category: a
relation has no answer and refuses as well, and any other operator that takes
numbers answers with the sentinel.  What it fails on is raised as it is, and an
equality has an answer for whatever there is to compare.

So `Operator.EndsWith` describes an ending without a look at the engine, and every
dispatch on two primitives ends like that (`primitives_fail_iff`).
-/

namespace OperatorDispatch

/-- The faults of a dispatch on two primitives. -/
inductive Operator.FailsOn (o : Operator) (p q : Primitive) : Fault → Prop
  /-- A relation is refused where its operands are of the wrong kinds. -/
  | unordered (relation : o.category = .relational) (mismatched : o.selector.Mismatched p q) :
      FailsOn o p q (.operatorNotDefined o.category o.literal p.kind.name)
  | native {fault : NativeFault} (h : Native.Fails o.selector p q fault) :
      FailsOn o p q (.native fault)

/-- How a dispatch on two primitives ends, told from the operands: it fails in the
ways described, it falls back to the sentinel where the kinds are wrong, and
otherwise it computes a value. -/
structure Operator.EndsWith (o : Operator) (settings : Settings) (p q : Primitive)
    (r : Except Fault (Value × Outcome)) : Prop where
  fails : ∀ fault, r = .error fault ↔ o.FailsOn p q fault
  defaults : ∀ v, r = .ok (v, .default) ↔
    v = settings.sentinel ∧ o.category ≠ .relational ∧ o.selector.Mismatched p q
  computes : ∀ v outcome, r = .ok (v, outcome) → outcome ≠ .default →
    outcome = .native ∧ ∃ w, v = .primitive w

namespace Operator

variable {o : Operator} {settings : Settings} {p q : Primitive}

/-- Without a failure there is a value. -/
theorem endsWith_value (matched : ¬ o.selector.Mismatched p q)
    (unfailing : ∀ fault, ¬ Native.Fails o.selector p q fault) (w : Primitive) :
    o.EndsWith settings p q (.ok (.primitive w, .native)) where
  fails fault := by
    refine iff_of_false nofun ?_
    rintro (⟨-, mismatched⟩ | failed)
    · exact matched mismatched
    · exact unfailing _ failed
  defaults v := iff_of_false nofun fun h => matched h.2.2
  computes := by
    rintro v outcome ⟨⟩ -
    exact ⟨rfl, w, rfl⟩

theorem endsWith_fault {fault : NativeFault} (failed : Native.Fails o.selector p q fault)
    (only : ∀ fault', Native.Fails o.selector p q fault' → fault' = fault) :
    o.EndsWith settings p q (.error (.native fault)) where
  fails fault' := by
    constructor
    · rintro ⟨⟩
      exact .native failed
    · rintro (⟨-, mismatched⟩ | failed')
      · exact absurd mismatched failed.not_mismatched
      · rw [only _ failed']
  defaults v := iff_of_false nofun fun h => failed.not_mismatched h.2.2
  computes := by
    rintro v outcome ⟨⟩

/-- An equality compares whatever there is. -/
theorem endsWith_equality (category : o.category = .equality) (b : Bool) :
    o.EndsWith settings p q (.ok (.boolean b, .native)) := by
  have harmless : Native.Harmless o.selector := by
    rcases Application.selector_of_equality category with sel | sel <;> rw [sel] <;> decide
  refine endsWith_value ?_ (fun _ => Native.not_fails harmless) (.boolean b)
  rw [Operator.category] at category
  simp only [Selector.Mismatched, category, not_false_eq_true]

/-- Only two fallbacks are there for operands of the wrong kinds. -/
theorem endsWith_fallBack (mismatched : o.selector.Mismatched p q) :
    o.EndsWith settings p q (o.fallBackEnding settings p) := by
  have unfailing {fault : NativeFault} : ¬ Native.Fails o.selector p q fault :=
    fun failed => failed.not_mismatched mismatched
  by_cases relation : o.category = .relational
  · have refused : o.fallBackEnding settings p =
        .error (.operatorNotDefined o.category o.literal p.kind.name) := by
      simp only [fallBackEnding, relation, Category.primitiveFallback]
    rw [refused]
    refine ⟨fun fault => ⟨?_, ?_⟩, fun v => ?_, by rintro _ _ ⟨⟩⟩
    · rintro ⟨⟩
      exact .unordered relation mismatched
    · rintro (_ | failed)
      · rfl
      · exact absurd failed unfailing
    · exact iff_of_false (by rintro ⟨⟩) fun h => h.2.1 relation
  · have answered : o.fallBackEnding settings p = .ok (settings.sentinel, .default) := by
      unfold Selector.Mismatched at mismatched
      unfold Operator.category at relation
      unfold fallBackEnding Operator.category
      cases hc : o.selector.category <;> simp_all [Category.primitiveFallback]
    rw [answered]
    refine ⟨fun fault => iff_of_false (by rintro ⟨⟩) ?_, fun v => ?_, ?_⟩
    · rintro (⟨isRelation⟩ | failed)
      · exact relation isRelation
      · exact unfailing failed
    · simp [relation, mismatched, eq_comm]
    · rintro v outcome ⟨⟩ other
      exact absurd rfl other

theorem endsWith_native (category : o.category ≠ .equality) (settings : Settings)
    (p q : Primitive) :
    o.EndsWith settings p q (o.nativeEnding settings p (Native.binary o.selector p q)) := by
  have verdict := Native.judged category p q
  generalize Native.binary o.selector p q = result at verdict
  have only {fault : NativeFault} (failed : Native.Fails o.selector p q fault) :
      result = .error fault := (verdict.fails _ failed.ne_incompatible).mpr failed
  cases result with
  | ok w =>
      refine endsWith_value (fun mismatched => ?_) (fun fault failed => ?_) w
      · obtain ⟨why, wrong⟩ := verdict.mismatched.mpr mismatched
        cases wrong
      · cases only failed
  | error fault =>
      by_cases kind : ∃ why, fault = .incompatible why
      · obtain ⟨why, rfl⟩ := kind
        exact endsWith_fallBack (verdict.mismatched.mp ⟨why, rfl⟩)
      · rw [not_exists] at kind
        have raised : o.nativeEnding settings p (.error fault) = .error (.native fault) := by
          cases fault with
          | incompatible why => exact absurd rfl (kind why)
          | integerTooLarge | infiniteDividend | tooManyDigits | endlessText | noOperation => rfl
        rw [raised]
        refine endsWith_fault ((verdict.fails fault kind).mp rfl) fun fault' failed => ?_
        exact (Except.error.inj (only failed)).symm

end Operator

namespace Action

/-- The operands tell exactly when a dispatch on two primitives fails, and how.
The selectors for one operand are behind none of the tokens of the language. -/
theorem primitives_fail_iff {s : State} {literal : String} {o : Operator}
    (found : s.operators.find? .binary literal = some o) (settings : Settings)
    (p q : Primitive) :
    (∃ r, s.EndsAtOnce settings (.binary literal (.primitive p) (.primitive q)) r ∧
      o.EndsWith settings p q r ∧
      (s.Unopposed settings → ∀ call, ∃ t,
        serve call settings (.binary literal (.primitive p) (.primitive q)) s =
          ofExcept (r.map Prod.fst) t)) ∧
    (o ∈ OperatorTables.standard.binary →
      ∀ sel, ¬ o.FailsOn p q (.native (.noOperation sel))) := by
  constructor
  · by_cases category : o.category = .equality
    · obtain ⟨b, atOnce⟩ := endsAtOnce_equality found category settings p q
      exact ⟨_, atOnce, Operator.endsWith_equality category b, atOnce.serve_eq⟩
    · have atOnce := endsAtOnce_native found category settings p q
      exact ⟨_, atOnce, Operator.endsWith_native category settings p q, atOnce.serve_eq⟩
  · have binary : ∀ o ∈ OperatorTables.standard.binary, o.selector.isUnary = false := by decide
    rintro standard sel (_ | ⟨_ | _ | _ | unary⟩)
    rw [binary o standard] at unary
    cases unary

/-- An infinity has no remainder, and nobody objects to its being said. -/
theorem primitives_fail_iff_infinity :
    (∀ call, ∃ t,
      serve call .standard
          (.binary "%" (.primitive (.double (.infinity true))) (.primitive (.integer 3)))
          (.initial .standard) =
        .error (.raised (.native .infiniteDividend)) t) ∧
      NativeFault.infiniteDividend.message? = some "math domain error" := by
  refine ⟨fun call => ?_, rfl⟩
  obtain ⟨o, found, modulus⟩ :
      ∃ o, (State.initial .standard).operators.find? .binary "%" = some o ∧
        o.selector = .modulus := ⟨_, rfl, rfl⟩
  obtain ⟨⟨r, -, ends, served⟩, -⟩ :=
    primitives_fail_iff found .standard (.double (.infinity true)) (.integer 3)
  have small : ¬ (Primitive.integer 3).Oversized := by
    rintro ⟨n, ⟨⟩, large⟩
    cases Double.ofInt?_eq_none_iff.mpr large
  have failed : r = .error (.native .infiniteDividend) :=
    (ends.fails _).mpr (.native (.infinite modulus ⟨true, rfl⟩ (.inl rfl) nofun nofun small))
  rw [failed] at served
  have free := State.unopposed_of_quiet .initial Collector.admitsDispatches_standard .standard
  exact served free call

end Action

end OperatorDispatch
