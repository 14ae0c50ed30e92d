import OperatorDispatch.Proofs.Commands
import OperatorDispatch.Session

/-!
# Evaluation inside a scope

Code of the vocabulary, evaluated from a confined state on known arguments,
goes through steps of the scope only and gives a known value.  The proof is by
structural recursion on the code, over any caller that keeps to the scope;
`serves_callAt` then ties the knot by induction on the depth.
-/

namespace OperatorDispatch

namespace Scope

variable {S : Scope} {h h' : Heap}

/-- The arguments of the call around, if there is one. -/
def KnowsFrame (S : Scope) (h : Heap) (frame : Option Arguments) : Prop :=
  ∀ arguments, frame = some arguments → S.KnowsArguments h arguments

theorem knowsFrame_none : S.KnowsFrame h none := by
  rintro _ ⟨⟩

theorem KnowsFrame.later (hl : h.Later h') {frame : Option Arguments}
    (hf : S.KnowsFrame h frame) : S.KnowsFrame h' frame :=
  fun arguments ha => (hf arguments ha).later hl

end Scope

namespace Action

variable {S : Scope} {engine : Engine} {call : Function → Arguments → Action Value}
  {frame : Option Arguments}

/-! ## The constructs that are no commands -/

section Constructs

variable {s : State} {α : Type} {Q : α → State → Prop}

theorem runs_readVariable (hs : S.Confines s) (hf : S.KnowsFrame s.heap frame) {name : String} :
    Runs S.Step s (readVariable frame name) fun v s' => S.Knows s'.heap v := by
  unfold Runs readVariable
  dsimp only
  split
  · rename_i v hv
    refine ⟨.refl, ?_⟩
    split at hv
    · cases hv
      exact (hf _ rfl).1
    · exact (hf _ rfl).2 v hv
    · cases hv
  · split
    · rename_i v hv
      exact ⟨.refl, hs.bindings v (OrderedMap.mem_values_of_get? hv)⟩
    · exact Relation.ReflTransGen.refl

/-- The fallback runs from where the body has got to. -/
theorem runs_attempt {body fallback : Action Value} {Q : Value → State → Prop}
    (hb : Runs S.Step s body Q) (hf : ∀ s', S.Steps s s' → Runs S.Step s' fallback Q) :
    Runs S.Step s (attempt body fallback) Q := by
  unfold Runs at hb ⊢
  unfold attempt
  cases h : body s with
  | ok v s' =>
      rw [h] at hb
      exact hb
  | error e s' =>
      rw [h] at hb
      have hf := hf s' hb
      unfold Runs at hf
      cases e with
      | raised fault =>
          dsimp only
          cases hr : fallback s' with
          | ok v s'' =>
              rw [hr] at hf
              exact ⟨Relation.ReflTransGen.trans hb hf.1, hf.2⟩
          | error e s'' =>
              rw [hr] at hf
              exact Relation.ReflTransGen.trans hb hf
      | aborted | exhausted => exact hb

theorem runs_spanned (allowed : S.vocabulary.spans = true) {name : String}
    {attributes : Attributes} {work : Action Value}
    (hw : Runs S.Step s work fun v s' => S.Knows s'.heap v) :
    Runs S.Step s (spanned name attributes work) fun v s' => S.Knows s'.heap v := by
  unfold Runs at hw ⊢
  unfold spanned
  cases h : work s with
  | ok v s' =>
      rw [h] at hw
      exact ⟨hw.1.tail (.span allowed _), hw.2⟩
  | error e s' =>
      rw [h] at hw
      cases e with
      | raised fault => exact Relation.ReflTransGen.tail hw (.span allowed _)
      | aborted text => exact Relation.ReflTransGen.tail hw (.span allowed _)
      | exhausted => exact hw

end Constructs

/-! ## Expressions -/

mutual

theorem runs_evaluate (hcall : S.Serves engine call) (hw : ∀ a, S.known a → S.writable a) :
    ∀ (e : Expr) {s : State}, S.Confines s → S.KnowsEngine s.heap engine →
    S.KnowsFrame s.heap frame → e.within S.vocabulary = true →
    Runs S.Step s (evaluate call engine frame e) fun v s' => S.Knows s'.heap v
  | .literal _, _, _, _, _, _ => runs_pure trivial
  | .variable _, _, hs, _, hf, _ => runs_readVariable hs hf
  | .assign name e, s, hs, he, hf, hin => by
      refine runs_bind (runs_evaluate hcall hw e hs he hf hin) fun v s' _ hv => ?_
      exact runs_step_bind (t := { s' with bindings := s'.bindings.insert name v }) rfl
        (.bind name hv) (runs_pure hv)
  | .handler _ _, s, _, _, _, hin =>
      runs_step_bind (t := { s with nextFunction := s.nextFunction + 1 }) rfl .number
        (runs_pure hin)
  | .sequence es, s, hs, he, hf, hin => by
      refine runs_bind (runs_evaluateAll hcall hw es hs he hf hin) fun vs s' _ hvs => runs_pure ?_
      cases hlast : vs.getLast? with
      | none => exact trivial
      | some v => exact hvs v (List.mem_of_getLast? hlast)
  | .choose condition accept decline, s, hs, he, hf, hin => by
      simp only [Expr.within, Bool.and_eq_true] at hin
      refine runs_bind (runs_evaluate hcall hw condition hs he hf hin.1.1) fun v s' hsteps _ => ?_
      have hs' := Scope.Steps.confines hsteps hs
      have hl := Scope.Steps.later hsteps
      refine runs_heap_bind ?_
      split
      · exact runs_evaluate hcall hw accept hs' (he.later hl) (hf.later hl) hin.1.2
      · exact runs_evaluate hcall hw decline hs' (he.later hl) (hf.later hl) hin.2
  | .attempt body fallback, s, hs, he, hf, hin => by
      simp only [Expr.within, Bool.and_eq_true] at hin
      refine runs_attempt (runs_evaluate hcall hw body hs he hf hin.1) fun s' hsteps => ?_
      have hl := Scope.Steps.later hsteps
      exact runs_evaluate hcall hw fallback (Scope.Steps.confines hsteps hs) (he.later hl)
        (hf.later hl) hin.2
  | .raise _ _, _, _, _, _, _ => runs_raise
  | .abort _, _, _, _, _, _ => runs_throw
  | .trace e, s, hs, he, hf, hin => by
      refine runs_bind (runs_evaluate hcall hw e hs he hf hin) fun v s' _ hv => ?_
      exact runs_step_bind (t := { s' with sightings := s'.sightings ++ [⟨v, s'.heap⟩] }) rfl
        (.sight _) (runs_pure hv)
  | .span name keys attributes body, s, hs, he, hf, hin => by
      simp only [Expr.within, Bool.and_eq_true] at hin
      refine runs_bind (runs_evaluateAll hcall hw attributes hs he hf hin.1.2) ?_
      intro vs s' hsteps _
      have hl := Scope.Steps.later hsteps
      refine runs_heap_bind (runs_ofExcept_bind fun _ _ => ?_)
      exact runs_spanned hin.1.1 (runs_evaluate hcall hw body (Scope.Steps.confines hsteps hs)
        (he.later hl) (hf.later hl) hin.2)
  | .call c operands, s, hs, he, hf, hin => by
      simp only [Expr.within, Bool.and_eq_true] at hin
      refine runs_bind (runs_evaluateAll hcall hw operands hs he hf hin.2) ?_
      intro vs s' hsteps hvs
      exact runs_command hcall (Scope.Steps.confines hsteps hs)
        (he.later (Scope.Steps.later hsteps)) hw hin.1 hvs

theorem runs_evaluateAll (hcall : S.Serves engine call) (hw : ∀ a, S.known a → S.writable a) :
    ∀ (es : List Expr) {s : State}, S.Confines s → S.KnowsEngine s.heap engine →
    S.KnowsFrame s.heap frame → Expr.allWithin S.vocabulary es = true →
    Runs S.Step s (evaluateAll call engine frame es) fun vs s' => ∀ v ∈ vs, S.Knows s'.heap v
  | [], _, _, _, _, _ => runs_pure fun _ hv => absurd hv List.not_mem_nil
  | e :: es, s, hs, he, hf, hin => by
      simp only [Expr.allWithin, Bool.and_eq_true] at hin
      refine runs_bind (runs_evaluate hcall hw e hs he hf hin.1) fun v s₁ hfirst hv => ?_
      have hl := Scope.Steps.later hfirst
      refine runs_bind (runs_evaluateAll hcall hw es (Scope.Steps.confines hfirst hs) (he.later hl)
        (hf.later hl) hin.2) fun vs s₂ hrest hvs => runs_pure ?_
      intro w hw
      rcases List.mem_cons.mp hw with rfl | hw
      · exact hv.later (Scope.Steps.later hrest)
      · exact hvs w hw

end

/-! ## Calls -/

/-- However deep handlers call each other, a call keeps to the scope.  A call
that is not made any more leaves the state as it is. -/
theorem serves_callAt (hw : ∀ a, S.known a → S.writable a) (engine : Engine) :
    ∀ depth, S.Serves engine (callAt engine depth)
  | 0 => fun _ _ _ _ _ _ _ => runs_throw
  | depth + 1 => by
      intro f arguments s hs he hf ha
      refine runs_evaluate (serves_callAt hw engine depth) hw f.body hs he ?_ hf
      rintro _ ⟨⟩
      exact ha

end Action
end OperatorDispatch
