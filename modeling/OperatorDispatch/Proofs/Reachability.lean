import OperatorDispatch.Proofs.Evaluation

/-!
# Reachable states

The states that a program can bring about, step after step from an initial
one, whatever the collector.  Each stretch of code may run under an engine, in a
frame and at a depth of its own.  At depth zero a call is not made, and the
state that it would have been made from is the one that is left; so the states
from which handlers start are among the reachable ones, and with them the states
from which the dispatches inside handlers start.

Every reachable state is connected to the initial one beside its collector by
steps of the whole scope.  So what holds at first and is kept by every step
holds of all of them (`ReachableWithin.invariant`).
-/

namespace OperatorDispatch

/-- The states that code of a vocabulary can bring about. -/
inductive ReachableWithin (V : Vocabulary) : State → Prop
  | initial {collector : Collector} : ReachableWithin V (.initial collector)
  | evaluate {s : State} {engine : Engine} {frame : Option Arguments} {e : Expr}
      (before : ReachableWithin V s) (depth : Nat)
      (engineKnown : (Scope.whole V).KnowsEngine s.heap engine)
      (frameKnown : (Scope.whole V).KnowsFrame s.heap frame)
      (within : e.within V = true) :
      ReachableWithin V
        (Action.finalState (Action.evaluate (Action.callAt engine depth) engine frame e s))
  | rest {s : State} (before : ReachableWithin V s) : ReachableWithin V { s with sightings := [] }

/-- The states that any code can bring about. -/
abbrev Reachable : State → Prop :=
  ReachableWithin .full

/-! ## Operator tables -/

namespace OperatorTables

variable {t t' : OperatorTables} {o p : Operator} {arity : Arity} {literal : String}

/-- A token keeps its operator when another one is registered. -/
theorem find?_of_register? (h : t.register? o = some t')
    (hp : t.find? arity literal = some p) : t'.find? arity literal = some p := by
  unfold register? at h
  split at h
  · cases h
  · split at h <;> cases h <;> cases arity <;> simp_all [find?, table, List.find?_append]

theorem lookup_of_find? (h : t.find? arity literal = some o) : t.lookup arity literal = .ok o := by
  simp [lookup, h]

end OperatorTables

/-! ## Invariants -/

namespace Scope

variable {V : Vocabulary}

theorem confines_initial {collector : Collector} :
    (Scope.whole V).Confines (.initial collector) := by
  have empty : ∀ a, Heap.empty.get? a = none :=
    fun a => Heap.get?_eq_none.mpr (Nat.zero_le _)
  refine ⟨⟨fun _ _ => ⟨trivial, trivial⟩, ?_⟩, ?_, ?_⟩
  · intro a o _ ho
    exact absurd (ho.symm.trans (empty a)) (by simp)
  · exact fun v hv => absurd hv List.not_mem_nil
  · rintro settings ⟨⟩

end Scope

section Whole

variable {V : Vocabulary} {s : State} {engine : Engine} {frame : Option Arguments}

/-- Code of a vocabulary keeps to the whole scope of it. -/
theorem Action.runs_whole (depth : Nat) (hs : (Scope.whole V).Confines s)
    (he : (Scope.whole V).KnowsEngine s.heap engine)
    (hf : (Scope.whole V).KnowsFrame s.heap frame) {e : Expr} (hin : e.within V = true) :
    Runs (Scope.whole V).Step s (evaluate (callAt engine depth) engine frame e)
      fun v s' => (Scope.whole V).Knows s'.heap v :=
  runs_evaluate (serves_callAt (fun _ h => h) engine depth) (fun _ h => h) e hs he hf hin

end Whole

namespace ReachableWithin

variable {V : Vocabulary} {s : State}

theorem steps (hs : ReachableWithin V s) :
    (Scope.whole V).Steps (.initial s.ledger.collector) s := by
  -- the collector of the state that is left is the one of the state before
  have onwards : ∀ {s s' : State}, (Scope.whole V).Steps (.initial s.ledger.collector) s →
      (Scope.whole V).Steps s s' → (Scope.whole V).Steps (.initial s'.ledger.collector) s' := by
    intro s s' before last
    rw [last.collector]
    exact before.trans last
  induction hs with
  | initial => exact .refl
  | evaluate before depth engineKnown frameKnown within ih =>
      have confined := ih.confines Scope.confines_initial
      exact onwards ih (Action.runs_whole depth confined engineKnown frameKnown within).steps
  | rest before ih => exact ih.tail (.sight [])

/-- What holds at first and is kept by every step holds of every reachable
state. -/
theorem invariant {P : State → Prop} (initially : P (.initial s.ledger.collector))
    (kept : ∀ s s', (Scope.whole V).Step s s' → P s → P s') (hs : ReachableWithin V s) : P s :=
  Scope.Steps.keeps kept hs.steps initially

/-- No reference dangles, and links lead to what they are links to. -/
theorem confines (hs : ReachableWithin V s) : (Scope.whole V).Confines s :=
  invariant Scope.confines_initial (fun _ _ hstep h => hstep.confines h) hs

/-- The operators of the language cannot be replaced. -/
theorem find?_operators {arity : Arity} {literal : String} {o : Operator}
    (ho : OperatorTables.standard.find? arity literal = some o) (hs : ReachableWithin V s) :
    s.operators.find? arity literal = some o := by
  refine invariant (P := fun s => s.operators.find? arity literal = some o) ho ?_ hs
  intro s s' hstep hfound
  cases hstep with
  | operators registered => exact OperatorTables.find?_of_register? registered hfound
  | heap | bind | sight | log | takeRows | span | increment | reset | limit | share | number
  | settle => exact hfound

end ReachableWithin

/-! ## Later states -/

/-- What a stretch of code makes of a state, whether it succeeds or fails.
Between two steps of a session the record of what was traced starts anew. -/
inductive State.Stretch (V : Vocabulary) (s : State) : State → Prop
  | evaluate {engine : Engine} {frame : Option Arguments} {e : Expr} (depth : Nat)
      (engineKnown : (Scope.whole V).KnowsEngine s.heap engine)
      (frameKnown : (Scope.whole V).KnowsFrame s.heap frame)
      (within : e.within V = true) :
      Stretch V s
        (Action.finalState (Action.evaluate (Action.callAt engine depth) engine frame e s))
  | rest : Stretch V s { s with sightings := [] }

/-- The second state can come about from the first one. -/
abbrev State.LeadsTo (V : Vocabulary) : State → State → Prop :=
  Relation.ReflTransGen (State.Stretch V)

namespace ReachableWithin

variable {V : Vocabulary} {s s' : State}

theorem stretch (hs : ReachableWithin V s) (h : s.Stretch V s') : ReachableWithin V s' := by
  cases h with
  | evaluate depth engineKnown frameKnown within =>
      exact .evaluate hs depth engineKnown frameKnown within
  | rest => exact .rest hs

theorem leadsTo (hs : ReachableWithin V s) (h : s.LeadsTo V s') : ReachableWithin V s' := by
  induction h with
  | refl => exact hs
  | tail _ last ih => exact ih.stretch last

/-- Whatever comes about later comes about by steps. -/
theorem steps_of_leadsTo (hs : ReachableWithin V s) (h : s.LeadsTo V s') :
    (Scope.whole V).Steps s s' := by
  induction h with
  | refl => exact .refl
  | tail before last ih =>
      refine ih.trans ?_
      have confined := (hs.leadsTo before).confines
      cases last with
      | evaluate depth engineKnown frameKnown within =>
          exact (Action.runs_whole depth confined engineKnown frameKnown within).steps
      | rest => exact .single (.sight [])

end ReachableWithin

/-- Where a program leads to from the initial state, under the standard
settings and beside the standard collector. -/
def State.after (depth : Nat) (program : Expr) : State :=
  Action.finalState (Action.evaluateTop (.own .standard) depth program (.initial .standard))

theorem reachable_after {V : Vocabulary} (depth : Nat) {program : Expr}
    (hin : program.within V = true) : ReachableWithin V (.after depth program) :=
  .evaluate .initial depth trivial Scope.knowsFrame_none hin

theorem State.collector_after {V : Vocabulary} (depth : Nat) {program : Expr}
    (hin : program.within V = true) :
    (State.after depth program).ledger.collector = .standard := by
  have confined : (Scope.whole V).Confines (.initial .standard) := Scope.confines_initial
  have known : (Scope.whole V).KnowsEngine Heap.empty (.own .standard) := trivial
  have run := Action.runs_whole depth confined known Scope.knowsFrame_none hin
  exact Scope.Steps.collector run.steps

/-! ## Sessions -/

namespace Session

variable {V : Vocabulary} {s : State} {engine : Engine}

theorem step_snd (engine : Engine) (s : State) (e : Expr) :
    (step engine s e).2 =
      Action.finalState (Action.evaluateTop engine callDepth e { s with sightings := [] }) := by
  unfold step Action.finalState
  split <;> simp_all

/-- The states between the steps of a session are reachable. -/
theorem reachable_runSteps :
    ∀ (es : List Expr) {s : State}, ReachableWithin V s →
      (Scope.whole V).KnowsEngine s.heap engine → Expr.allWithin V es = true →
      ReachableWithin V (runSteps engine s es).2
  | [], _, hs, _, _ => hs
  | e :: es, s, hs, he, hin => by
      simp only [Expr.allWithin, Bool.and_eq_true] at hin
      have next : ReachableWithin V (step engine s e).2 := by
        rw [step_snd]
        exact .evaluate (.rest hs) _ he Scope.knowsFrame_none hin.1
      have later : s.heap.Later (step engine s e).2.heap := by
        rw [step_snd]
        have run := Action.runs_whole callDepth hs.rest.confines he Scope.knowsFrame_none hin.1
        have later := Scope.Steps.later run.steps
        exact later
      exact reachable_runSteps es next (he.later later) hin.2

/-- The expressions that the settings of an engine of its own come from. -/
def EngineChoice.expressions : EngineChoice → List Expr
  | .own _ values => values
  | .shared => []

/-- The state that a session begins with is reachable, and its engine is at
home there. -/
theorem reachable_start {session : Session} {collector : Collector}
    (hin : Expr.allWithin V (EngineChoice.expressions session.engine) = true)
    (hstart : session.start (.initial collector) = .ok engine s) :
    ReachableWithin V s ∧ (Scope.whole V).KnowsEngine s.heap engine := by
  obtain ⟨choice, environment, steps⟩ := session
  cases choice with
  | shared =>
      cases hstart
      exact ⟨.initial, trivial⟩
  | own fields values =>
      have served := Action.serves_callAt (S := Scope.whole V) (fun _ h => h) (.own .standard)
        callDepth
      have confined : (Scope.whole V).Confines (State.initial collector) := Scope.confines_initial
      have run := Action.runs_evaluateAll served (fun _ h => h) values confined trivial
        Scope.knowsFrame_none hin
      have start : Action.Runs (Scope.whole V).Step (.initial collector)
          (Session.start ⟨.own fields values, environment, steps⟩) fun engine s =>
            ReachableWithin V s ∧ (Scope.whole V).KnowsEngine s.heap engine := by
        refine Action.runs_bind run.ending ?_
        rintro vs t - ⟨hvs, hend⟩
        refine Action.runs_heap_bind (Action.runs_ofExcept_bind fun settings hset => ?_)
        refine Action.runs_pure ⟨?_, ?_⟩
        · -- evaluating the values is evaluating their sequence
          have there : Action.finalState (Action.evaluate (Action.callAt (.own .standard) callDepth)
              (.own .standard) none (.sequence values) (.initial collector)) = t := by
            rw [Action.evaluate, Action.bind_ok hend]
            rfl
          rw [← there]
          exact .evaluate .initial _ trivial Scope.knowsFrame_none hin
        · refine Action.knows_settingsFrom hset fun e he => ?_
          exact Action.knows_entriesFrom hvs _ (OrderedMap.mem_values_of_mem he)
      exact start.result hstart

end Session

end OperatorDispatch
