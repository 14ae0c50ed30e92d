import OperatorDispatch.Proofs.Observation

/-!
# Telemetry is only an observer

Two runs of one program under engines that record differently, from the first
step to the last.  Slots and commands are put together from dispatches and from
what is blind anyway; the evaluation goes along the code by structural
recursion, over any two ways of calling handlers that mirror each other, and
`mirrors_callAt` ties the knot by induction on the depth.

A report of a step holds what was traced, how the step ended and the heap.  The
reports of two runs with the same spans are the same.  Where one run has spans
and the other has none there is one way to tell the two apart, a step that ends
in a fault which has no text: the span tries to tell it and fails
(`telemetry_not_only_observes`).  Even then the faults are the same once they
have been told, and so is everything else that is not a record.
-/

namespace OperatorDispatch
namespace Action

variable {spans : Prop} {s s' : State} {engine engine' : Engine}
  {call call' : Function → Arguments → Action Value} {settings settings' : Settings}

/-! ## Slots -/

theorem EndAlike.cellAt_bind {f f' : Value → Action Value} {a : Address}
    (hp : Paired spans engine s s')
    (hf : ∀ v, (Scope.whole .unrecorded).Knows s.heap v → EndAlike spans (f v s) (f' v s')) :
    EndAlike spans ((cellAt a >>= f) s) ((cellAt a >>= f') s') := by
  show EndAlike spans ((demand .unusable (s.heap.cellAt? a) >>= f) s)
    ((demand .unusable (s'.heap.cellAt? a) >>= f') s')
  rw [hp.alike.heap]
  refine .demand_bind hp.alike fun v hv => hf v ?_
  exact hp.confined.heap.object a _ trivial (Heap.cellAt?_eq_some.mp hv)

/-- Settings that agree, in states that are a pair again. -/
theorem EndAlike.settled {f f' : Settings → Action Value} (agree : engine.Agree spans engine')
    (hp : Paired spans engine s s')
    (hf : ∀ settings settings' t t', s.heap.Later t.heap →
      settings.Like spans settings' → Paired spans engine t t' →
      EndAlike spans (f settings t) (f' settings' t')) :
    EndAlike spans ((settingsOf engine >>= f) s) ((settingsOf engine' >>= f') s') := by
  refine .settingsOf_bind agree hp.alike fun settings settings' t t' hset like ht => ?_
  obtain ⟨hsteps, -⟩ := (runs_settingsOf hp.confined hp.engine).reached hset
  exact hf settings settings' t t' (Scope.Steps.later hsteps) like (hp.next hsteps ht)

section Slots

variable (mirrors : Mirrors spans engine call call')

include mirrors

theorem endAlike_step {a : Address} {literal : String} {position : Position}
    (hp : Paired spans engine s s') (like : settings.Like spans settings') :
    EndAlike spans (step call settings a literal position s)
      (step call' settings' a literal position s') := by
  refine .cellAt_bind hp fun current hcurrent => ?_
  cases current with
  | primitive p =>
      refine (endAlike_dispatchAt mirrors hp like hcurrent).bind fun v t t' _ ht => ?_
      exact (blind_write _ _ t t' ht).bind fun _ u u' _ hu => .ok _ hu
  | function | object => exact endAlike_dispatchAt mirrors hp like hcurrent

variable (agree : engine.Agree spans engine')

include agree

theorem endAlike_assign {a : Address} {literal : String} {rhs : Value}
    (hp : Paired spans engine s s') (hr : (Scope.whole .unrecorded).Knows s.heap rhs) :
    EndAlike spans (assign call engine a literal rhs s)
      (assign call' engine' a literal rhs s') := by
  refine .ofExcept_bind hp.alike fun binary _ => ?_
  refine .settled agree hp fun settings settings' t t' hl like ht => ?_
  refine .cellAt_bind ht fun current hcurrent => ?_
  refine (endAlike_dispatchBinary mirrors ht like hcurrent (hr.later hl)).bind ?_
  intro v u u' _ hu
  exact (blind_write _ _ u u' hu).bind fun _ w w' _ hw => .ok _ hw

theorem endAlike_update {a : Address} {literal : String} {position : Option String}
    (hp : Paired spans engine s s') :
    EndAlike spans (update call engine a literal position s)
      (update call' engine' a literal position s') := by
  refine .settled agree hp fun settings settings' t t' _ like ht => ?_
  refine .ofExcept_bind ht.alike fun p _ => ?_
  cases p with
  | unspecified => exact .error (.refl _) ht.alike
  | before | after => exact endAlike_step mirrors ht like

/-! ## Commands -/

theorem endAlike_dispatch {c : DispatchCommand} {vs : List Value} (hp : Paired spans engine s s')
    (hvs : ∀ v ∈ vs, (Scope.whole .unrecorded).Knows s.heap v) :
    EndAlike spans (dispatch call engine c vs s) (dispatch call' engine' c vs s') := by
  unfold dispatch
  split
  · rename_i v w
    refine .settled agree hp fun settings settings' t t' hl like ht => ?_
    exact endAlike_dispatchBinary mirrors ht like ((hvs v (by simp)).later hl)
      ((hvs w (by simp)).later hl)
  · rename_i v
    refine .settled agree hp fun settings settings' t t' hl like ht => ?_
    exact endAlike_dispatchUnary mirrors ht like ((hvs v (by simp)).later hl)
  · rename_i v
    refine .settled agree hp fun settings settings' t t' hl like ht => ?_
    exact endAlike_dispatchAt mirrors ht like ((hvs v (by simp)).later hl)
  · rename_i v
    refine .settled agree hp fun settings settings' t t' hl like ht => ?_
    exact endAlike_dispatchAt mirrors ht like ((hvs v (by simp)).later hl)
  · rename_i v w
    refine .settled agree hp fun settings settings' t t' hl like ht => ?_
    exact endAlike_dispatchBinary mirrors ht like ((hvs v (by simp)).later hl)
      ((hvs w (by simp)).later hl)
  · rename_i v w
    refine .settled agree hp fun settings settings' t t' hl like ht => ?_
    exact endAlike_dispatchBinary mirrors ht like ((hvs v (by simp)).later hl)
      ((hvs w (by simp)).later hl)
  · exact blind_bind (blind_ofExcept _) (fun _ => blind_native _ _) s s' hp.alike
  · rename_i cell v
    refine .heap_bind hp.alike (.demand_bind hp.alike fun _ _ => ?_)
    exact endAlike_assign mirrors agree hp (hvs v (by simp))
  · refine .heap_bind hp.alike (.demand_bind hp.alike fun _ _ => ?_)
    exact endAlike_update mirrors agree hp
  · have registered : ∀ o, Blind spans (do registerOperator o; return .null : Action Value) :=
      fun o => blind_null (blind_registerOperator o)
    exact blind_bind (blind_ofExcept _) (fun _ => registered _) s s' hp.alike
  · exact .error (.refl _) hp.alike

omit mirrors agree in
theorem blind_telemetry {c : TelemetryCommand}
    (allowed : Vocabulary.unrecorded.commands (.telemetry c) = true) (vs : List Value) :
    Blind spans (telemetry c vs) := by
  cases c with
  | configure fields =>
      refine blind_heap_bind fun _ => blind_bind (blind_ofExcept _) fun _ => ?_
      exact blind_null (blind_configure _)
  | readEnvironment environment =>
      cases vs with
      | nil => exact blind_bind (blind_ofExcept _) fun _ => blind_newObject _
      | cons => exact blind_raise _
  | logs =>
      cases vs with
      | nil => exact blind_bind blind_takeRows fun _ => blind_newObject _
      | cons => exact blind_raise _
  | limit | setLimit | reset | increment | counter | metrics => cases allowed

theorem endAlike_command {c : Command} {vs : List Value} (hp : Paired spans engine s s')
    (allowed : Vocabulary.unrecorded.commands c = true)
    (hvs : ∀ v ∈ vs, (Scope.whole .unrecorded).Knows s.heap v) :
    EndAlike spans (command call engine c vs s) (command call' engine' c vs s') := by
  cases c with
  | container c => exact blind_container c vs s s' hp.alike
  | definition c => exact blind_definition c vs s s' hp.alike
  | inspection c => exact blind_inspection c vs s s' hp.alike
  | dispatch c => exact endAlike_dispatch mirrors agree hp hvs
  | telemetry c => exact blind_telemetry allowed vs s s' hp.alike

end Slots

/-! ## The constructs that are no commands -/

theorem endAlike_readVariable {frame : Option Arguments} (name : String) (hs : s.Alike spans s') :
    EndAlike spans (readVariable frame name s) (readVariable frame name s') := by
  unfold readVariable
  rw [hs.bindings]
  dsimp only
  split
  · exact .ok _ hs
  · split
    · exact .ok _ hs
    · exact .error (.refl _) hs

/-- Faults are caught in both runs or in neither. -/
theorem endAlike_attempt {body body' fallback fallback' : Action Value}
    (hb : EndAlike spans (body s) (body' s'))
    (hf : ∀ e t t', body s = .error e t → t.Alike spans t' →
      EndAlike spans (fallback t) (fallback' t')) :
    EndAlike spans (attempt body fallback s) (attempt body' fallback' s') := by
  unfold attempt
  rcases hb.elim with ⟨v, t, t', h, h', ht⟩ | ⟨e, e', t, t', h, h', he, ht⟩
  · rw [h, h']
    exact .ok v ht
  · rw [h, h']
    cases he with
    | raised faults => exact hf _ t t' h ht
    | aborted text => exact .error (.aborted text) ht
    | exhausted => exact .error .exhausted ht

/-! ## Expressions -/

variable {frame : Option Arguments}

/-- However an evaluation ended, the two runs are a pair again, and the frame
is as good as it was. -/
theorem Paired.evaluated {t t' : State} {e : Expr}
    (served : (Scope.whole .unrecorded).Serves engine call) (hp : Paired spans engine s s')
    (hf : (Scope.whole .unrecorded).KnowsFrame s.heap frame) (hin : e.within .unrecorded = true)
    (ended : finalState (evaluate call engine frame e s) = t) (ht : t.Alike spans t') :
    Paired spans engine t t' ∧ (Scope.whole .unrecorded).KnowsFrame t.heap frame := by
  subst ended
  have run := runs_evaluate served (fun _ h => h) e hp.confined hp.engine hf hin
  exact ⟨hp.next run.steps ht, hf.later (Scope.Steps.later run.steps)⟩

mutual

theorem endAlike_evaluate (served : (Scope.whole .unrecorded).Serves engine call)
    (mirrors : Mirrors spans engine call call') (agree : engine.Agree spans engine') :
    ∀ (e : Expr) {s s' : State}, Paired spans engine s s' →
    (Scope.whole .unrecorded).KnowsFrame s.heap frame → e.within .unrecorded = true →
    EndAlike spans (evaluate call engine frame e s) (evaluate call' engine' frame e s')
  | .literal _, _, _, hp, _, _ => .ok _ hp.alike
  | .variable name, _, _, hp, _, _ => endAlike_readVariable name hp.alike
  | .assign name e, _, _, hp, hf, hin => by
      refine (endAlike_evaluate served mirrors agree e hp hf hin).bind fun v t t' _ ht => ?_
      exact (blind_setVariable name v t t' ht).bind fun _ _ _ _ hu => .ok _ hu
  | .handler _ _, s, s', hp, _, _ =>
      (blind_freshNumber s s' hp.alike).bind fun _ _ _ _ ht => .ok _ ht
  | .sequence es, _, _, hp, hf, hin =>
      (endAlike_evaluateAll served mirrors agree es hp hf hin).bind fun _ _ _ _ ht => .ok _ ht
  | .choose condition accept decline, _, _, hp, hf, hin => by
      simp only [Expr.within, Bool.and_eq_true] at hin
      refine (endAlike_evaluate served mirrors agree condition hp hf hin.1.1).bind ?_
      intro v t t' hv ht
      obtain ⟨hp', hf'⟩ := hp.evaluated served hf hin.1.1 (congrArg finalState hv) ht
      refine .heap_bind ht ?_
      split
      · exact endAlike_evaluate served mirrors agree accept hp' hf' hin.1.2
      · exact endAlike_evaluate served mirrors agree decline hp' hf' hin.2
  | .attempt body fallback, _, _, hp, hf, hin => by
      simp only [Expr.within, Bool.and_eq_true] at hin
      refine endAlike_attempt (endAlike_evaluate served mirrors agree body hp hf hin.1) ?_
      intro e t t' he ht
      obtain ⟨hp', hf'⟩ := hp.evaluated served hf hin.1 (congrArg finalState he) ht
      exact endAlike_evaluate served mirrors agree fallback hp' hf' hin.2
  | .raise _ _, _, _, hp, _, _ => .error (.refl _) hp.alike
  | .abort _, _, _, hp, _, _ => .error (.refl _) hp.alike
  | .trace e, _, _, hp, hf, hin => by
      refine (endAlike_evaluate served mirrors agree e hp hf hin).bind fun v t t' _ ht => ?_
      exact (blind_sight v t t' ht).bind fun _ _ _ _ hu => .ok _ hu
  | .span name keys attributes body, _, _, _, _, hin => by
      simp [Expr.within, Vocabulary.unrecorded] at hin
  | .call c operands, _, _, hp, hf, hin => by
      simp only [Expr.within, Bool.and_eq_true] at hin
      refine (endAlike_evaluateAll served mirrors agree operands hp hf hin.2).bind ?_
      intro vs t t' hvs ht
      have run := runs_evaluateAll served (fun _ h => h) operands hp.confined hp.engine hf hin.2
      obtain ⟨hsteps, known⟩ := run.reached hvs
      exact endAlike_command mirrors agree (hp.next hsteps ht) hin.1 known

theorem endAlike_evaluateAll (served : (Scope.whole .unrecorded).Serves engine call)
    (mirrors : Mirrors spans engine call call') (agree : engine.Agree spans engine') :
    ∀ (es : List Expr) {s s' : State}, Paired spans engine s s' →
    (Scope.whole .unrecorded).KnowsFrame s.heap frame → Expr.allWithin .unrecorded es = true →
    EndAlike spans (evaluateAll call engine frame es s) (evaluateAll call' engine' frame es s')
  | [], _, _, hp, _, _ => .ok _ hp.alike
  | e :: es, _, _, hp, hf, hin => by
      simp only [Expr.allWithin, Bool.and_eq_true] at hin
      refine (endAlike_evaluate served mirrors agree e hp hf hin.1).bind fun v t t' hv ht => ?_
      obtain ⟨hp', hf'⟩ := hp.evaluated served hf hin.1 (congrArg finalState hv) ht
      refine (endAlike_evaluateAll served mirrors agree es hp' hf' hin.2).bind ?_
      exact fun vs u u' _ hu => .ok _ hu

end

/-! ## Calls -/

/-- However deep handlers call each other, the calls of the two runs mirror
each other. -/
theorem mirrors_callAt (agree : engine.Agree spans engine') :
    ∀ depth, Mirrors spans engine (callAt engine depth) (callAt engine' depth)
  | 0 => fun _ _ _ _ hp _ _ => .error .exhausted hp.alike
  | depth + 1 => by
      intro f arguments s s' hp hf ha
      have served := serves_callAt (S := Scope.whole .unrecorded) (fun _ h => h) engine depth
      refine endAlike_evaluate served (mirrors_callAt agree depth) agree f.body hp ?_ hf
      rintro _ ⟨⟩
      exact ha

end Action

/-! ## Sessions -/

/-- How a step ends in the two runs. -/
inductive Ending.Like (spans : Prop) : Ending → Ending → Prop
  | value (v : Value) : Like spans (.value v) (.value v)
  | interrupted {why why' : Interruption} (like : why.Like spans why') :
      Like spans (.interrupted why) (.interrupted why')

/-- What a step has to show in the two runs. -/
structure StepReport.Like (spans : Prop) (r r' : StepReport) : Prop where
  sightings : r'.sightings = r.sightings
  ending : r.ending.Like spans r'.ending
  heap : r'.heap = r.heap

/-- With the same spans the reports are the same. -/
theorem StepReport.Like.eq {spans : Prop} {r r' : StepReport} (h : r.Like spans r')
    (here : spans) : r = r' := by
  obtain ⟨sightings, ending, heap⟩ := r
  obtain ⟨sightings', ending', heap'⟩ := r'
  obtain ⟨rfl, like, rfl⟩ := h
  cases like with
  | value v => rfl
  | interrupted like =>
      cases like with
      | raised faults => rw [faults.same here]
      | aborted | exhausted => rfl

/-- The fault that a step ends in. -/
def StepReport.fault? (r : StepReport) : Option Fault :=
  match r.ending with
  | .interrupted (.raised fault) => some fault
  | _ => none

namespace Session

variable {spans : Prop} {engine engine' : Engine}

/-- A step shows the same in both runs, but for the telling of its fault, and
leaves them a pair. -/
theorem step_alike (agree : engine.Agree spans engine') {s s' : State}
    (hp : Action.Paired spans engine s s') {e : Expr} (hin : e.within .unrecorded = true) :
    (step engine s e).1.Like spans (step engine' s' e).1 ∧
      Action.Paired spans engine (step engine s e).2 (step engine' s' e).2 := by
  have rested :
      Action.Paired spans engine { s with sightings := [] } { s' with sightings := [] } :=
    hp.next (.single (.sight [])) { hp.alike with sightings := rfl }
  have served := Action.serves_callAt (S := Scope.whole .unrecorded) (fun _ h => h) engine callDepth
  have ended := Action.endAlike_evaluate served (Action.mirrors_callAt agree callDepth) agree e
    rested Scope.knowsFrame_none hin
  have run := Action.runs_whole callDepth rested.confined rested.engine Scope.knowsFrame_none hin
  have hsteps := run.steps
  unfold step Action.evaluateTop
  rcases ended.elim with ⟨v, t, t', h, h', ht⟩ | ⟨e, e', t, t', h, h', he, ht⟩
  · rw [h] at hsteps
    rw [h, h']
    exact ⟨⟨ht.sightings, .value v, ht.heap⟩, rested.next hsteps ht⟩
  · rw [h] at hsteps
    rw [h, h']
    exact ⟨⟨ht.sightings, .interrupted he, ht.heap⟩, rested.next hsteps ht⟩

theorem runSteps_alike (agree : engine.Agree spans engine') (es : List Expr) :
    ∀ {s s' : State}, Action.Paired spans engine s s' → Expr.allWithin .unrecorded es = true →
      List.Forall₂ (StepReport.Like spans) (runSteps engine s es).1 (runSteps engine' s' es).1 ∧
        (runSteps engine s es).2.Alike spans (runSteps engine' s' es).2 := by
  induction es with
  | nil =>
      intro s s' hp _
      exact ⟨.nil, hp.alike⟩
  | cons e es ih =>
      intro s s' hp hin
      simp only [Expr.allWithin, Bool.and_eq_true] at hin
      obtain ⟨report, paired⟩ := step_alike agree hp hin.1
      obtain ⟨reports, alike⟩ := ih paired hin.2
      exact ⟨.cons report reports, alike⟩

/-- Engines that differ in what they record give the same values and traces at
every step of a program that has nothing to do with the ledger, and leave the
same heap, variables and journal.  The faults are the same once they have been
told, and with the same spans there is no difference at all. -/
theorem telemetry_only_observes {s : State} (hs : ReachableWithin .unrecorded s)
    (admits : s.ledger.collector.AdmitsDispatches) (agree : engine.Agree spans engine')
    (known : (Scope.whole .unrecorded).KnowsEngine s.heap engine) {steps : List Expr}
    (within : Expr.allWithin .unrecorded steps = true) :
    List.Forall₂ (StepReport.Like spans) (runSteps engine s steps).1
        (runSteps engine' s steps).1 ∧
      (runSteps engine s steps).2.Alike spans (runSteps engine' s steps).2 ∧
      (spans → (runSteps engine s steps).1 = (runSteps engine' s steps).1) := by
  have paired : Action.Paired spans engine s s :=
    ⟨hs.confines, known, .refl (hs.countsDispatches admits)⟩
  obtain ⟨reports, alike⟩ := runSteps_alike agree steps paired within
  refine ⟨reports, alike, fun here => ?_⟩
  exact List.forall₂_eq_eq_eq ▸ reports.imp fun _ _ like => like.eq here

/-- A sum whose handler compares, and a sum that nothing handles. -/
def sums : List Expr :=
  [.assign "Box" (.call (.definition (.define "Box" ["add"]))
      [.handler "join" (.trace (.call (.dispatch (.binary "==="))
        [.variable "this", .variable "other"])), .literal .null]),
    .assign "box" (.call (.definition (.instantiate [])) [.variable "Box"]),
    .call (.dispatch (.binary "+")) [.variable "box", .variable "box"],
    .call (.dispatch (.binary "-")) [.variable "box", .literal (.integer 1)]]

/-- Settings under which nothing is recorded. -/
def silent : Settings :=
  ⟨false, false, .double .nan, 1⟩

/-- Settings under which spans are recorded, but nothing is counted. -/
def uncounting : Settings :=
  ⟨true, false, .double .nan, 1⟩

theorem telemetry_only_observes_sums :
    (runSteps (.own .standard) (.initial .standard) sums).2.ledger.spans.length = 3 ∧
      (runSteps (.own silent) (.initial .standard) sums).2.ledger.spans = [] ∧
      List.Forall₂ (StepReport.Like False)
        (runSteps (.own .standard) (.initial .standard) sums).1
        (runSteps (.own silent) (.initial .standard) sums).1 ∧
      (runSteps (.own .standard) (.initial .standard) sums).1 =
        (runSteps (.own uncounting) (.initial .standard) sums).1 := by
  have admits := Collector.admitsDispatches_standard
  have within : Expr.allWithin .unrecorded sums = true := rfl
  have apart : Engine.Agree False (.own .standard) (.own silent) := .own ⟨rfl, False.elim⟩
  have together : Engine.Agree True (.own .standard) (.own uncounting) :=
    .own ⟨rfl, fun _ => rfl⟩
  obtain ⟨like, -⟩ := telemetry_only_observes .initial admits apart trivial within
  obtain ⟨-, -, same⟩ := telemetry_only_observes .initial admits together trivial within
  exact ⟨by decide +kernel, by decide +kernel, like, same trivial⟩

/-- The record that asks for a long key, and its sum. -/
def longSum : List Expr :=
  [askingForLong, .call (.dispatch (.binary "+")) [.variable "r", .literal (.integer 1)]]

/-- With spans the fault of writing the key out is raised, without them that of
the missing key. -/
theorem telemetry_not_only_observes :
    ¬ ∀ (s : State) (engine engine' : Engine) (steps : List Expr),
        ReachableWithin .unrecorded s → s.ledger.collector.AdmitsDispatches →
        engine.Agree False engine' → (Scope.whole .unrecorded).KnowsEngine s.heap engine →
        Expr.allWithin .unrecorded steps = true →
        (runSteps engine s steps).1 = (runSteps engine' s steps).1 := by
  intro same
  have reports := same (.initial .standard) (.own .standard) (.own silent) longSum .initial
    Collector.admitsDispatches_standard (.own ⟨rfl, False.elim⟩) trivial rfl
  have faults := congrArg (List.map StepReport.fault?) reports
  have traced : (runSteps (.own .standard) (.initial .standard) longSum).1.map
      StepReport.fault? = [none, some (.native .tooManyDigits)] := by
    decide +kernel
  have untraced : (runSteps (.own silent) (.initial .standard) longSum).1.map
      StepReport.fault? = [none, some (.missingKey (.illegible .tooManyDigits))] := by
    decide +kernel
  rw [traced, untraced] at faults
  cases faults

end Session

end OperatorDispatch
