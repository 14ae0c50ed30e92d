import OperatorDispatch.Proofs.Sites

/-!
# What handlers raise

A fault that a handler lets out is let out by the dispatch that called it, and
so on outwards, up to the first fallback.  On the way nothing is done but
telemetry: each dispatch is entered in the ledger, each span is recorded, and
the rest of the state stays as the handler left it (`State.SameWork`).

Telemetry can put another fault in its place.  A span asks for the text, and
where a key that is missing cannot be written out, what comes out is the fault
of writing it (`Fault.told`).  Once is enough: a fault that has been told stays
as it is on the rest of the way (`Fault.Surfaces`).

An increment that the collector refuses would be another such thing.  Code that
increments no counters leaves the collector to the dispatches, and one that
admits these never refuses their increments (`Situated.counts`).
-/

namespace OperatorDispatch

/-- Everything but increments. -/
def Vocabulary.uncounted : Vocabulary where
  commands
    | .telemetry (.increment ..) => false
    | _ => true
  spans := true

theorem Expr.allWithin_append {V : Vocabulary} (es fs : List Expr) :
    Expr.allWithin V (es ++ fs) = (Expr.allWithin V es && Expr.allWithin V fs) := by
  induction es with
  | nil => rfl
  | cons e es ih => simp only [List.cons_append, Expr.allWithin, ih, Bool.and_assoc]

/-- The second state is the first with other telemetry. -/
def State.SameWork (s t : State) : Prop :=
  t = { s with ledger := t.ledger, dispatches := t.dispatches }

namespace State.SameWork

theorem refl (s : State) : s.SameWork s := rfl

theorem trans {s t u : State} (h : s.SameWork t) (h' : t.SameWork u) : s.SameWork u := by
  unfold SameWork at h h' ⊢
  rw [h', h]

theorem close (s : State) (r : DispatchRecord) : s.SameWork (s.close r) := rfl

theorem record (s : State) (span : Span) :
    s.SameWork { s with ledger := s.ledger.record span } := rfl

end State.SameWork

/-! ## Faults on their way out -/

/-- What a fault can have become on its way out. -/
def Fault.Surfaces (fault fault' : Fault) : Prop :=
  fault' = fault ∨ fault' = fault.told

namespace Fault

variable {fault fault' fault'' : Fault}

theorem Surfaces.trans (h : fault.Surfaces fault') (h' : fault'.Surfaces fault'') :
    fault.Surfaces fault'' := by
  rcases h with rfl | rfl
  · exact h'
  · exact .inr (h'.elim id fun told => told.trans fault.told_told)

theorem surfaces_told (settings : Settings) (fault : Fault) :
    fault.Surfaces (settings.told fault) := by
  unfold Settings.told
  split
  · exact .inr rfl
  · exact .inl rfl

/-- A fault comes out as it is, unless it has a key that cannot be written out. -/
theorem Surfaces.eq_of_legible (h : fault.Surfaces fault')
    (legible : ∀ why, fault ≠ .missingKey (.illegible why)) : fault' = fault := by
  have told : fault.told = fault := by
    unfold Fault.told
    split
    · exact absurd rfl (legible _)
    · rfl
  rcases h with same | same
  · exact same
  · exact same.trans told

end Fault

/-! ## The ledger of such code -/

/-- Without increments of their own, runs leave the collector to the
dispatches. -/
theorem Scope.Steps.countsDispatches {s s' : State}
    (hsteps : (Scope.whole .uncounted).Steps s s') (hs : s.ledger.CountsDispatches) :
    s'.ledger.CountsDispatches := by
  refine Scope.Steps.keeps (P := fun s => s.ledger.CountsDispatches) ?_ hsteps hs
  intro s s' hstep hl
  cases hstep with
  | heap | bind | sight | log | takeRows | share | operators | number => exact hl
  | span | reset => exact ⟨hl.series, hl.admits⟩
  | increment allowed => cases allowed
  | limit => exact hl.withLimit _
  | settle => exact (hl.enter _).1

namespace Action

variable {s t : State} {engine : Engine} {frame : Option Arguments}
  {call : Function → Arguments → Action Value}

/-! ## One step outwards -/

theorem evaluateAll_raises {after : List Expr} {e : Expr} {err : Interruption} {u : State} :
    ∀ (before : List Expr) {s : State} {vs : List Value},
      evaluateAll call engine frame before s = .ok vs t →
      evaluate call engine frame e t = .error err u →
      evaluateAll call engine frame (before ++ e :: after) s = .error err u
  | [], s, vs, evaluated, raised => by
      cases evaluated
      exact bind_error raised
  | b :: before, s, vs, evaluated, raised => by
      rw [evaluateAll] at evaluated
      rw [List.cons_append, evaluateAll]
      cases hb : evaluate call engine frame b s with
      | error err' s' =>
          rw [bind_error hb] at evaluated
          cases evaluated
      | ok v s' =>
          rw [bind_ok hb] at evaluated ⊢
          cases hbs : evaluateAll call engine frame before s' with
          | error err' t' =>
              rw [bind_error hbs] at evaluated
              cases evaluated
          | ok ws t' =>
              rw [bind_ok hbs] at evaluated
              cases evaluated
              exact bind_error (evaluateAll_raises before hbs raised)

theorem evaluate_choose {condition accept decline : Expr} {v : Value}
    (chosen : evaluate call engine frame condition s = .ok v t) :
    evaluate call engine frame (.choose condition accept decline) s =
      if t.heap.truthy v then evaluate call engine frame accept t
      else evaluate call engine frame decline t := by
  have read : heap t = .ok t.heap t := rfl
  refine (bind_ok chosen).trans ((bind_ok read).trans ?_)
  split <;> rfl

/-- What a part raises the whole raises, and a span around the part has told
it. -/
theorem Next.raises {e e' : Expr} {s s' : State} (next : Next call engine frame e s e' s')
    {fault : Fault} (raised : evaluate call engine frame e' s' = .error (.raised fault) t) :
    ∃ fault' t', evaluate call engine frame e s = .error (.raised fault') t' ∧
      fault.Surfaces fault' ∧ t.SameWork t' := by
  -- only around the body of a span is anything done
  have untouched (h : evaluate call engine frame e s = .error (.raised fault) t) :
      ∃ fault' t', evaluate call engine frame e s = .error (.raised fault') t' ∧
        fault.Surfaces fault' ∧ t.SameWork t' :=
    ⟨fault, t, h, .inl rfl, .refl t⟩
  cases next with
  | assigned | traced | condition => exact untouched (bind_error raised)
  | accepted chosen holds =>
      refine untouched ((evaluate_choose chosen).trans ?_)
      rw [if_pos holds]
      exact raised
  | declined chosen fails =>
      refine untouched ((evaluate_choose chosen).trans ?_)
      rw [fails]
      exact raised
  | fallback first =>
      refine untouched ?_
      rw [evaluate, attempt, first]
      exact raised
  | element evaluated | operand evaluated | spanAttribute evaluated =>
      exact untouched (bind_error (evaluateAll_raises _ evaluated raised))
  | @spanBody name keys attributes body _ _ vs texts evaluated read =>
      refine ⟨fault.told, { t with ledger := t.ledger.record ⟨name, texts, true⟩ }, ?_, .inr rfl,
        .record t _⟩
      have texts' : ofExcept (attributesFrom s'.heap (entriesFrom keys vs)) s' = .ok texts s' := by
        rw [read]
        rfl
      have closed : spanned name texts (evaluate call engine frame e') s' =
          .error (.raised fault.told)
            { t with ledger := t.ledger.record ⟨name, texts, true⟩ } := by
        rw [spanned, raised]
        rfl
      exact (bind_ok evaluated).trans ((bind_ok texts').trans closed)

/-! ## Along the way -/

/-- Code that is about to be evaluated in a run without increments of its own. -/
structure Situated (engine : Engine) (frame : Option Arguments) (e : Expr) (s : State) :
    Prop where
  confined : (Scope.whole .uncounted).Confines s
  engine : (Scope.whole .uncounted).KnowsEngine s.heap engine
  frame : (Scope.whole .uncounted).KnowsFrame s.heap frame
  within : e.within .uncounted = true
  counts : s.ledger.CountsDispatches

/-- A dispatch that is about to be made in such a run. -/
structure Site.Situated (engine : Engine) (site : Site) : Prop where
  confined : (Scope.whole .uncounted).Confines site.state
  engine : (Scope.whole .uncounted).KnowsEngine site.state.heap engine
  operands : site.request.Known (Scope.whole .uncounted) site.state.heap
  counts : site.state.ledger.CountsDispatches

theorem Situated.after {e e' : Expr} (h : Situated engine frame e s)
    (steps : (Scope.whole .uncounted).Steps s t) (within : e'.within .uncounted = true) :
    Situated engine frame e' t :=
  have later := Scope.Steps.later steps
  ⟨Scope.Steps.confines steps h.confined, h.engine.later later, h.frame.later later, within,
    steps.countsDispatches h.counts⟩

theorem Situated.steps {e : Expr} (h : Situated engine frame e s) (depth : Nat) :
    (Scope.whole .uncounted).Steps s
      (finalState (evaluate (callAt engine depth) engine frame e s)) :=
  (runs_whole depth h.confined h.engine h.frame h.within).steps

theorem Situated.evaluateAll {e : Expr} (h : Situated engine frame e s) {depth : Nat}
    {es : List Expr} {vs : List Value} (within : Expr.allWithin .uncounted es = true)
    (evaluated : evaluateAll (callAt engine depth) engine frame es s = .ok vs t) :
    (Scope.whole .uncounted).Steps s t ∧ ∀ v ∈ vs, (Scope.whole .uncounted).Knows t.heap v := by
  have served := serves_callAt (S := Scope.whole .uncounted) (fun _ h => h) engine depth
  have run := runs_evaluateAll served (fun _ h => h) es h.confined h.engine h.frame within
  exact run.reached evaluated

theorem Next.situated {depth : Nat} {e e' : Expr} {s s' : State}
    (next : Next (callAt engine depth) engine frame e s e' s') (h : Situated engine frame e s) :
    Situated engine frame e' s' := by
  have within := h.within
  cases next with
  | assigned | traced => exact h.after .refl within
  | condition =>
      simp only [Expr.within, Bool.and_eq_true] at within
      exact h.after .refl within.1.1
  | accepted chosen holds =>
      simp only [Expr.within, Bool.and_eq_true] at within
      have steps := (h.after .refl within.1.1).steps depth
      rw [chosen] at steps
      exact h.after steps within.1.2
  | declined chosen fails =>
      simp only [Expr.within, Bool.and_eq_true] at within
      have steps := (h.after .refl within.1.1).steps depth
      rw [chosen] at steps
      exact h.after steps within.2
  | fallback first =>
      simp only [Expr.within, Bool.and_eq_true] at within
      have steps := (h.after .refl within.1).steps depth
      rw [first] at steps
      exact h.after steps within.2
  | element evaluated =>
      simp only [Expr.within, Expr.allWithin_append, Expr.allWithin, Bool.and_eq_true] at within
      exact h.after (h.evaluateAll within.1 evaluated).1 within.2.1
  | operand evaluated =>
      simp only [Expr.within, Expr.allWithin_append, Expr.allWithin, Bool.and_eq_true] at within
      exact h.after (h.evaluateAll within.2.1 evaluated).1 within.2.2.1
  | spanAttribute evaluated =>
      simp only [Expr.within, Expr.allWithin_append, Expr.allWithin, Bool.and_eq_true] at within
      exact h.after (h.evaluateAll within.1.2.1 evaluated).1 within.1.2.2.1
  | spanBody evaluated read =>
      simp only [Expr.within, Bool.and_eq_true] at within
      exact h.after (h.evaluateAll within.1.2 evaluated).1 within.2

/-- What is asked for is asked of values at hand. -/
theorem Asks.situated {depth : Nat} {c : DispatchCommand} {vs : List Value} {settings : Settings}
    {request : Request} {e : Expr} (asks : Asks engine s c vs settings request t)
    (h : Situated engine frame e s)
    (hvs : ∀ v ∈ vs, (Scope.whole .uncounted).Knows s.heap v) :
    Site.Situated engine ⟨depth, settings, request, t⟩ := by
  have set : settingsOf engine s = .ok settings t := by
    cases asks <;> assumption
  have steps := ((runs_settingsOf h.confined h.engine).reached set).1
  obtain ⟨confined, known, -, -, counts⟩ := h.after steps h.within
  refine ⟨confined, known, ?_, counts⟩
  have later := Scope.Steps.later steps
  have content : ∀ {a v}, s.heap.cellAt? a = some v → (Scope.whole .uncounted).Knows t.heap v :=
    fun {a v} hv => Scope.Knows.later later
      (h.confined.heap.object a _ trivial (Heap.cellAt?_eq_some.mp hv))
  cases asks with
  | directly set made =>
      unfold DispatchCommand.request? at made
      split at made <;> cases made
      · exact ⟨(hvs _ (by simp)).later later, (hvs _ (by simp)).later later⟩
      · exact (hvs _ (by simp)).later later
      · exact (hvs _ (by simp)).later later
      · exact (hvs _ (by simp)).later later
      · exact ⟨(hvs _ (by simp)).later later, (hvs _ (by simp)).later later⟩
      · exact ⟨(hvs _ (by simp)).later later, (hvs _ (by simp)).later later⟩
  | assigning set compound current => exact ⟨content current, (hvs _ (by simp)).later later⟩
  | stepping set read placed current => exact content current

theorem steps_kept {V : Vocabulary} {a : Application} {f : Function} {use : Use}
    (decided : a.decide s.heap = .invoke f a.arguments use) :
    (Scope.whole V).Steps s (s.kept a.arguments use).2 := by
  cases use with
  | answer | truth | receiver => exact .refl
  | snapshot =>
      obtain ⟨x, i, hthis, hi⟩ := Application.exists_instance_of_decide decided
      rw [kept_snapshot hthis hi]
      exact .single (.heap (.snapshot trivial hi))

/-- The body of a handler that a site calls. -/
theorem Site.Situated.handler {site : Site} (h : site.Situated engine) {a : Application}
    {f : Function} {use : Use}
    (accepted : site.request.application site.state.operators = .ok a)
    (decided : a.decide site.state.heap = .invoke f a.arguments use) :
    Action.Situated engine (some a.arguments) f.body (site.state.kept a.arguments use).2 := by
  have known := h.confined.heap.knows_decide (Request.knowsApplication h.operands accepted)
  rw [decided] at known
  have start : Action.Situated engine (some a.arguments) f.body site.state := by
    refine ⟨h.confined, h.engine, ?_, known.1, h.counts⟩
    rintro _ ⟨⟩
    exact known.2
  exact start.after (steps_kept decided) known.1

theorem ComesTo.situated {depth : Nat} {e : Expr} {site : Site}
    (comes : ComesTo engine depth frame e s site) (h : Situated engine frame e s) :
    site.Situated engine := by
  induction comes with
  | here evaluated asks =>
      have within := h.within
      simp only [Expr.within, Bool.and_eq_true] at within
      obtain ⟨steps, known⟩ := h.evaluateAll within.2 evaluated
      exact asks.situated (h.after steps h.within) known
  | along next rest ih => exact ih (next.situated h)
  | inside outer accepted decided inner ihOuter ihInner =>
      exact ihInner ((ihOuter h).handler accepted decided)

/-! ## The whole way -/

/-- A dispatch raises what its handler raises, told where it has a span. -/
theorem serve_raises {call : Function → Arguments → Action Value} {settings : Settings}
    {request : Request} {a : Application} {f : Function} {use : Use} {kept : Value} {s₁ : State}
    (accepted : request.application s.operators = .ok a)
    (decided : a.decide s.heap = .invoke f a.arguments use)
    (hkept : keep a.arguments use s = .ok kept s₁) {fault : Fault}
    (raised : call f a.arguments s₁ = .error (.raised fault) t)
    (counts : t.ledger.CountsDispatches) :
    serve call settings request s =
      .error (.raised (settings.told fault))
        (t.close ⟨settings, a, .invoke f a.arguments use, .raised (settings.told fault)⟩) := by
  rw [serve_consulting accepted decided hkept, raised]
  exact concluded_of_accepted (counts.enter _).2

/-- A handler's fault at a situated site. -/
theorem Site.Situated.raises {site : Site} (h : site.Situated engine) {a : Application}
    {f : Function} {use : Use}
    (accepted : site.request.application site.state.operators = .ok a)
    (decided : a.decide site.state.heap = .invoke f a.arguments use) {fault : Fault}
    (raised : callAt engine site.depth f a.arguments (site.state.kept a.arguments use).2 =
      .error (.raised fault) t) :
    ∃ t', site.serve engine = .error (.raised (site.settings.told fault)) t' ∧
      t.SameWork t' := by
  have body := h.handler accepted decided
  have counts : t.ledger.CountsDispatches := by
    generalize site.depth = depth at raised
    cases depth with
    | zero => cases raised
    | succ depth =>
        have steps := body.steps depth
        have ended : evaluate (callAt engine depth) engine (some a.arguments) f.body
            (site.state.kept a.arguments use).2 = .error (.raised fault) t := raised
        rw [ended] at steps
        exact steps.countsDispatches body.counts
  exact ⟨_, serve_raises accepted decided (keep_eq h.confined.heap decided) raised counts,
    .close t _⟩

theorem ComesTo.raises {depth : Nat} {e : Expr} {site : Site}
    (comes : ComesTo engine depth frame e s site) (h : Situated engine frame e s) {fault : Fault}
    (raised : site.serve engine = .error (.raised fault) t) :
    ∃ fault' t', evaluate (callAt engine depth) engine frame e s = .error (.raised fault') t' ∧
      fault.Surfaces fault' ∧ t.SameWork t' := by
  induction comes generalizing fault t with
  | here evaluated asks =>
      exact ⟨fault, t, (bind_ok evaluated).trans (asks.raises raised), .inl rfl, .refl t⟩
  | along next rest ih =>
      obtain ⟨f₁, t₁, part, told₁, same₁⟩ := ih (next.situated h) raised
      obtain ⟨f₂, t₂, whole, told₂, same₂⟩ := next.raises part
      exact ⟨f₂, t₂, whole, told₁.trans told₂, same₁.trans same₂⟩
  | inside outer accepted decided inner ihOuter ihInner =>
      have known := outer.situated h
      obtain ⟨f₁, t₁, body, told₁, same₁⟩ := ihInner (known.handler accepted decided) raised
      obtain ⟨t₂, served, same₂⟩ := known.raises accepted decided body
      obtain ⟨f₃, t₃, whole, told₃, same₃⟩ := ihOuter h served
      have told := told₁.trans ((Fault.surfaces_told _ f₁).trans told₃)
      exact ⟨f₃, t₃, whole, told, (same₁.trans same₂).trans same₃⟩

theorem situated_of_reachable (hs : ReachableWithin .uncounted s)
    (admits : s.ledger.collector.AdmitsDispatches)
    (he : (Scope.whole .uncounted).KnowsEngine s.heap engine)
    (hf : (Scope.whole .uncounted).KnowsFrame s.heap frame) {e : Expr}
    (hin : e.within .uncounted = true) : Situated engine frame e s :=
  ⟨hs.confines, he, hf, hin,
    hs.steps.countsDispatches (Ledger.countsDispatches_empty admits)⟩

/-- A fault that a handler lets out is what the dispatch raises that called the
handler, told where the dispatch has a span, and what every dispatch around
raises with no fallback in between, told again at most.  Only a missing key that
cannot be written out becomes another fault that way.  But for telemetry nothing
has changed since the handler let it out. -/
theorem handlerFault_surfaces (hs : ReachableWithin .uncounted s)
    (admits : s.ledger.collector.AdmitsDispatches)
    (he : (Scope.whole .uncounted).KnowsEngine s.heap engine)
    (hf : (Scope.whole .uncounted).KnowsFrame s.heap frame) {e : Expr}
    (hin : e.within .uncounted = true) {depth : Nat} {site : Site}
    (comes : ComesTo engine depth frame e s site) {a : Application} {f : Function} {use : Use}
    (accepted : site.request.application site.state.operators = .ok a)
    (decided : a.decide site.state.heap = .invoke f a.arguments use) {fault : Fault}
    (raised : callAt engine site.depth f a.arguments (site.state.kept a.arguments use).2 =
      .error (.raised fault) t) :
    (∃ t', site.serve engine = .error (.raised (site.settings.told fault)) t' ∧
        t.SameWork t') ∧
      ∃ fault' t', evaluate (callAt engine depth) engine frame e s =
          .error (.raised fault') t' ∧
        (site.settings.told fault).Surfaces fault' ∧
        ((∀ why, fault ≠ .missingKey (.illegible why)) → fault' = fault) ∧ t.SameWork t' := by
  have situated := situated_of_reachable hs admits he hf hin
  obtain ⟨t₁, served, same₁⟩ := (comes.situated situated).raises accepted decided raised
  obtain ⟨fault', t₂, surfaced, told, same₂⟩ := comes.raises situated served
  have whole := (Fault.surfaces_told site.settings fault).trans told
  exact ⟨⟨t₁, served, same₁⟩, fault', t₂, surfaced, told, whole.eq_of_legible,
    same₁.trans same₂⟩

/-- Both operands of the call at hand. -/
def bothOperands : List Expr :=
  [.variable "this", .variable "other"]

/-- A sum whose handler takes a difference, whose handler raises. -/
def boxes : Expr :=
  .sequence [
    .assign "Box" (.call (.definition (.define "Box" ["add", "subtract"]))
      [.handler "difference" (.call (.dispatch (.binary "-")) bothOperands),
        .handler "failing" (.raise .typeError "no"), .literal .null]),
    .call (.definition (.instantiate [])) [.variable "Box"]]

/-- The handler that takes the difference is to be called. -/
def callsDifference : Decision → Bool
  | .invoke ⟨_, _, .call (.dispatch (.binary "-")) [.variable "this", .variable "other"]⟩ _
      .answer => true
  | _ => false

/-- The handler that raises is to be called. -/
def callsFailing : Decision → Bool
  | .invoke ⟨_, _, .raise .typeError "no"⟩ _ .answer => true
  | _ => false

/-- What the handlers of the box are called with. -/
def twoBoxes : Arguments :=
  ⟨.object ⟨2⟩, some (.object ⟨2⟩)⟩

theorem evaluateAll_bothOperands (call : Function → Arguments → Action Value) (engine : Engine)
    (s : State) :
    evaluateAll call engine (some twoBoxes) bothOperands s =
      .ok [.object ⟨2⟩, .object ⟨2⟩] s :=
  rfl

theorem comesTo_binary (depth : Nat) (literal : String) (s : State) :
    ComesTo (.own .standard) depth (some twoBoxes)
      (.call (.dispatch (.binary literal)) bothOperands) s
      ⟨depth, .standard, .binary literal (.object ⟨2⟩) (.object ⟨2⟩), s⟩ :=
  .here (evaluateAll_bothOperands _ _ s) (.directly rfl rfl)

theorem handlerFault_surfaces_boxes :
    ∃ t, evaluate (callAt (.own .standard) 2) (.own .standard) (some twoBoxes)
        (.call (.dispatch (.binary "+")) bothOperands) (.after 0 boxes) =
          .error (.raised (.raised .typeError "no")) t ∧
      (State.after 0 boxes).SameWork t := by
  have reachable : ReachableWithin .uncounted (State.after 0 boxes) := reachable_after 0 rfl
  have admits : (State.after 0 boxes).ledger.collector.AdmitsDispatches := by
    rw [State.collector_after (V := .uncounted) 0 rfl]
    exact Collector.admitsDispatches_standard
  have box : (Scope.whole .uncounted).Knows (State.after 0 boxes).heap (.object ⟨2⟩) :=
    ⟨trivial, by decide +kernel⟩
  have frame : (Scope.whole .uncounted).KnowsFrame (State.after 0 boxes).heap (some twoBoxes) := by
    rintro _ ⟨⟩
    exact ⟨box, fun v hv => Option.some.inj hv ▸ box⟩
  let sum : Application :=
    ⟨⟨"+", .binary, .add, "Addition", false⟩, .binary (.object ⟨2⟩) (.object ⟨2⟩)⟩
  let difference : Application :=
    ⟨⟨"-", .binary, .subtract, "Subtraction", false⟩, .binary (.object ⟨2⟩) (.object ⟨2⟩)⟩
  have adds : callsDifference (sum.decide (State.after 0 boxes).heap) = true := by
    decide +kernel
  have fails : callsFailing (difference.decide (State.after 0 boxes).heap) = true := by
    decide +kernel
  generalize State.after 0 boxes = s at *
  unfold callsDifference at adds
  unfold callsFailing at fails
  split at adds
  · rename_i decided
    split at fails
    · rename_i decided'
      obtain rfl := Application.arguments_of_decide decided
      obtain rfl := Application.arguments_of_decide decided'
      have accepts : ∀ {literal o}, OperatorTables.standard.find? .binary literal = some o →
          (Request.binary literal (.object ⟨2⟩) (.object ⟨2⟩)).application
            s.operators = .ok ⟨o, .binary (.object ⟨2⟩) (.object ⟨2⟩)⟩ := by
        intro literal o ho
        have found := OperatorTables.lookup_of_find? (reachable.find?_operators ho)
        simp only [Request.application, Application.binary, found]
      have comes := ComesTo.inside (comesTo_binary 2 "+" s) (accepts rfl) decided
        (comesTo_binary 1 "-" s)
      have engine : (Scope.whole .uncounted).KnowsEngine s.heap (.own .standard) := trivial
      have raised : ∀ f, f.body = .raise .typeError "no" →
          callAt (.own .standard) 1 f twoBoxes s =
            .error (.raised (.raised .typeError "no")) s := by
        intro f hbody
        rw [callAt, hbody]
        rfl
      obtain ⟨-, fault', t, surfaced, -, same, work⟩ := handlerFault_surfaces reachable admits
        engine frame rfl comes (accepts rfl) decided' (raised _ rfl)
      have legible : ∀ why, Fault.raised .typeError "no" ≠ .missingKey (.illegible why) := by
        intro why equal
        cases equal
      rw [same legible] at surfaced
      exact ⟨t, surfaced, work⟩
    · cases fails
  · cases adds

/-- The sum of the record and one. -/
def plusOne : Request :=
  .binary "+" (.object ⟨0⟩) (.integer 1)

/-- The fault that an evaluation ends in. -/
def fault? {α : Type} : EStateM.Result Interruption State α → Option Fault
  | .error (.raised fault) _ => some fault
  | _ => none

theorem exists_of_fault? {α : Type} {result : EStateM.Result Interruption State α}
    {fault : Fault} (h : fault? result = some fault) : ∃ t, result = .error (.raised fault) t := by
  unfold fault? at h
  split at h
  · cases h
    exact ⟨_, rfl⟩
  · cases h

/-- The fault of the handler that a dispatch is to call. -/
def handlerFault? (engine : Engine) (depth : Nat) (s : State) : Decision → Option Fault
  | .invoke f arguments .answer => fault? (callAt engine depth f arguments s)
  | _ => none

/-- The handler raises that a key is missing, and the dispatch that the key cannot be
written out. -/
theorem handlerFault_replaced :
    Reachable (.after 0 askingForLong) ∧
      ∃ a, plusOne.application (State.after 0 askingForLong).operators = .ok a ∧
        ∃ f t, a.decide (State.after 0 askingForLong).heap = .invoke f a.arguments .answer ∧
          callAt (.own .standard) 1 f a.arguments (.after 0 askingForLong) =
            .error (.raised (.missingKey (.illegible .tooManyDigits))) t ∧
          ∃ t', serve (callAt (.own .standard) 1) .standard plusOne (.after 0 askingForLong) =
            .error (.raised (.native .tooManyDigits)) t' := by
  have reachable : Reachable (.after 0 askingForLong) :=
    reachable_after 0 (Expr.within_full askingForLong)
  let sum : Application :=
    ⟨⟨"+", .binary, .add, "Addition", false⟩, .binary (.object ⟨0⟩) (.integer 1)⟩
  have accepted : plusOne.application (State.after 0 askingForLong).operators = .ok sum := by
    have standard : OperatorTables.standard.find? .binary "+" = some sum.operator := rfl
    have found := OperatorTables.lookup_of_find? (reachable.find?_operators standard)
    simp only [plusOne, Request.application, Application.binary, found]
    rfl
  have raised : handlerFault? (.own .standard) 1 (.after 0 askingForLong)
      (sum.decide (State.after 0 askingForLong).heap) =
        some (.missingKey (.illegible .tooManyDigits)) := by
    decide +kernel
  have replaced :
      fault? (serve (callAt (.own .standard) 1) .standard plusOne (.after 0 askingForLong)) =
        some (.native .tooManyDigits) := by
    decide +kernel
  refine ⟨reachable, sum, accepted, ?_⟩
  generalize State.after 0 askingForLong = s at *
  unfold handlerFault? at raised
  split at raised
  · rename_i f arguments decided
    obtain rfl := Application.arguments_of_decide decided
    obtain ⟨t, raised⟩ := exists_of_fault? raised
    exact ⟨f, t, decided, raised, exists_of_fault? replaced⟩
  · cases raised

end Action

end OperatorDispatch
