import OperatorDispatch.Proofs.Conduct
import OperatorDispatch.Proofs.Observation

/-!
# Sites of dispatches

The evaluation of an expression goes from the expression to its parts, and from
a dispatch to the body of the handler that is called.  `Action.Next` is one step
of the first kind and `Action.ComesTo` a way made of both, to a site at which a
dispatch is made.  A body with a fallback is entered by no step, so nothing on
the way catches what the site raises.

Besides dispatching commands there are the slots: a compound assignment and a
step on a slot ask for a dispatch on the content of the cell (`Action.Asks`).
-/

namespace OperatorDispatch

/-! ## What a command asks for -/

/-- The request that a command makes of its operands as they are. -/
def DispatchCommand.request? : DispatchCommand → List Value → Option Request
  | .binary literal, [v, w] => some (.binary literal v w)
  | .unary literal position, [v] => some (.unary literal position v)
  | .before literal, [v] => some (.placed literal .before v)
  | .after literal, [v] => some (.placed literal .after v)
  | .equals, [v, w] => some (.binary "==" v w)
  | .strictEquals, [v, w] => some (.binary "===" v w)
  | _, _ => none

/-- Where a step on a slot stands to its content: a primitive is stepped before
it is read in any case. -/
def Position.onSlot (p : Position) : Value → Position
  | .primitive _ => .before
  | .function _ | .object _ => p

namespace Action

/-- A command comes to a request, with the settings that it is served under and
the state that it is served from. -/
inductive Asks (engine : Engine) (s : State) :
    DispatchCommand → List Value → Settings → Request → State → Prop
  | directly {c : DispatchCommand} {vs : List Value} {settings : Settings} {request : Request}
      {t : State} (set : settingsOf engine s = .ok settings t)
      (made : c.request? vs = some request) :
      Asks engine s c vs settings request t
  | assigning {literal binary : String} {a : Address} {v current : Value} {settings : Settings}
      {t : State} (set : settingsOf engine s = .ok settings t)
      (compound : compoundOperator literal = .ok binary)
      (content : s.heap.cellAt? a = some current) :
      Asks engine s (.assign literal) [.object a, v] settings (.binary binary current v) t
  | stepping {literal : String} {position : Option String} {p : Position} {a : Address}
      {current : Value} {settings : Settings} {t : State}
      (set : settingsOf engine s = .ok settings t)
      (read : readPosition literal position = .ok p) (placed : p ≠ .unspecified)
      (content : s.heap.cellAt? a = some current) :
      Asks engine s (.update literal position) [.object a] settings
        (.placed literal (p.onSlot current) current) t

section Asks

variable {s t : State} {engine : Engine} {settings : Settings} {request : Request}
  {call : Function → Arguments → Action Value} {c : DispatchCommand} {vs : List Value}

/-- Settings for a first time are shared, with the limit of the ledger; a
refused limit changes nothing. -/
theorem settingsOf_finalState (engine : Engine) (s : State) :
    ∃ ledger shared, finalState (settingsOf engine s) = { s with ledger, shared } := by
  cases engine with
  | own settings => exact ⟨s.ledger, s.shared, rfl⟩
  | shared environment =>
      cases present : s.shared with
      | some settings =>
          have known : settingsOf (.shared environment) s = .ok settings s :=
            sharedSettings_some present
          rw [known]
          exact ⟨s.ledger, s.shared, rfl⟩
      | none =>
          cases hread : Settings.ofEnvironment environment with
          | error fault =>
              exact ⟨s.ledger, s.shared, congrArg finalState (sharedSettings_unread present hread)⟩
          | ok new =>
              have begun := sharedSettings_read present hread
              cases hlimit : checkLimit new.ledgerLimit with
              | error fault =>
                  have stopped := bind_error (f := fun _ => (pure new : Action Settings))
                    (configure_error hlimit s)
                  exact ⟨s.ledger, s.shared, congrArg finalState (begun.trans stopped)⟩
              | ok limit =>
                  have done := bind_ok (f := fun _ => (pure new : Action Settings))
                    (configure_ok hlimit s)
                  exact ⟨_, _, congrArg finalState (begun.trans done)⟩

theorem settingsOf_ok (h : settingsOf engine s = .ok settings t) :
    ∃ ledger shared, t = { s with ledger, shared } := by
  obtain ⟨ledger, shared, same⟩ := settingsOf_finalState engine s
  rw [h] at same
  exact ⟨ledger, shared, same⟩

theorem settingsOf_error {e : Interruption} (h : settingsOf engine s = .error e t) :
    ∃ ledger shared, t = { s with ledger, shared } := by
  obtain ⟨ledger, shared, same⟩ := settingsOf_finalState engine s
  rw [h] at same
  exact ⟨ledger, shared, same⟩

/-- Settings do not come from the heap and do not change it. -/
theorem heap_settingsOf (h : settingsOf engine s = .ok settings t) : t.heap = s.heap := by
  obtain ⟨ledger, shared, rfl⟩ := settingsOf_ok h
  rfl

theorem dispatch_of_request? (made : c.request? vs = some request) :
    dispatch call engine c vs = (do serve call (← settingsOf engine) request) := by
  unfold DispatchCommand.request? at made
  split at made <;> cases made <;> rfl

theorem cellOf?_of_cellAt? {a : Address} {v : Value} (h : s.heap.cellAt? a = some v) :
    demand .unusable (s.heap.cellOf? (.object a)) s = .ok (a, v) s := by
  rw [Heap.cellOf?_eq_some.mpr ⟨rfl, Heap.cellAt?_eq_some.mp h⟩]
  rfl

theorem cellAt_ok {a : Address} {v : Value} (h : s.heap.cellAt? a = some v) :
    cellAt a s = .ok v s := by
  simp only [cellAt, bind, EStateM.bind, heap, h, demand_some]

/-! ### Steps on slots -/

theorem update_eq {a : Address} {literal : String} {position : Option String} {p : Position}
    (set : settingsOf engine s = .ok settings t) (read : readPosition literal position = .ok p)
    (placed : p ≠ .unspecified) :
    update call engine a literal position s = step call settings a literal p t := by
  have begun : ofExcept (readPosition literal position) t = .ok p t := by
    rw [read]
    rfl
  refine (bind_ok set).trans ((bind_ok begun).trans ?_)
  cases p with
  | unspecified => exact absurd rfl placed
  | before | after => rfl

/-- What a step on a slot makes of the dispatch before a primitive. -/
def rebinding (a : Address) (q : Primitive) (p : Position) (stepped : Value) : Action Value := do
  setCell a stepped
  return if p = .after then .primitive q else stepped

theorem step_primitive {a : Address} {q : Primitive} {literal : String} {p : Position}
    (content : t.heap.cellAt? a = some (.primitive q)) :
    step call settings a literal p t =
      (serve call settings (.placed literal .before (.primitive q)) >>= rebinding a q p) t :=
  bind_ok (cellAt_ok content)

theorem step_other {a : Address} {v : Value} {literal : String} {p : Position}
    (content : t.heap.cellAt? a = some v) (other : ∀ q, v ≠ .primitive q) :
    step call settings a literal p t = serve call settings (.placed literal p v) t := by
  refine (bind_ok (cellAt_ok content)).trans ?_
  cases v with
  | primitive q => exact absurd rfl (other q)
  | function | object => rfl

/-- What the request raises the command raises. -/
theorem Asks.raises (asks : Asks engine s c vs settings request t) {e : Interruption} {u : State}
    (raised : serve call settings request t = .error e u) :
    dispatch call engine c vs s = .error e u := by
  cases asks with
  | directly set made =>
      rw [dispatch_of_request? made, bind_ok set]
      exact raised
  | @assigning literal binary a v current _ _ set compound content =>
      have here := heap_settingsOf set
      have found : cellAt a t = .ok current t := cellAt_ok (by rwa [here])
      have begun : ofExcept (compoundOperator literal) s = .ok binary s := by
        rw [compound]
        rfl
      refine (bind_ok (cellOf?_of_cellAt? content)).trans ?_
      refine (bind_ok begun).trans ((bind_ok set).trans ((bind_ok found).trans ?_))
      exact bind_error raised
  | @stepping literal position p a current _ _ set read placed content =>
      have content' : t.heap.cellAt? a = some current := by rwa [heap_settingsOf set]
      have stepped : step call settings a literal p t = .error e u := by
        cases current with
        | primitive q => exact (step_primitive content').trans (bind_error raised)
        | function | object =>
            refine (step_other content' ?_).trans raised
            rintro _ ⟨⟩
      refine (bind_ok (cellOf?_of_cellAt? content)).trans ?_
      exact (update_eq set read placed).trans stepped

end Asks

/-! ## From an expression to its parts -/

/-- Evaluating an expression goes on with evaluating one of its parts, with no
fallback around it. -/
inductive Next (call : Function → Arguments → Action Value) (engine : Engine)
    (frame : Option Arguments) : Expr → State → Expr → State → Prop
  | assigned {name : String} {e : Expr} {s : State} : Next call engine frame (.assign name e) s e s
  | traced {e : Expr} {s : State} : Next call engine frame (.trace e) s e s
  | condition {condition accept decline : Expr} {s : State} :
      Next call engine frame (.choose condition accept decline) s condition s
  | accepted {condition accept decline : Expr} {s t : State} {v : Value}
      (chosen : evaluate call engine frame condition s = .ok v t)
      (holds : t.heap.truthy v = true) :
      Next call engine frame (.choose condition accept decline) s accept t
  | declined {condition accept decline : Expr} {s t : State} {v : Value}
      (chosen : evaluate call engine frame condition s = .ok v t)
      (fails : t.heap.truthy v = false) :
      Next call engine frame (.choose condition accept decline) s decline t
  /-- What the fallback raises is not caught any more. -/
  | fallback {body fallback : Expr} {s t : State} {fault : Fault}
      (raised : evaluate call engine frame body s = .error (.raised fault) t) :
      Next call engine frame (.attempt body fallback) s fallback t
  | element {before after : List Expr} {e : Expr} {s t : State} {vs : List Value}
      (evaluated : evaluateAll call engine frame before s = .ok vs t) :
      Next call engine frame (.sequence (before ++ e :: after)) s e t
  | spanAttribute {name : String} {keys : List String} {before after : List Expr} {e body : Expr}
      {s t : State} {vs : List Value}
      (evaluated : evaluateAll call engine frame before s = .ok vs t) :
      Next call engine frame (.span name keys (before ++ e :: after) body) s e t
  | spanBody {name : String} {keys : List String} {attributes : List Expr} {body : Expr}
      {s t : State} {vs : List Value} {texts : Attributes}
      (evaluated : evaluateAll call engine frame attributes s = .ok vs t)
      (read : attributesFrom t.heap (entriesFrom keys vs) = .ok texts) :
      Next call engine frame (.span name keys attributes body) s body t
  | operand {c : Command} {before after : List Expr} {e : Expr} {s t : State} {vs : List Value}
      (evaluated : evaluateAll call engine frame before s = .ok vs t) :
      Next call engine frame (.call c (before ++ e :: after)) s e t

/-! ## To a site -/

/-- A dispatch as it is made in the course of a run. -/
structure Site where
  depth : Nat
  settings : Settings
  request : Request
  state : State

/-- What the site gives. -/
def Site.serve (engine : Engine) (site : Site) : EStateM.Result Interruption State Value :=
  Action.serve (callAt engine site.depth) site.settings site.request site.state

/-- Evaluating an expression comes to a site, and nothing on the way there
catches what it raises. -/
inductive ComesTo (engine : Engine) : Nat → Option Arguments → Expr → State → Site → Prop
  | here {depth : Nat} {frame : Option Arguments} {c : DispatchCommand} {operands : List Expr}
      {s t u : State} {vs : List Value} {settings : Settings} {request : Request}
      (evaluated : evaluateAll (callAt engine depth) engine frame operands s = .ok vs t)
      (asks : Asks engine t c vs settings request u) :
      ComesTo engine depth frame (.call (.dispatch c) operands) s ⟨depth, settings, request, u⟩
  | along {depth : Nat} {frame : Option Arguments} {e e' : Expr} {s s' : State} {site : Site}
      (next : Next (callAt engine depth) engine frame e s e' s')
      (rest : ComesTo engine depth frame e' s' site) :
      ComesTo engine depth frame e s site
  /-- The dispatch at one site calls a handler, whose body comes to another. -/
  | inside {top depth : Nat} {frame : Option Arguments} {e : Expr} {s u : State}
      {settings : Settings} {request : Request} {a : Application} {f : Function} {use : Use}
      {site : Site} (outer : ComesTo engine top frame e s ⟨depth + 1, settings, request, u⟩)
      (accepted : request.application u.operators = .ok a)
      (decided : a.decide u.heap = .invoke f a.arguments use)
      (inner : ComesTo engine depth (some a.arguments) f.body (u.kept a.arguments use).2 site) :
      ComesTo engine top frame e s site

end Action

end OperatorDispatch
