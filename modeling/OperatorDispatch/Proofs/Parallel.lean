import OperatorDispatch.Evaluation
import OperatorDispatch.Proofs.Tandem.Commands

/-!
# Parallel runs

Code runs in tandem on the two sides of a gap: it dispatches to the same handlers with
the same arguments, catches what it catches on both sides, and ends the same way.  The
induction on expressions takes the calls of handlers as given (`Parallel`), and the
one on the depth of calls gives them (`parallel_callAt`).

The ledgers of the two sides are the same throughout.  So the collector refuses on
both sides or on neither, and code may count, trace and reset as it likes.
-/

namespace OperatorDispatch

/-- Records of which the gist and what is entered in a ledger are the same. -/
structure DispatchRecord.Alike (r r' : DispatchRecord) : Prop where
  gist : r'.gist = r.gist
  entered : ∀ l : Ledger, l.enter r' = l.enter r

namespace Action

variable {g : Gap} {s s' : State}

/-! ## Observation -/

theorem tandem_spanned {name : String} {attributes : Attributes} {work work' : Action Value}
    (hw : Tandem g work work') :
    Tandem g (spanned name attributes work) (spanned name attributes work') := by
  have record (span : Span) : Tandem g (recordSpan span) (recordSpan span) := by
    refine tandem_get_bind fun t t' ht => ?_
    rw [ht.ledger]
    exact tandem_setLedger _
  intro s s' hs
  unfold spanned
  rcases (hw s s' hs).elim with ⟨v, t, t', h, h', moved⟩ | ⟨e, t, t', h, h', moved⟩
  · rw [h, h']
    exact tandem_bind (record _) (fun _ => tandem_pure v) t t' moved
  · rw [h, h']
    cases e with
    | raised fault => exact tandem_bind (record _) (fun _ => tandem_raise fault.told) t t' moved
    | aborted text =>
        exact tandem_bind (record _) (fun _ => tandem_throw (.aborted text)) t t' moved
    | exhausted => exact .error _ moved

/-- The collector objects on both sides or on neither. -/
theorem endTandem_concluded {r r' : DispatchRecord} (hs : s.Displaced g s') (alike : r.Alike r')
    {answer answer' : State → EStateM.Result Interruption State Value}
    (answers : ∀ t t', t.Displaced g t' → EndTandem g (answer t) (answer' t')) :
    EndTandem g (concluded r answer s) (concluded r' answer' s') := by
  have entered : s'.ledger.enter r' = s.ledger.enter r := by rw [alike.entered, hs.ledger]
  have closed : (s.close r).Displaced g (s'.close r') := { hs with
    dispatches := by
      simp only [State.close, List.map_append, hs.dispatches, List.map_cons, alike.gist]
    ledger := congrArg Prod.fst entered }
  unfold concluded
  rw [entered]
  cases (s.ledger.enter r).2 with
  | none => exact answers _ _ closed
  | some refusal => exact .error _ closed

theorem EndTandem.conclusion {settings settings' : Settings} {a a' : Application}
    {d d' : Decision} {result result' : EStateM.Result Interruption State (Value × Outcome)}
    (ended : EndTandem g result result') (spans : settings'.traceSpans = settings.traceSpans)
    (alike : ∀ ending,
      DispatchRecord.Alike ⟨settings, a, d, ending⟩ ⟨settings', a', d', ending⟩) :
    EndTandem g (conclusion settings a d result) (conclusion settings' a' d' result') := by
  cases ended with
  | ok x moved => exact endTandem_concluded moved (alike _) fun _ _ ht => .ok x.1 ht
  | error e moved =>
      cases e with
      | raised fault =>
          have told : settings'.told fault = settings.told fault := by
            rw [Settings.told, Settings.told, spans]
          dsimp only [Action.conclusion]
          rw [told]
          exact endTandem_concluded moved (alike _) fun _ _ ht => .error _ ht
      | aborted text => exact endTandem_concluded moved (alike .aborted) fun _ _ ht => .error _ ht
      | exhausted => exact .error _ moved

/-! ## What a dispatch is made of -/

theorem binary_across (g : Gap) (t : OperatorTables) (literal : String) (lhs rhs : Value) :
    Application.binary t literal (across g lhs) (across g rhs) =
      across g (Application.binary t literal lhs rhs) := by
  unfold Application.binary
  cases t.lookup .binary literal <;> rfl

theorem unaryAt_across (g : Gap) (o : Operator) (literal : String) (position : Position)
    (operand : Value) :
    Application.unaryAt o literal position (across g operand) =
      across g (Application.unaryAt o literal position operand) := by
  unfold Application.unaryAt
  cases o.isMutating <;> cases position <;> rfl

theorem unary_across (g : Gap) (t : OperatorTables) (literal : String)
    (position : Option String) (operand : Value) :
    Application.unary t literal position (across g operand) =
      across g (Application.unary t literal position operand) := by
  unfold Application.unary
  cases t.lookup .unary literal with
  | error fault => rfl
  | ok o =>
      cases readPosition literal position with
      | error fault => rfl
      | ok p => exact unaryAt_across g o literal p operand

/-- The sentinel of an environment is no object. -/
theorem ofEnvironment_across (g : Gap) (environment : Environment) :
    across g (Settings.ofEnvironment environment) = Settings.ofEnvironment environment := by
  unfold Settings.ofEnvironment
  split <;> rfl

theorem tandem_settingsOf (engine : Engine) :
    Tandem g (settingsOf engine) (settingsOf (across g engine)) := by
  cases engine with
  | own settings => exact tandem_pure settings
  | shared environment =>
      refine tandem_get_bind fun t t' ht => ?_
      rw [ht.shared]
      cases t.shared with
      | some settings => exact tandem_pure settings
      | none =>
          have configured : Tandem g
              (ofExcept (Settings.ofEnvironment environment) >>= fun settings =>
                configure settings >>= fun _ => pure settings)
              (ofExcept (across g (Settings.ofEnvironment environment)) >>= fun settings =>
                configure settings >>= fun _ => pure settings) :=
            tandem_ofExcept_bind fun settings =>
              tandem_bind (tandem_configure settings) fun _ => tandem_pure settings
          rwa [ofEnvironment_across] at configured

theorem tandem_fallBack (settings : Settings) (o : Operator) (fallback : Fallback)
    (typeName : String) :
    Tandem g (fallBack settings o fallback typeName)
      (fallBack (across g settings) o fallback typeName) := by
  refine tandem_bind (tandem_log _) fun _ => ?_
  cases fallback with
  | sentinel => exact tandem_pure (settings.sentinel, Outcome.default)
  | unequal => exact tandem_pure (Value.boolean false, Outcome.default)
  | refuse => exact tandem_raise _

theorem tandem_cellAt (a : Address) : Tandem g (cellAt a) (cellAt (g.shift a)) := by
  refine tandem_heap_bind fun h h' moved => ?_
  rw [moved.cellAt?]
  exact tandem_demand _ _

theorem tandem_registerOperator (o : Operator) :
    Tandem g (registerOperator o) (registerOperator o) := by
  refine tandem_get_bind fun t t' ht => ?_
  rw [ht.operators]
  cases t.operators.register? o with
  | some tables => exact tandem_setOperators tables
  | none => exact tandem_raise _

/-! ## Dispatch -/

/-- Calls that do the same on the two sides of a gap. -/
def Parallel (g : Gap) (call call' : Function → Arguments → Action Value) : Prop :=
  ∀ f arguments, Tandem g (call f arguments) (call' f (across g arguments))

section Dispatch

variable {call call' : Function → Arguments → Action Value} (calls : Parallel g call call')

include calls

theorem tandem_invoke (f : Function) (arguments : Arguments) (use : Use) :
    Tandem g (invoke call f arguments use) (invoke call' f (across g arguments) use) := by
  cases use with
  | answer => exact tandem_bind (calls f arguments) fun v => tandem_pure (v, Outcome.handler)
  | truth =>
      refine tandem_bind (calls f arguments) fun v => tandem_heap_bind fun h h' moved => ?_
      rw [moved.truthy]
      exact tandem_pure (Value.boolean (h.truthy v), Outcome.derived)
  | receiver =>
      exact tandem_bind (calls f arguments) fun _ => tandem_pure (arguments.this, Outcome.handler)
  | snapshot =>
      refine tandem_heap_bind fun h h' moved => ?_
      show Tandem g _ (demand .unusable (h'.instanceOf? (across g arguments.this)) >>= _)
      rw [moved.instanceOf?]
      refine tandem_demand_bind fun x => tandem_bind (tandem_snapshot x.2) fun before => ?_
      exact tandem_bind (calls f arguments) fun _ =>
        tandem_pure (Value.object before, Outcome.handler)

theorem tandem_carryOut (settings : Settings) (o : Operator) (d : Decision) :
    Tandem g (carryOut call settings o d) (carryOut call' (across g settings) o (across g d)) := by
  cases d with
  | answer v outcome => exact tandem_pure (v, outcome)
  | fallBack fallback typeName => exact tandem_fallBack settings o fallback typeName
  | fail fault => exact tandem_raise _
  | invoke f arguments use => exact tandem_invoke calls f arguments use

theorem tandem_perform (settings : Settings) (a : Application) (d : Decision) :
    Tandem g (perform call settings a d)
      (perform call' (across g settings) (across g a) (across g d)) := by
  refine tandem_bind (tandem_carryOut calls settings a.operator d) fun x => ?_
  have negates : (across g a).negates = a.negates := by
    obtain ⟨o, form⟩ := a
    cases form <;> rfl
  show Tandem g _ (if (across g a).negates then _ else _)
  rw [negates]
  dsimp only
  split
  · refine tandem_heap_bind fun h h' moved => ?_
    show Tandem g _ (pure (Value.boolean (!h'.truthy (across g x.1)), x.2))
    rw [moved.truthy]
    exact tandem_pure (Value.boolean (!h.truthy x.1), x.2)
  · exact tandem_pure x

theorem tandem_apply (settings : Settings) (a : Application) :
    Tandem g (apply call settings a) (apply call' (across g settings) (across g a)) := by
  intro s s' hs
  rw [apply_eq, apply_eq, Application.decide_across hs.heap]
  exact (tandem_perform calls settings a _ s s' hs).conclusion rfl fun _ => ⟨rfl, fun _ => rfl⟩

theorem tandem_dispatchBinary (settings : Settings) (literal : String) (lhs rhs : Value) :
    Tandem g (dispatchBinary call settings literal lhs rhs)
      (dispatchBinary call' (across g settings) literal (across g lhs) (across g rhs)) := by
  refine tandem_get_bind fun t t' ht => ?_
  rw [ht.operators, binary_across]
  exact tandem_ofExcept_bind fun a => tandem_apply calls settings a

theorem tandem_dispatchUnary (settings : Settings) (literal : String) (position : Option String)
    (operand : Value) :
    Tandem g (dispatchUnary call settings literal position operand)
      (dispatchUnary call' (across g settings) literal position (across g operand)) := by
  refine tandem_get_bind fun t t' ht => ?_
  rw [ht.operators, unary_across]
  exact tandem_ofExcept_bind fun a => tandem_apply calls settings a

theorem tandem_dispatchAt (settings : Settings) (literal : String) (position : Position)
    (operand : Value) :
    Tandem g (dispatchAt call settings literal position operand)
      (dispatchAt call' (across g settings) literal position (across g operand)) := by
  refine tandem_get_bind fun t t' ht => ?_
  rw [ht.operators]
  refine tandem_ofExcept_same fun o => ?_
  rw [unaryAt_across]
  exact tandem_ofExcept_bind fun a => tandem_apply calls settings a

/-! ### Slots -/

theorem tandem_assign (engine : Engine) (cell : Address) (literal : String) (rhs : Value) :
    Tandem g (assign call engine cell literal rhs)
      (assign call' (across g engine) (g.shift cell) literal (across g rhs)) := by
  refine tandem_ofExcept_same fun binary => ?_
  refine tandem_bind (tandem_settingsOf engine) fun settings => ?_
  refine tandem_bind (tandem_cellAt cell) fun current => ?_
  refine tandem_bind (tandem_dispatchBinary calls settings binary current rhs) fun result => ?_
  exact tandem_bind (tandem_write cell (.cell result) rfl) fun _ => tandem_pure result

theorem tandem_step (settings : Settings) (cell : Address) (literal : String)
    (position : Position) :
    Tandem g (step call settings cell literal position)
      (step call' (across g settings) (g.shift cell) literal position) := by
  refine tandem_bind (tandem_cellAt cell) fun current => ?_
  cases current with
  | primitive p =>
      refine tandem_bind (tandem_dispatchAt calls settings literal .before (.primitive p))
        fun stepped => ?_
      refine tandem_bind (tandem_write cell (.cell stepped) rfl) fun _ => ?_
      split
      · exact tandem_pure (Value.primitive p)
      · exact tandem_pure stepped
  | function f => exact tandem_dispatchAt calls settings literal position (.function f)
  | object a => exact tandem_dispatchAt calls settings literal position (.object a)

theorem tandem_update (engine : Engine) (cell : Address) (literal : String)
    (position : Option String) :
    Tandem g (update call engine cell literal position)
      (update call' (across g engine) (g.shift cell) literal position) := by
  refine tandem_bind (tandem_settingsOf engine) fun settings => ?_
  refine tandem_ofExcept_same fun p => ?_
  cases p with
  | unspecified => exact tandem_raise _
  | before | after => exact tandem_step calls settings cell literal _

/-! ### Commands -/

theorem tandem_dispatch (engine : Engine) (c : DispatchCommand) (vs : List Value) :
    Tandem g (dispatch call engine c vs) (dispatch call' (across g engine) c (across g vs)) := by
  have unusable : Tandem g (raise .unusable : Action Value) (raise .unusable) := tandem_raise _
  cases c with
  | binary literal =>
      match vs with
      | [v, w] =>
          exact tandem_bind (tandem_settingsOf engine) fun settings =>
            tandem_dispatchBinary calls settings literal v w
      | [] | [_] | _ :: _ :: _ :: _ => exact unusable
  | unary literal position =>
      match vs with
      | [v] =>
          exact tandem_bind (tandem_settingsOf engine) fun settings =>
            tandem_dispatchUnary calls settings literal position v
      | [] | _ :: _ :: _ => exact unusable
  | before literal =>
      match vs with
      | [v] =>
          exact tandem_bind (tandem_settingsOf engine) fun settings =>
            tandem_dispatchAt calls settings literal .before v
      | [] | _ :: _ :: _ => exact unusable
  | after literal =>
      match vs with
      | [v] =>
          exact tandem_bind (tandem_settingsOf engine) fun settings =>
            tandem_dispatchAt calls settings literal .after v
      | [] | _ :: _ :: _ => exact unusable
  | equals =>
      match vs with
      | [v, w] =>
          exact tandem_bind (tandem_settingsOf engine) fun settings =>
            tandem_dispatchBinary calls settings "==" v w
      | [] | [_] | _ :: _ :: _ :: _ => exact unusable
  | strictEquals =>
      match vs with
      | [v, w] =>
          exact tandem_bind (tandem_settingsOf engine) fun settings =>
            tandem_dispatchBinary calls settings "===" v w
      | [] | [_] | _ :: _ :: _ :: _ => exact unusable
  | native selector => exact tandem_ofExcept_same fun sel => tandem_native sel vs
  | assign literal =>
      match vs with
      | [c, v] => exact tandem_cellOf_bind fun a _ => tandem_assign calls engine a literal v
      | [] | [_] | _ :: _ :: _ :: _ => exact unusable
  | update literal position =>
      match vs with
      | [c] => exact tandem_cellOf_bind fun a _ => tandem_update calls engine a literal position
      | [] | _ :: _ :: _ => exact unusable
  | registerOperator literal binary selector description negated =>
      match vs with
      | [] => exact tandem_ofExcept_same fun sel => tandem_null (tandem_registerOperator _)
      | _ :: _ => exact unusable

theorem tandem_command (engine : Engine) (c : Command) (vs : List Value) :
    Tandem g (command call engine c vs) (command call' (across g engine) c (across g vs)) := by
  cases c with
  | container c => exact tandem_container c vs
  | definition c => exact tandem_definition c vs
  | inspection c => exact tandem_inspection c vs
  | dispatch c => exact tandem_dispatch calls engine c vs
  | telemetry c => exact tandem_telemetry c vs

end Dispatch

/-! ## Expressions -/

/-- A name that stands for no argument is looked up among the variables. -/
def lookUp (name : String) : Action Value := fun s =>
  match s.bindings.get? name with
  | some v => .ok v s
  | none => .error (.raised (.unboundVariable name)) s

theorem tandem_lookUp (name : String) : Tandem g (lookUp name) (lookUp name) := by
  intro s s' hs
  have found : s'.bindings.get? name = across g (s.bindings.get? name) := by
    rw [hs.bindings]
    exact OrderedMap.get?_mapValues (across g) s.bindings name
  unfold lookUp
  rw [found]
  cases s.bindings.get? name with
  | some v => exact .ok v hs
  | none => exact .error _ hs

theorem readVariable_of_ne {name : String} (hthis : name ≠ "this") (hother : name ≠ "other")
    (frame : Option Arguments) : readVariable frame name = lookUp name := by
  funext s
  unfold readVariable lookUp
  dsimp only
  split
  · rename_i v hv
    split at hv
    · exact absurd rfl hthis
    · exact absurd rfl hother
    · cases hv
  · rfl

theorem tandem_readVariable (frame : Option Arguments) (name : String) :
    Tandem g (readVariable frame name) (readVariable (across g frame) name) := by
  by_cases hthis : name = "this"
  · subst hthis
    cases frame with
    | none => exact tandem_lookUp "this"
    | some arguments => exact tandem_pure arguments.this
  · by_cases hother : name = "other"
    · subst hother
      obtain _ | ⟨this, _ | other⟩ := frame
      · exact tandem_lookUp "other"
      · exact tandem_lookUp "other"
      · exact tandem_pure other
    · rw [readVariable_of_ne hthis hother, readVariable_of_ne hthis hother]
      exact tandem_lookUp name

theorem tandem_attempt {body body' fallback fallback' : Action Value} (hb : Tandem g body body')
    (hf : Tandem g fallback fallback') :
    Tandem g (attempt body fallback) (attempt body' fallback') := by
  intro s s' hs
  unfold attempt
  rcases (hb s s' hs).elim with ⟨v, t, t', h, h', moved⟩ | ⟨e, t, t', h, h', moved⟩
  · rw [h, h']
    exact .ok v moved
  · rw [h, h']
    cases e with
    | raised fault => exact hf t t' moved
    | aborted text => exact .error _ moved
    | exhausted => exact .error _ moved

mutual

theorem tandem_evaluate {call call' : Function → Arguments → Action Value}
    (calls : Parallel g call call') (engine : Engine) (frame : Option Arguments) : ∀ e : Expr,
    Tandem g (evaluate call engine frame e)
      (evaluate call' (across g engine) (across g frame) e)
  | .literal p => tandem_pure (Value.primitive p)
  | .variable name => tandem_readVariable frame name
  | .assign name e =>
      tandem_bind (tandem_evaluate calls engine frame e) fun v =>
        tandem_bind (tandem_setVariable name v) fun _ => tandem_pure v
  | .handler label body =>
      tandem_bind tandem_freshNumber fun n => tandem_pure (Value.function ⟨n, label, body⟩)
  | .sequence es => by
      refine tandem_bind (tandem_evaluateAll calls engine frame es) fun vs => ?_
      rw [getLastD_across]
      exact tandem_pure _
  | .choose condition accept decline => by
      refine tandem_bind (tandem_evaluate calls engine frame condition) fun v =>
        tandem_heap_bind fun h h' moved => ?_
      rw [moved.truthy]
      split
      · exact tandem_evaluate calls engine frame accept
      · exact tandem_evaluate calls engine frame decline
  | .attempt body fallback =>
      tandem_attempt (tandem_evaluate calls engine frame body)
        (tandem_evaluate calls engine frame fallback)
  | .raise _ _ => tandem_raise _
  | .abort text => tandem_throw (.aborted text)
  | .trace e =>
      tandem_bind (tandem_evaluate calls engine frame e) fun v =>
        tandem_bind (tandem_sight v) fun _ => tandem_pure v
  | .span name keys attributes body => by
      refine tandem_bind (tandem_evaluateAll calls engine frame attributes) fun vs =>
        tandem_heap_bind fun h h' moved => ?_
      rw [entriesFrom_across, attributesFrom_across moved]
      exact tandem_ofExcept_same fun _ => tandem_spanned (tandem_evaluate calls engine frame body)
  | .call c operands =>
      tandem_bind (tandem_evaluateAll calls engine frame operands) fun vs =>
        tandem_command calls engine c vs

theorem tandem_evaluateAll {call call' : Function → Arguments → Action Value}
    (calls : Parallel g call call') (engine : Engine) (frame : Option Arguments) : ∀ es : List Expr,
    Tandem g (evaluateAll call engine frame es)
      (evaluateAll call' (across g engine) (across g frame) es)
  | [] => tandem_pure ([] : List Value)
  | e :: es =>
      tandem_bind (tandem_evaluate calls engine frame e) fun v =>
        tandem_bind (tandem_evaluateAll calls engine frame es) fun vs => tandem_pure (v :: vs)

end

/-! ## Calls -/

/-- However deep handlers call each other, they do the same on the two sides. -/
theorem parallel_callAt (g : Gap) (engine : Engine) :
    ∀ depth, Parallel g (callAt engine depth) (callAt (across g engine) depth)
  | 0 => fun _ _ => tandem_throw .exhausted
  | depth + 1 => fun f arguments =>
      tandem_evaluate (parallel_callAt g engine depth) engine (some arguments) f.body

end Action
end OperatorDispatch
