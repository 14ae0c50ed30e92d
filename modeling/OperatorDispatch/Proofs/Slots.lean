import OperatorDispatch.Proofs.Sites

/-!
# Steps on slots

A step on a slot and a unary dispatch on its content decide the same question
twice.  On a value that could carry handlers the step is the dispatch.  On a
primitive the step makes the dispatch before the operand, whatever the position,
rebinds the slot and works the rest out by itself; so it never asks whether the
operator may stand behind its operand at all.

For operators that step the two agree all the same, since a native step gives
the same outcome on both sides of its operand (`apply_step_primitive`).  For the
others they do not: behind a primitive the dispatch refuses the operator, and
the slot is rebound (`update_agrees_iff`).
-/

namespace OperatorDispatch
namespace Action

variable {s t : State} {engine : Engine} {settings : Settings}
  {call : Function → Arguments → Action Value} {literal text : String} {p : Position}
  {a : Address} {v : Value} {q : Primitive}

/-! ## What the two come to -/

theorem serve_congr {request request' : Request}
    (same : request.application s.operators = request'.application s.operators) :
    serve call settings request s = serve call settings request' s := by
  cases accepted : request.application s.operators with
  | error fault => rw [serve_refused accepted, serve_refused (same.symm.trans accepted)]
  | ok a => rw [serve_accepted accepted, serve_accepted (same.symm.trans accepted)]

theorem readPosition_text (literal : String) (read : Position.ofText? (some text) = some p) :
    readPosition literal (some text) = .ok p := by
  simp only [readPosition, read]

/-- The text of a position is as good as the position. -/
theorem application_unary_text (tables : OperatorTables)
    (read : Position.ofText? (some text) = some p) :
    (Request.unary literal (some text) v).application tables =
      (Request.placed literal p v).application tables := by
  simp only [Request.application, Application.unary, readPosition_text literal read]
  cases tables.lookup .unary literal <;> rfl

theorem dispatch_unary_eq (call : Function → Arguments → Action Value) (literal : String)
    (v : Value) (set : settingsOf engine s = .ok settings t)
    (read : Position.ofText? (some text) = some p) :
    dispatch call engine (.unary literal (some text)) [v] s =
      serve call settings (.placed literal p v) t := by
  have made : (DispatchCommand.unary literal (some text)).request? [v] =
      some (.unary literal (some text) v) := rfl
  rw [dispatch_of_request? made, bind_ok set]
  exact serve_congr (application_unary_text _ read)

/-! ## Dispatches on primitives -/

theorem heap_ofExcept (r : Except Fault Value) (t : State) :
    finalState (ofExcept r t) = t := by
  cases r <;> rfl

/-- A primitive has no handlers, so nothing is done to the heap. -/
theorem alone_of_primitive (app : Application) (hthis : app.arguments.this = .primitive q)
    (settings : Settings) (h : Heap) :
    ∃ r, app.ending? settings h (app.decide h) = some r := by
  refine Application.exists_ending app settings h ?_
  cases called : (app.decide h).invokes with
  | false => rfl
  | true =>
      obtain ⟨f, use, decided⟩ := Application.exists_handler_of_invokes called
      obtain ⟨x, i, hx, -⟩ := Application.exists_instance_of_decide decided
      rw [hthis] at hx
      cases hx

theorem arguments_of_unaryAt {o : Operator} {app : Application}
    (accepted : Application.unaryAt o literal p v = .ok app) : app.arguments = ⟨v, none⟩ := by
  unfold Application.unaryAt at accepted
  split at accepted <;> cases accepted <;> rfl

/-- Behind its operand a native step gives the operand, and all else is as
before it, the record of the dispatch apart. -/
inductive StepsAlike (q : Primitive) : EStateM.Result Interruption State Value →
    EStateM.Result Interruption State Value → Prop
  | ok {w : Value} {u u' : State} (same : u' = { u with dispatches := u'.dispatches }) :
      StepsAlike q (.ok w u) (.ok (.primitive q) u')
  | error {e : Interruption} {u u' : State} (same : u' = { u with dispatches := u'.dispatches }) :
      StepsAlike q (.error e u) (.error e u')

/-- Records that tell of one operator and one ending are entered alike. -/
theorem stepsAlike_settled {o : Operator} {form form' : Form} {d d' : Decision}
    {ending : DispatchEnding} {answer answer' : Except Fault Value}
    (rows : (⟨settings, ⟨o, form'⟩, d', ending⟩ : DispatchRecord).rows =
      (⟨settings, ⟨o, form⟩, d, ending⟩ : DispatchRecord).rows)
    (answers : (∃ w, answer = .ok w ∧ answer' = .ok (.primitive q)) ∨
      ∃ fault, answer = .error fault ∧ answer' = .error fault) :
    StepsAlike q
      (ofExcept (upheld t.ledger ⟨settings, ⟨o, form⟩, d, ending⟩ answer)
        (t.settle ⟨settings, ⟨o, form⟩, d, ending⟩))
      (ofExcept (upheld t.ledger ⟨settings, ⟨o, form'⟩, d', ending⟩ answer')
        (t.settle ⟨settings, ⟨o, form'⟩, d', ending⟩)) := by
  have entered : t.ledger.enter ⟨settings, ⟨o, form'⟩, d', ending⟩ =
      t.ledger.enter ⟨settings, ⟨o, form⟩, d, ending⟩ := rfl
  have same : ∃ dispatches, t.settle ⟨settings, ⟨o, form'⟩, d', ending⟩ =
      { t.settle ⟨settings, ⟨o, form⟩, d, ending⟩ with dispatches } := by
    refine ⟨(t.settle ⟨settings, ⟨o, form'⟩, d', ending⟩).dispatches, ?_⟩
    simp only [State.settle, rows, entered]
  obtain ⟨dispatches, same⟩ := same
  unfold upheld
  rw [entered, same]
  cases (t.ledger.enter ⟨settings, ⟨o, form⟩, d, ending⟩).2 with
  | some refusal => exact .error rfl
  | none =>
      rcases answers with ⟨w, rfl, rfl⟩ | ⟨fault, rfl, rfl⟩
      · exact .ok rfl
      · exact .error rfl

/-- An operator that steps does not fall back to a value. -/
theorem exists_fault_of_error {o : Operator} (mutating : o.isMutating = true) (settings : Settings)
    (h : Heap) (typeName : String) (e : NativeFault) :
    ∃ fault, ∀ form result, (⟨o, form⟩ : Application).ending? settings h
      (Decision.ofNative o.category typeName result (.error e)) = some (.error fault) := by
  have category : o.category = .unaryArithmetic := by
    unfold Operator.isMutating Selector.isMutating at mutating
    unfold Operator.category
    split at mutating
    · rename_i sel
      rw [sel]
      rfl
    · rename_i sel
      rw [sel]
      rfl
    · cases mutating
  cases e with
  | incompatible why =>
      refine ⟨.operatorNotDefined o.category o.literal typeName, fun form result => ?_⟩
      simp only [Decision.ofNative, category, Category.primitiveFallback, Application.ending?]
  | integerTooLarge | infiniteDividend | tooManyDigits | endlessText | noOperation =>
      exact ⟨.native _, fun _ _ => rfl⟩

theorem apply_step_primitive {o : Operator} (mutating : o.isMutating = true) :
    StepsAlike q (apply call settings ⟨o, .step (.primitive q) false⟩ t)
      (apply call settings ⟨o, .step (.primitive q) true⟩ t) := by
  have decided : ∀ after, (⟨o, .step (.primitive q) after⟩ : Application).decide t.heap =
      Decision.ofNative o.category q.kind.name (stepNative after (.primitive q))
        (Native.unary o.selector q) := fun _ => rfl
  cases native : Native.unary o.selector q with
  | ok w =>
      have ending : ∀ after,
          (⟨o, .step (.primitive q) after⟩ : Application).ending? settings t.heap
            ((⟨o, .step (.primitive q) after⟩ : Application).decide t.heap) =
          some (.ok (.primitive (stepNative after (.primitive q) w), .native)) := by
        intro after
        rw [decided, native]
        rfl
      rw [apply_alone (ending false), apply_alone (ending true), decided, decided, native]
      exact stepsAlike_settled rfl (.inl ⟨_, rfl, rfl⟩)
  | error e =>
      obtain ⟨fault, ending⟩ := exists_fault_of_error mutating settings t.heap q.kind.name e
      have ending' : ∀ after,
          (⟨o, .step (.primitive q) after⟩ : Application).ending? settings t.heap
            ((⟨o, .step (.primitive q) after⟩ : Application).decide t.heap) =
          some (.error fault) := by
        intro after
        rw [decided, native]
        exact ending _ _
      rw [apply_alone (ending' false), apply_alone (ending' true), decided, decided, native]
      refine stepsAlike_settled ?_ (.inr ⟨_, rfl, rfl⟩)
      -- what the step would give back does not show in a failure
      cases e <;> rfl

/-! ## Agreement -/

/-- What is left of a heap by work on a value: everything is as it was, or as a
handler of the value left it.  The handler found everything as it was. -/
inductive LeftBy (call : Function → Arguments → Action Value) (h : Heap) (v : Value) :
    Heap → Prop
  | untouched : LeftBy call h v h
  | handled {f : Function} {sel : Selector} {t : State}
      (found : h.resolve (h.classify v) sel = some f)
      (start : ∀ x, x.index < h.size → t.heap.get? x = h.get? x) :
      LeftBy call h v (finalState (call f ⟨v, none⟩ t)).heap

/-- A step on a slot agrees with the unary dispatch on the content. -/
inductive UpdateAgrees (call : Function → Arguments → Action Value) (engine : Engine) (s : State)
    (a : Address) (v : Value) (literal text : String) : Prop
  /-- Both raise the same, and the slot is not rebound. -/
  | raises {e : Interruption} {t t' : State}
      (updated : update call engine a literal (some text) s = .error e t)
      (dispatched : dispatch call engine (.unary literal (some text)) [v] s = .error e t')
      (left : LeftBy call s.heap v t.heap)
  /-- On a primitive both give the same, and the slot is rebound to what the
  token gives before its operand. -/
  | rebinds {q : Primitive} {result stepped : Value} {t t' t'' : State}
      (content : v = .primitive q)
      (updated : update call engine a literal (some text) s = .ok result t)
      (dispatched : dispatch call engine (.unary literal (some text)) [v] s = .ok result t')
      (before : dispatch call engine (.unary literal (some "prefix")) [v] s = .ok stepped t'')
      (rebound : t.heap = s.heap.update a (.cell stepped))
  /-- On any other value both give the same, and the slot is not rebound. -/
  | keeps {result : Value} {t : State} (content : ∀ q, v ≠ .primitive q)
      (updated : update call engine a literal (some text) s = .ok result t)
      (dispatched : dispatch call engine (.unary literal (some text)) [v] s = .ok result t)
      (left : LeftBy call s.heap v t.heap)

/-- An operator that does not step stands behind a primitive. -/
structure Misplaced (engine : Engine) (s : State) (v : Value) (literal text : String) : Prop where
  behind : text = "postfix"
  primitive : ∃ q, v = .primitive q
  settings : ∃ settings t, settingsOf engine s = .ok settings t
  operator : ∃ o, s.operators.lookup .unary literal = .ok o ∧ o.isMutating = false

/-- On a covered heap a unary dispatch leaves behind what its handler does. -/
theorem leftBy_serve {V : Vocabulary} (call : Function → Arguments → Action Value)
    (settings : Settings) (literal : String) (p : Position) (v : Value)
    (hc : (Scope.whole V).Covers t.heap) :
    LeftBy call t.heap v (finalState (serve call settings (.placed literal p v) t)).heap := by
  cases accepted : (Request.placed literal p v).application t.operators with
  | error fault =>
      rw [serve_refused accepted]
      exact .untouched
  | ok app =>
      have operands : app.arguments = ⟨v, none⟩ := by
        simp only [Request.application] at accepted
        split at accepted
        · exact arguments_of_unaryAt accepted
        · cases accepted
      cases called : (app.decide t.heap).invokes with
      | false =>
          obtain ⟨r, hr⟩ := Application.exists_ending app settings t.heap called
          rw [serve_accepted accepted, apply_alone hr, heap_ofExcept]
          exact .untouched
      | true =>
          obtain ⟨f, use, decided⟩ := Application.exists_handler_of_invokes called
          obtain ⟨sel, found⟩ := Application.found_of_decide decided
          have start : ∀ x, x.index < t.heap.size →
              (t.kept app.arguments use).2.heap.get? x = t.heap.get? x :=
            fun x hx => get?_kept t app.arguments use hx
          rw [heap_consulting accepted decided (keep_eq hc decided)]
          rw [operands] at found start ⊢
          exact .handled found start

/-- Nothing is left behind by work on a primitive. -/
theorem LeftBy.eq_of_primitive {h h' : Heap} (left : LeftBy call h (.primitive q) h') : h' = h := by
  cases left with
  | untouched => rfl
  | handled found start => cases found

section Agreement

variable (set : settingsOf engine s = .ok settings t) (covers : (Scope.whole .full).Covers s.heap)
  (read : Position.ofText? (some text) = some p) (placed : p ≠ .unspecified)

include set covers read placed

theorem agrees_of_other (content : s.heap.cellAt? a = some v) (other : ∀ q, v ≠ .primitive q) :
    UpdateAgrees call engine s a v literal text := by
  have here := heap_settingsOf set
  have updated : update call engine a literal (some text) s =
      serve call settings (.placed literal p v) t :=
    (update_eq set (readPosition_text literal read) placed).trans (step_other (by rwa [here]) other)
  have dispatched := dispatch_unary_eq call literal v set read
  have left := leftBy_serve (t := t) call settings literal p v (by rwa [here])
  cases served : serve call settings (.placed literal p v) t with
  | ok result u =>
      rw [served] at updated dispatched left
      exact .keeps other updated dispatched (here ▸ left)
  | error e u =>
      rw [served] at updated dispatched left
      exact .raises updated dispatched (here ▸ left)

/-- On a primitive all depends on how the dispatch at the position compares to
the one before the operand. -/
theorem agrees_of_primitive (content : s.heap.cellAt? a = some (.primitive q))
    (answers : ∀ stepped u,
      serve call settings (.placed literal .before (.primitive q)) t = .ok stepped u →
        ∃ u', serve call settings (.placed literal p (.primitive q)) t =
          .ok (if p = .after then .primitive q else stepped) u')
    (fails : ∀ e u,
      serve call settings (.placed literal .before (.primitive q)) t = .error e u →
        ∃ u', serve call settings (.placed literal p (.primitive q)) t = .error e u') :
    UpdateAgrees call engine s a (.primitive q) literal text := by
  have here := heap_settingsOf set
  have updated : update call engine a literal (some text) s =
      (serve call settings (.placed literal .before (.primitive q)) >>= rebinding a q p) t :=
    (update_eq set (readPosition_text literal read) placed).trans (step_primitive (by rwa [here]))
  have dispatched := dispatch_unary_eq call literal (.primitive q) set read
  have before : dispatch call engine (.unary literal (some "prefix")) [.primitive q] s = _ :=
    dispatch_unary_eq call literal (.primitive q) set rfl
  have left := leftBy_serve (t := t) call settings literal .before (.primitive q) (by rwa [here])
  cases served : serve call settings (.placed literal .before (.primitive q)) t with
  | ok stepped u =>
      obtain ⟨u', hu'⟩ := answers stepped u served
      rw [served] at before left
      rw [bind_ok served] at updated
      refine .rebinds rfl updated (dispatched.trans hu') before ?_
      have same : u.heap = t.heap := left.eq_of_primitive
      show u.heap.update a _ = _
      rw [same, here]
  | error e u =>
      obtain ⟨u', hu'⟩ := fails e u served
      rw [served] at left
      rw [bind_error served] at updated
      exact .raises updated (dispatched.trans hu') (here ▸ left)

end Agreement

/-! ## Where the two part -/

/-- Work that is accepted does not end in a refusal of the token. -/
theorem upheld_ne_unknownOperator {app : Application} {h : Heap}
    {r : Except Fault (Value × Outcome)}
    (hr : app.ending? settings h (app.decide h) = some r) (l : Ledger) (record : DispatchRecord)
    (literal : String) (arity : Arity) (cause : Malformation) :
    upheld l record (r.map Prod.fst) ≠ .error (.unknownOperator literal arity cause) := by
  intro refused
  unfold upheld at refused
  split at refused
  · generalize app.decide h = d at hr
    cases d with
    | answer | fail =>
        cases hr
        cases refused
    | fallBack fallback typeName => cases fallback <;> cases hr <;> cases refused
    | invoke => cases hr
  · rename_i refusal _
    cases refusal <;> cases refused

/-- Behind a primitive, an operator that does not step is refused by the
dispatch.  The step on the slot does not come to refuse it. -/
theorem not_agrees_of_misplaced {o : Operator} (set : settingsOf engine s = .ok settings t)
    (content : s.heap.cellAt? a = some (.primitive q))
    (found : t.operators.lookup .unary literal = .ok o) (plain : o.isMutating = false) :
    ¬ UpdateAgrees call engine s a (.primitive q) literal "postfix" := by
  have here := heap_settingsOf set
  have application : ∀ p, (Request.placed literal p (.primitive q)).application t.operators =
      Application.unaryAt o literal p (.primitive q) := by
    intro p
    simp only [Request.application, found]
  have behind : (Request.placed literal .after (.primitive q)).application t.operators =
      .error (.unknownOperator literal .unary .noPostfixForm) := by
    rw [application]
    simp only [Application.unaryAt, plain]
  have accepted : (Request.placed literal .before (.primitive q)).application t.operators =
      .ok ⟨o, .unary (.primitive q)⟩ := by
    rw [application]
    simp only [Application.unaryAt, plain]
  have dispatched : dispatch call engine (.unary literal (some "postfix")) [.primitive q] s = _ :=
    (dispatch_unary_eq call literal (.primitive q) set rfl).trans (serve_refused behind)
  have updated : update call engine a literal (some "postfix") s =
      (serve call settings (.placed literal .before (.primitive q)) >>= rebinding a q .after) t :=
    (update_eq set (readPosition_text literal rfl) (by decide)).trans
      (step_primitive (by rwa [here]))
  obtain ⟨r, hr⟩ := alone_of_primitive ⟨o, .unary (.primitive q)⟩ rfl settings t.heap
  have served : serve call settings (.placed literal .before (.primitive q)) t = _ :=
    (serve_accepted accepted).trans (apply_alone hr)
  intro agrees
  cases agrees with
  | raises updated' dispatched' left =>
      rw [dispatched] at dispatched'
      cases dispatched'
      have accepts := upheld_ne_unknownOperator hr t.ledger
        ⟨settings, ⟨o, .unary (.primitive q)⟩,
          (⟨o, .unary (.primitive q)⟩ : Application).decide t.heap, .ofExcept r⟩
        literal .unary .noPostfixForm
      generalize upheld t.ledger _ (r.map Prod.fst) = outcome at served accepts
      rw [updated] at updated'
      cases outcome with
      | ok stepped =>
          rw [bind_ok served] at updated'
          cases updated'
      | error fault =>
          rw [bind_error served] at updated'
          cases updated'
          exact accepts rfl
  | rebinds content updated' dispatched' before rebound =>
      rw [dispatched] at dispatched'
      cases dispatched'
  | keeps other updated' dispatched' left => exact other q rfl

/-- Without settings neither does anything. -/
theorem agrees_of_unset {e : Interruption} (set : settingsOf engine s = .error e t) :
    UpdateAgrees call engine s a v literal text := by
  have made : (DispatchCommand.unary literal (some text)).request? [v] =
      some (.unary literal (some text) v) := rfl
  have dispatched : dispatch call engine (.unary literal (some text)) [v] s = .error e t := by
    rw [dispatch_of_request? made]
    exact bind_error set
  have left : LeftBy call s.heap v t.heap := by
    obtain ⟨ledger, shared, rfl⟩ := settingsOf_error set
    exact .untouched
  exact .raises (bind_error set) dispatched left

/-- Before a primitive the two are one. -/
theorem agrees_before (set : settingsOf engine s = .ok settings t)
    (covers : (Scope.whole .full).Covers s.heap)
    (content : s.heap.cellAt? a = some (.primitive q)) :
    UpdateAgrees call engine s a (.primitive q) literal "prefix" :=
  agrees_of_primitive set covers rfl (by decide) content
    (fun _ u served => ⟨u, served⟩) fun _ u served => ⟨u, served⟩

/-- Behind a primitive the two agree on operators that step, and on those that
are not there. -/
theorem agrees_behind (set : settingsOf engine s = .ok settings t)
    (covers : (Scope.whole .full).Covers s.heap)
    (content : s.heap.cellAt? a = some (.primitive q))
    (steps : ∀ o, t.operators.lookup .unary literal = .ok o → o.isMutating = true) :
    UpdateAgrees call engine s a (.primitive q) literal "postfix" := by
  have alike : StepsAlike q (serve call settings (.placed literal .before (.primitive q)) t)
      (serve call settings (.placed literal .after (.primitive q)) t) := by
    cases found : t.operators.lookup .unary literal with
    | error fault =>
        have refused : ∀ p, (Request.placed literal p (.primitive q)).application t.operators =
            .error fault := by
          intro p
          simp only [Request.application, found]
        rw [serve_refused (refused .before), serve_refused (refused .after)]
        exact .error rfl
    | ok o =>
        have mutating := steps o found
        have before : (Request.placed literal .before (.primitive q)).application t.operators =
            .ok ⟨o, .step (.primitive q) false⟩ := by
          simp only [Request.application, found, Application.unaryAt, mutating]
        have after : (Request.placed literal .after (.primitive q)).application t.operators =
            .ok ⟨o, .step (.primitive q) true⟩ := by
          simp only [Request.application, found, Application.unaryAt, mutating]
        rw [serve_accepted before, serve_accepted after]
        exact apply_step_primitive mutating
  generalize hbehind : serve call settings (.placed literal .after (.primitive q)) t = behind
    at alike
  refine agrees_of_primitive set covers rfl (by decide) content ?_ ?_
  · intro stepped u served
    rw [served] at alike
    cases alike with
    | @ok _ _ u' same => exact ⟨u', hbehind⟩
  · intro e u served
    rw [served] at alike
    cases alike with
    | @error _ _ u' same => exact ⟨u', hbehind⟩

/-- A step on a slot agrees with the unary dispatch on its content, unless an
operator that does not step stands behind a primitive. -/
theorem update_agrees_iff (hs : Reachable s) (call : Function → Arguments → Action Value)
    (engine : Engine) (literal : String) (asked : text ∈ ["prefix", "postfix"])
    (content : s.heap.cellAt? a = some v) :
    UpdateAgrees call engine s a v literal text ↔ ¬ Misplaced engine s v literal text := by
  have covers := hs.confines.heap
  cases set : settingsOf engine s with
  | error e t =>
      refine iff_of_true (agrees_of_unset set) fun misplaced => ?_
      obtain ⟨settings, t', set'⟩ := misplaced.settings
      rw [set] at set'
      cases set'
  | ok settings t =>
      have operators : t.operators = s.operators := by
        obtain ⟨ledger, shared, rfl⟩ := settingsOf_ok set
        rfl
      obtain ⟨p, read, placed⟩ : ∃ p, Position.ofText? (some text) = some p ∧ p ≠ .unspecified := by
        simp only [List.mem_cons, List.not_mem_nil, or_false] at asked
        rcases asked with rfl | rfl
        · exact ⟨.before, rfl, nofun⟩
        · exact ⟨.after, rfl, nofun⟩
      by_cases primitive : ∃ q, v = .primitive q
      · obtain ⟨q, rfl⟩ := primitive
        simp only [List.mem_cons, List.not_mem_nil, or_false] at asked
        rcases asked with rfl | rfl
        · refine iff_of_true (agrees_before set covers content) fun misplaced => ?_
          exact absurd misplaced.behind (by decide)
        · refine ⟨fun agrees misplaced => ?_, fun placed => ?_⟩
          · obtain ⟨o, found, plain⟩ := misplaced.operator
            exact not_agrees_of_misplaced set content (operators ▸ found) plain agrees
          · refine agrees_behind set covers content fun o found => ?_
            by_contra plain
            exact placed ⟨rfl, ⟨q, rfl⟩, ⟨settings, t, set⟩, o, operators ▸ found,
              Bool.eq_false_iff.mpr plain⟩
      · have other : ∀ q, v ≠ .primitive q := fun q hq => primitive ⟨q, hq⟩
        refine iff_of_true (agrees_of_other set covers read placed content other) ?_
        exact fun misplaced => primitive misplaced.primitive

/-- A cell with a number in it. -/
def two : Expr :=
  .call (.container .newCell) [.literal (.integer 2)]

theorem cellAt?_two : (State.after 0 two).heap.cellAt? ⟨0⟩ = some (.integer 2) := rfl

/-- The two agree on `++` behind the number, and part on `-`. -/
theorem update_agrees_iff_two :
    UpdateAgrees (callAt (.own .standard) 0) (.own .standard) (.after 0 two) ⟨0⟩ (.integer 2)
        "++" "postfix" ∧
      ¬ UpdateAgrees (callAt (.own .standard) 0) (.own .standard) (.after 0 two) ⟨0⟩ (.integer 2)
        "-" "postfix" := by
  have reachable : Reachable (State.after 0 two) := reachable_after 0 (Expr.within_full _)
  have behind : "postfix" ∈ ["prefix", "postfix"] := by decide
  have agrees := fun literal =>
    update_agrees_iff reachable (callAt (.own .standard) 0) (.own .standard) literal behind
      cellAt?_two
  have found : ∀ {literal o}, OperatorTables.standard.find? .unary literal = some o →
      (State.after 0 two).operators.lookup .unary literal = .ok o :=
    fun ho => OperatorTables.lookup_of_find? (reachable.find?_operators ho)
  refine ⟨(agrees "++").mpr fun misplaced => ?_, fun alike => (agrees "-").mp alike ?_⟩
  · obtain ⟨o, ho, plain⟩ := misplaced.operator
    rw [found rfl] at ho
    cases ho
    cases plain
  · exact ⟨rfl, ⟨_, rfl⟩, ⟨_, _, rfl⟩, _, found rfl, rfl⟩

/-- A number goes through `-` behind it and its slot is rebound, where the
dispatch refuses the token. -/
theorem update_rebinds_refused :
    ∃ t, update (callAt (.own .standard) 0) (.own .standard) ⟨0⟩ "-" (some "postfix")
        (.after 0 two) = .ok (.integer 2) t ∧
      t.heap.cellAt? ⟨0⟩ = some (.integer (-2)) ∧
      dispatch (callAt (.own .standard) 0) (.own .standard) (.unary "-" (some "postfix"))
          [.integer 2] (.after 0 two) =
        .error (.raised (.unknownOperator "-" .unary .noPostfixForm)) (.after 0 two) :=
  ⟨_, rfl, rfl, rfl⟩

end Action
end OperatorDispatch
