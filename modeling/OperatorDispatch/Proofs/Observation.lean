import OperatorDispatch.Proofs.Blindness
import OperatorDispatch.Proofs.Sharing

/-!
# Recording changes nothing

A dispatch writes to the ledger what its settings tell it to write, and the
answer does not depend on it.  Take two runs of one program whose dispatchers
differ in what they record.  As long as the program itself has nothing to do
with the ledger, the two go through alike states, step by step: they find the
same handlers, call them with the same arguments, and end the same way, be it
with a value, a fault or an abort.

Faults are the exception: one that has no text is replaced on its way out of a
span.  Where one run has spans and the other has none, the faults are the same
only once they have been told.

The collector could make a difference, since an increment that it refuses is
raised as a fault.  It is told of one series only, and refuses none of its
increments (`Ledger.enter_eq`); this is why alike states ask for ledgers that
count dispatches.

That handlers found on the way keep to the vocabulary of the program is known
from the steps of the first run (`runs_evaluate`), so the simulation is needed
for the second run only.
-/

namespace OperatorDispatch

/-- Everything that does not look at the ledger and does not write to it:
no spans, no counters, and no limit but that of new settings. -/
def Vocabulary.unrecorded : Vocabulary where
  commands
    | .telemetry (.configure _) | .telemetry (.readEnvironment _) | .telemetry .logs => true
    | .telemetry _ => false
    | _ => true
  spans := false

/-- A record whose sum asks for a field under a number that is too long to be
written out, so that there is no telling which key was missing. -/
def askingForLong : Expr :=
  .sequence [
    .assign "r" (.call (.definition (.record ["x"])) [.literal (.integer 1)]),
    .call (.definition (.override "add")) [.variable "r",
      .handler "asking" (.call (.container .get)
        [.variable "this", .literal (.integer (.ofNat (Nat.pow 10 4999)))])]]

/-! ## The ledger of such code -/

namespace Ledger

variable {l : Ledger}

theorem CountsDispatches.enter (hl : l.CountsDispatches) (r : DispatchRecord) :
    (l.enter r).1.CountsDispatches ∧ (l.enter r).2 = none := by
  obtain ⟨series, hseries, heq⟩ := enter_eq hl r
  rw [heq]
  exact ⟨⟨hseries, hl.admits⟩, rfl⟩

theorem CountsDispatches.withLimit (hl : l.CountsDispatches) (limit : Nat) :
    (l.withLimit limit).CountsDispatches :=
  ⟨hl.series, hl.admits⟩

end Ledger

theorem ReachableWithin.countsDispatches {s : State} (hs : ReachableWithin .unrecorded s)
    (admits : s.ledger.collector.AdmitsDispatches) : s.ledger.CountsDispatches := by
  refine invariant (P := fun s => s.ledger.CountsDispatches)
    (Ledger.countsDispatches_empty admits) ?_ hs
  intro s s' hstep hl
  cases hstep with
  | heap | bind | sight | log | takeRows | share | operators | number => exact hl
  | span allowed => cases allowed
  | increment allowed => cases allowed
  | reset allowed => cases allowed
  | limit => exact hl.withLimit _
  | settle => exact (hl.enter _).1

/-! ## Engines that record differently -/

/-- Settings that can be read from an environment, with a limit that the ledger
takes. -/
def Environment.Yields (environment : Environment) (settings : Settings) : Prop :=
  Settings.ofEnvironment environment = .ok settings ∧
    ∃ limit, checkLimit settings.ledgerLimit = .ok limit

/-- Engines that can differ in what they record, though not in whether there are
spans where this is to be the same, and in nothing else. -/
inductive Engine.Agree (spans : Prop) : Engine → Engine → Prop
  | own {settings settings' : Settings} (like : settings.Like spans settings') :
      Agree spans (.own settings) (.own settings')
  | shared {environment environment' : Environment} {settings settings' : Settings}
      (left : environment.Yields settings) (right : environment'.Yields settings')
      (same : spans → settings'.traceSpans = settings.traceSpans) :
      Agree spans (.shared environment) (.shared environment')

namespace Action

variable {α : Type} {spans : Prop} {s s' : State} {engine engine' : Engine}

theorem blind_setLimit (n : Int) : Blind spans (setLimit n) := by
  intro s s' hs
  cases h : checkLimit n with
  | ok limit =>
      rw [setLimit_ok h, setLimit_ok h]
      exact .ok () { hs with left := hs.left.withLimit limit, right := hs.right.withLimit limit }
  | error fault =>
      rw [setLimit_error h, setLimit_error h]
      exact .error (.refl _) hs

theorem blind_configure (settings : Settings) : Blind spans (configure settings) :=
  blind_bind (blind_setLimit _) fun _ => blind_setShared settings

theorem sharedSettings_none {environment : Environment} {settings : Settings}
    (h : s.shared = none) (yields : environment.Yields settings) :
    ∃ limit, sharedSettings environment s = .ok settings
      { s with ledger := s.ledger.withLimit limit, shared := some settings } := by
  obtain ⟨hread, limit, hlimit⟩ := yields
  exact ⟨limit, (sharedSettings_read h hread).trans (bind_ok (configure_ok hlimit s))⟩

/-- Engines that agree come by settings that are alike. -/
theorem EndAlike.settingsOf_bind {f f' : Settings → Action α} (agree : engine.Agree spans engine')
    (hs : s.Alike spans s')
    (hf : ∀ settings settings' t t', settingsOf engine s = .ok settings t →
      settings.Like spans settings' → t.Alike spans t' →
      EndAlike spans (f settings t) (f' settings' t')) :
    EndAlike spans ((settingsOf engine >>= f) s) ((settingsOf engine' >>= f') s') := by
  cases agree with
  | own like => exact hf _ _ s s' rfl like hs
  | @shared environment environment' settings settings' left right same =>
      have shared := hs.shared
      cases h : s.shared with
      | some found =>
          cases h' : s'.shared with
          | none => simp [h, h'] at shared
          | some found' =>
              have here : settingsOf (.shared environment) s = .ok found s :=
                sharedSettings_some h
              have there : settingsOf (.shared environment') s' = .ok found' s' :=
                sharedSettings_some h'
              rw [h, h'] at shared
              cases shared with
              | some like =>
                  rw [bind_ok here, bind_ok there]
                  exact hf found found' s s' here like hs
      | none =>
          cases h' : s'.shared with
          | some found' => simp [h, h'] at shared
          | none =>
              obtain ⟨limit, here⟩ := sharedSettings_none h left
              obtain ⟨limit', there⟩ := sharedSettings_none h' right
              rw [bind_ok (m := settingsOf (.shared environment)) here,
                bind_ok (m := settingsOf (.shared environment')) there]
              have sentinel := (sentinel_ofEnvironment right.1).trans
                (sentinel_ofEnvironment left.1).symm
              exact hf _ _ _ _ here ⟨sentinel, same⟩ { hs with
                shared := .some ⟨sentinel, same⟩
                left := hs.left.withLimit limit
                right := hs.right.withLimit limit' }

/-! ## Two runs side by side -/

/-- Alike states, of which the first one holds code of the vocabulary only. -/
structure Paired (spans : Prop) (engine : Engine) (s s' : State) : Prop where
  confined : (Scope.whole .unrecorded).Confines s
  engine : (Scope.whole .unrecorded).KnowsEngine s.heap engine
  alike : s.Alike spans s'

/-- A pair of runs goes on as a pair. -/
theorem Paired.next {t t' : State} (hp : Paired spans engine s s')
    (hsteps : (Scope.whole .unrecorded).Steps s t) (alike : t.Alike spans t') :
    Paired spans engine t t' :=
  ⟨Scope.Steps.confines hsteps hp.confined, hp.engine.later (Scope.Steps.later hsteps), alike⟩

/-- Two ways of calling handlers that end alike for code of the vocabulary. -/
def Mirrors (spans : Prop) (engine : Engine)
    (call call' : Function → Arguments → Action Value) : Prop :=
  ∀ (f : Function) (arguments : Arguments) (s s' : State), Paired spans engine s s' →
    f.body.within .unrecorded = true →
    (Scope.whole .unrecorded).KnowsArguments s.heap arguments →
    EndAlike spans (call f arguments s) (call' f arguments s')

variable {call call' : Function → Arguments → Action Value} {settings settings' : Settings}

/-! ## Dispatches -/

section Dispatch

variable (mirrors : Mirrors spans engine call call')

include mirrors

theorem endAlike_invoke {f : Function} {arguments : Arguments} (use : Use)
    (hp : Paired spans engine s s') (hf : f.body.within .unrecorded = true)
    (ha : (Scope.whole .unrecorded).KnowsArguments s.heap arguments) :
    EndAlike spans (invoke call f arguments use s) (invoke call' f arguments use s') := by
  have called := mirrors f arguments s s' hp hf ha
  cases use with
  | answer => exact called.bind fun v t t' _ ht => .ok _ ht
  | truth => exact called.bind fun v t t' _ ht => blind_heap_bind (fun _ => blind_pure _) t t' ht
  | receiver => exact called.bind fun v t t' _ ht => .ok _ ht
  | snapshot =>
      refine .heap_bind hp.alike (.demand_bind hp.alike ?_)
      rintro ⟨a, i⟩ hi
      obtain ⟨hthis, hi⟩ := Heap.instanceOf?_eq_some.mp hi
      refine (blind_snapshot i s s' hp.alike).bind fun b t t' hb ht => ?_
      obtain ⟨hsteps, -⟩ := (runs_snapshot hp.confined trivial hi).reached hb
      have known := ha.later (Scope.Steps.later hsteps)
      refine (mirrors f arguments t t' (hp.next hsteps ht) hf known).bind ?_
      exact fun _ u u' _ hu => .ok _ hu

theorem endAlike_perform (a : Application) {d : Decision} (hp : Paired spans engine s s')
    (like : settings.Like spans settings')
    (hd : (Scope.whole .unrecorded).KnowsDecision s.heap d) :
    EndAlike spans (perform call settings a d s) (perform call' settings' a d s') := by
  have carried : EndAlike spans (carryOut call settings a.operator d s)
      (carryOut call' settings' a.operator d s') := by
    cases d with
    | answer v outcome => exact .ok _ hp.alike
    | fail fault => exact .error (.refl _) hp.alike
    | invoke f arguments use => exact endAlike_invoke mirrors use hp hd.1 hd.2
    | fallBack fallback typeName =>
        refine (blind_log _ s s' hp.alike).bind fun _ t t' _ ht => ?_
        cases fallback with
        | sentinel =>
            show EndAlike spans (.ok (settings.sentinel, Outcome.default) t)
              (.ok (settings'.sentinel, Outcome.default) t')
            rw [like.sentinel]
            exact .ok _ ht
        | unequal => exact .ok _ ht
        | refuse => exact .error (.refl _) ht
  refine carried.bind ?_
  rintro ⟨v, outcome⟩ t t' - ht
  dsimp only
  split
  · exact .heap_bind ht (.ok _ ht)
  · exact .ok _ ht

omit mirrors in
/-- A dispatch closed in both runs, whatever is recorded of it. -/
theorem alike_close {r r' : DispatchRecord} (hs : s.Alike spans s')
    (same : r'.content = r.content) : (s.close r).Alike spans (s'.close r') := by
  refine { hs with dispatches := ?_, left := (hs.left.enter r).1, right := (hs.right.enter r').1 }
  show (s'.dispatches ++ [r']).map _ = (s.dispatches ++ [r]).map _
  rw [List.map_append, List.map_append, hs.dispatches, List.map_singleton, List.map_singleton, same]

omit mirrors in
/-- The collector has no objection in either run. -/
theorem endAlike_concluded {a : Application} {d : Decision} (ending ending' : DispatchEnding)
    {answer answer' : State → EStateM.Result Interruption State Value}
    (same : ending'.told = ending.told) (hs : s.Alike spans s')
    (answered : ∀ t t', t.Alike spans t' → EndAlike spans (answer t) (answer' t')) :
    EndAlike spans (concluded ⟨settings, a, d, ending⟩ answer s)
      (concluded ⟨settings', a, d, ending'⟩ answer' s') := by
  rw [concluded_of_accepted (hs.left.enter _).2, concluded_of_accepted (hs.right.enter _).2]
  refine answered _ _ (alike_close hs ?_)
  simp only [DispatchRecord.content, same]

/-- A dispatch ends the same way whatever is recorded of it. -/
theorem endAlike_apply {a : Application} (hp : Paired spans engine s s')
    (like : settings.Like spans settings')
    (ha : (Scope.whole .unrecorded).KnowsApplication s.heap a) :
    EndAlike spans (apply call settings a s) (apply call' settings' a s') := by
  have hd := hp.confined.heap.knows_decide ha
  have performed := endAlike_perform mirrors a hp like hd
  rw [apply_eq, apply_eq, hp.alike.heap]
  rcases performed.elim with ⟨⟨v, outcome⟩, t, t', h, h', ht⟩ | ⟨e, e', t, t', h, h', he, ht⟩
  · rw [h, h']
    exact endAlike_concluded (.returned outcome) (.returned outcome) rfl ht fun _ _ hu => .ok v hu
  · rw [h, h']
    cases he with
    | raised faults =>
        have told := like.told faults
        exact endAlike_concluded (.raised _) (.raised _) (congrArg DispatchEnding.raised told.told)
          ht fun _ _ hu => .error (.raised told) hu
    | aborted text =>
        exact endAlike_concluded .aborted .aborted rfl ht fun _ _ hu => .error (.aborted text) hu
    | exhausted => exact .error .exhausted ht

theorem endAlike_dispatchBinary {literal : String} {lhs rhs : Value} (hp : Paired spans engine s s')
    (like : settings.Like spans settings')
    (hl : (Scope.whole .unrecorded).Knows s.heap lhs)
    (hr : (Scope.whole .unrecorded).Knows s.heap rhs) :
    EndAlike spans (dispatchBinary call settings literal lhs rhs s)
      (dispatchBinary call' settings' literal lhs rhs s') := by
  refine .get_bind ?_
  rw [hp.alike.operators]
  refine .ofExcept_bind hp.alike fun a ha => ?_
  exact endAlike_apply mirrors hp like (Scope.knowsApplication_binary hl hr ha)

theorem endAlike_dispatchUnary {literal : String} {position : Option String} {operand : Value}
    (hp : Paired spans engine s s') (like : settings.Like spans settings')
    (hv : (Scope.whole .unrecorded).Knows s.heap operand) :
    EndAlike spans (dispatchUnary call settings literal position operand s)
      (dispatchUnary call' settings' literal position operand s') := by
  refine .get_bind ?_
  rw [hp.alike.operators]
  refine .ofExcept_bind hp.alike fun a ha => ?_
  exact endAlike_apply mirrors hp like (Scope.knowsApplication_unary hv ha)

theorem endAlike_dispatchAt {literal : String} {position : Position} {operand : Value}
    (hp : Paired spans engine s s') (like : settings.Like spans settings')
    (hv : (Scope.whole .unrecorded).Knows s.heap operand) :
    EndAlike spans (dispatchAt call settings literal position operand s)
      (dispatchAt call' settings' literal position operand s') := by
  refine .get_bind ?_
  rw [hp.alike.operators]
  refine .ofExcept_bind hp.alike fun o _ => .ofExcept_bind hp.alike fun a ha => ?_
  exact endAlike_apply mirrors hp like (Scope.knowsApplication_unaryAt hv ha)

end Dispatch

end Action

end OperatorDispatch
