import OperatorDispatch.Proofs.Bookkeeping
import OperatorDispatch.Proofs.Slots

/-!
# Malformed requests

A request is malformed for its token, for the text of its position, or because the
operator does not stand there.  `Request.Malformed` says so of the request alone;
the checks that come to it are spread over the reading of the token, the reading
of the position and the operator, and `malformed_iff` brings them together.

A malformed request is refused, and that is all: whatever handlers there are, none
is called and the state stays.  Any other request is served under observation, once
(`State.ObservedOnce`): on what its handler left, if it has one, there come one
record, one entry in the ledger and the row of a fallback.  So a refusal can be told
from an unknown operator that a handler runs into: the latter is on record.
-/

namespace OperatorDispatch

/-! ## Malformed requests -/

/-- No operator of the arity has the token. -/
def OperatorTables.Lacks (t : OperatorTables) (arity : Arity) (literal : String) : Prop :=
  ∀ o ∈ t.table arity, o.literal ≠ literal

namespace Request

/-- The request is no application of an operator.  A step has to stand before or
behind its operand, and no other unary operator may stand behind it. -/
def Malformed (t : OperatorTables) : Request → Prop
  | .binary literal _ _ => t.Lacks .binary literal
  | .unary literal position _ =>
    t.Lacks .unary literal ∨
      (∃ text, position = some text ∧ text ∉ ["prefix", "postfix", "none"]) ∨
      ∃ o, t.find? .unary literal = some o ∧
        (o.isMutating = true ∧ position ∈ [none, some "none"] ∨
          o.isMutating = false ∧ position = some "postfix")
  | .placed literal position _ =>
    t.Lacks .unary literal ∨
      ∃ o, t.find? .unary literal = some o ∧
        (o.isMutating = true ∧ position = .unspecified ∨
          o.isMutating = false ∧ position = .after)

end Request

variable {t : OperatorTables} {request : Request} {literal : String} {o : Operator}

namespace OperatorTables

theorem find?_eq_none_iff {arity : Arity} :
    t.find? arity literal = none ↔ t.Lacks arity literal := by
  simp [find?, Lacks]

theorem lookup_of_lacks {arity : Arity} (h : t.Lacks arity literal) :
    t.lookup arity literal = .error (.unknownOperator literal arity .unknownToken) := by
  rw [lookup, find?_eq_none_iff.mpr h]

theorem not_lacks_of_find? {arity : Arity} (found : t.find? arity literal = some o) :
    ¬ t.Lacks arity literal := by
  rw [← find?_eq_none_iff, found]
  exact nofun

end OperatorTables

/-- The three texts are the ones that name a position. -/
theorem Position.ofText?_eq_none_iff {position : Option String} :
    Position.ofText? position = none ↔
      ∃ text, position = some text ∧ text ∉ ["prefix", "postfix", "none"] := by
  unfold ofText?
  split <;> simp_all

namespace Application

/-- An operator with an operand is refused where it does not stand. -/
theorem unaryAt_refused_iff {p : Position} {operand : Value} :
    (∃ fault, unaryAt o literal p operand = .error fault) ↔
      o.isMutating = true ∧ p = .unspecified ∨ o.isMutating = false ∧ p = .after := by
  unfold unaryAt
  cases o.isMutating <;> cases p <;> simp

end Application

namespace Request

/-- What is malformed is what is refused. -/
theorem malformed_iff : request.Malformed t ↔ ∃ fault, request.application t = .error fault := by
  cases request with
  | binary literal lhs rhs =>
      cases found : t.find? .binary literal with
      | none =>
          have lacks := OperatorTables.find?_eq_none_iff.mp found
          refine iff_of_true lacks ⟨.unknownOperator literal .binary .unknownToken, ?_⟩
          simp only [application, Application.binary, OperatorTables.lookup_of_lacks lacks]
      | some o =>
          refine iff_of_false (OperatorTables.not_lacks_of_find? found) ?_
          simp [application, Application.binary, OperatorTables.lookup_of_find? found]
  | unary literal position operand =>
      cases found : t.find? .unary literal with
      | none =>
          have lacks := OperatorTables.find?_eq_none_iff.mp found
          refine iff_of_true (.inl lacks) ⟨.unknownOperator literal .unary .unknownToken, ?_⟩
          simp only [application, Application.unary, OperatorTables.lookup_of_lacks lacks]
      | some o =>
          have known := OperatorTables.lookup_of_find? found
          simp only [Malformed, OperatorTables.not_lacks_of_find? found, found, false_or,
            Option.some.injEq, exists_eq_left']
          cases read : Position.ofText? position with
          | none =>
              refine iff_of_true (.inl (Position.ofText?_eq_none_iff.mp read)) ?_
              simp [application, Application.unary, known, readPosition, read]
          | some p =>
              have strange : ¬ ∃ text, position = some text ∧
                  text ∉ ["prefix", "postfix", "none"] := by
                rw [← Position.ofText?_eq_none_iff, read]
                exact Option.some_ne_none p
              have placed : (Request.unary literal position operand).application t =
                  Application.unaryAt o literal p operand := by
                simp only [application, Application.unary, known, readPosition, read]
              rw [placed, Application.unaryAt_refused_iff, or_iff_right strange]
              unfold Position.ofText? at read
              split at read <;> cases read <;> simp
  | placed literal position operand =>
      cases found : t.find? .unary literal with
      | none =>
          have lacks := OperatorTables.find?_eq_none_iff.mp found
          refine iff_of_true (.inl lacks) ⟨.unknownOperator literal .unary .unknownToken, ?_⟩
          simp only [application, OperatorTables.lookup_of_lacks lacks]
      | some o =>
          simp only [Malformed, OperatorTables.not_lacks_of_find? found, found, false_or,
            Option.some.injEq, exists_eq_left', application, OperatorTables.lookup_of_find? found]
          exact Application.unaryAt_refused_iff.symm

/-- The token is looked at first. -/
theorem application_of_lacks (h : t.Lacks request.arity request.literal) :
    request.application t =
      .error (.unknownOperator request.literal request.arity .unknownToken) := by
  have missing := OperatorTables.lookup_of_lacks h
  cases request with
  | binary literal lhs rhs =>
      have missing : t.lookup .binary literal = _ := missing
      simp only [application, Application.binary, missing]
  | unary literal position operand =>
      have missing : t.lookup .unary literal = _ := missing
      simp only [application, Application.unary, missing]
  | placed literal position operand =>
      have missing : t.lookup .unary literal = _ := missing
      simp only [application, missing]

end Request

/-! ## Refused or observed -/

/-- The request is refused with the fault, whatever handlers would do: none is
called, and the state stays as it is. -/
def State.Refuses (s : State) (settings : Settings) (request : Request) (fault : Fault) : Prop :=
  ∀ call, Action.serve call settings request s = .error (.raised fault) s

/-- The dispatcher raises an unknown operator by itself: there is one whatever
handlers do. -/
def State.RaisesUnknown (s : State) (settings : Settings) (request : Request) : Prop :=
  ∃ literal arity cause, ∀ call, ∃ t,
    Action.serve call settings request s = .error (.raised (.unknownOperator literal arity cause)) t

/-- What is left before a dispatch is observed: all as it was, or what one handler
made of it, which is called at most after a snapshot. -/
inductive State.Works (s : State) (call : Function → Arguments → Action Value) : State → Prop
  | alone : Works s call s
  | consulted (f : Function) (passed : Arguments) (use : Use) :
      Works s call (Action.finalState (call f passed (s.kept passed use).2))

/-- The request is served under observation, once: on what the work left come one
record, one entry in the ledger and the rows of the record. -/
def State.ObservedOnce (s : State) (settings : Settings) (request : Request) : Prop :=
  ∀ call, ∃ worked, s.Works call worked ∧
    (Action.serve call settings request s = .error .exhausted worked ∨
      ∃ r : DispatchRecord, r.settings = settings ∧ r.literal = request.literal ∧
        Action.finalState (Action.serve call settings request s) = worked.settle r)

/-- What becomes of a request. -/
structure State.Validates (s : State) (settings : Settings) (request : Request) : Prop where
  raises_iff : s.RaisesUnknown settings request ↔ request.Malformed s.operators
  refused : request.Malformed s.operators →
    ∃ cause, s.Refuses settings request (.unknownOperator request.literal request.arity cause)
  /-- Where the token is unknown nothing else is reported. -/
  unknownToken : s.operators.Lacks request.arity request.literal →
    s.Refuses settings request (.unknownOperator request.literal request.arity .unknownToken)
  observed : ¬ request.Malformed s.operators → s.ObservedOnce settings request

namespace Action

variable {s : State} {settings : Settings} {a : Application} {f : Function} {use : Use}

/-- A handler that is cut short leaves nothing to observe; any other is followed by
the closing of its dispatch. -/
theorem finalState_consulting {passed : Arguments} {kept : Value}
    (result : EStateM.Result Interruption State Value) :
    (∃ t, result = .error .exhausted t ∧
        conclusion settings a (.invoke f passed use) (responded a use kept result) =
          .error .exhausted t) ∨
      ∃ r : DispatchRecord, r.settings = settings ∧ r.application = a ∧
        finalState (conclusion settings a (.invoke f passed use) (responded a use kept result)) =
          (finalState result).settle r := by
  have settled : ∀ (ending : DispatchEnding) (t : State)
      {answer : State → EStateM.Result Interruption State Value},
      (∀ t, finalState (answer t) = t) →
      finalState (concluded ⟨settings, a, .invoke f passed use, ending⟩ answer t) =
        t.settle ⟨settings, a, .invoke f passed use, ending⟩ := by
    intro ending t answer h
    rw [finalState_concluded _ h, State.close_eq_settle rfl]
  cases result with
  | ok v t => exact .inr ⟨_, rfl, rfl, settled (.returned use.outcome) t fun _ => rfl⟩
  | error e t =>
      cases e with
      | raised fault =>
          exact .inr ⟨_, rfl, rfl, settled (.raised (settings.told fault)) t fun _ => rfl⟩
      | aborted text => exact .inr ⟨_, rfl, rfl, settled .aborted t fun _ => rfl⟩
      | exhausted => exact .inl ⟨t, rfl, rfl⟩

theorem observed_of_accepted (hs : Reachable s)
    (accepted : request.application s.operators = .ok a) : s.ObservedOnce settings request := by
  have named := Request.literal_of_accepted accepted
  intro call
  cases called : (a.decide s.heap).invokes with
  | false =>
      obtain ⟨r, hr⟩ := Application.exists_ending a settings s.heap called
      refine ⟨s, .alone, .inr ⟨⟨settings, a, a.decide s.heap, .ofExcept r⟩, rfl, named, ?_⟩⟩
      rw [serve_accepted accepted, apply_alone hr, heap_ofExcept]
  | true =>
      obtain ⟨f, use, decided⟩ := Application.exists_handler_of_invokes called
      have kept := keep_eq hs.confines.heap decided
      rw [serve_consulting accepted decided kept]
      refine ⟨_, .consulted f a.arguments use, ?_⟩
      rcases finalState_consulting (call f a.arguments (s.kept a.arguments use).2) with
        ⟨t, cut, result⟩ | ⟨r, set, app, result⟩
      · rw [cut]
        rw [cut] at result
        exact .inl result
      · refine .inr ⟨r, set, ?_, result⟩
        rw [DispatchRecord.literal, app, named]

/-- A well-formed request may raise an unknown operator, but not by itself. -/
theorem not_raises_of_accepted (hs : Reachable s)
    (accepted : request.application s.operators = .ok a) : ¬ s.RaisesUnknown settings request := by
  rintro ⟨literal, arity, cause, raised⟩
  -- handlers that are cut short raise nothing
  obtain ⟨t, raised⟩ := raised fun _ _ => throw .exhausted
  cases called : (a.decide s.heap).invokes with
  | false =>
      obtain ⟨r, hr⟩ := Application.exists_ending a settings s.heap called
      rw [serve_accepted accepted, apply_alone hr] at raised
      have other := upheld_ne_unknownOperator hr s.ledger
        ⟨settings, a, a.decide s.heap, .ofExcept r⟩ literal arity cause
      generalize upheld s.ledger _ (r.map Prod.fst) = answer at raised other
      cases answer with
      | ok v => cases raised
      | error fault =>
          cases raised
          exact other rfl
  | true =>
      obtain ⟨f, use, decided⟩ := Application.exists_handler_of_invokes called
      have kept := keep_eq hs.confines.heap decided
      rw [serve_consulting accepted decided kept] at raised
      cases raised

/-- A malformed request is refused before anything happens, and every other one is
observed once. -/
theorem malformed_refused (hs : Reachable s) (settings : Settings) (request : Request) :
    s.Validates settings request := by
  cases accepted : request.application s.operators with
  | error fault =>
      have malformed := Request.malformed_iff.mpr ⟨fault, accepted⟩
      obtain ⟨cause, rfl⟩ := Request.fault_of_refused accepted
      have refuses : s.Refuses settings request _ := fun _ => serve_refused accepted
      refine ⟨iff_of_true ⟨_, _, cause, fun call => ⟨s, refuses call⟩⟩ malformed,
        fun _ => ⟨cause, refuses⟩, fun lacks => ?_, fun h => absurd malformed h⟩
      exact fun _ => serve_refused (Request.application_of_lacks lacks)
  | ok a =>
      have formed : ¬ request.Malformed s.operators := by
        rw [Request.malformed_iff, accepted]
        rintro ⟨fault, ⟨⟩⟩
      refine ⟨iff_of_false (not_raises_of_accepted hs accepted) formed, fun h => absurd h formed,
        fun lacks => ?_, fun _ => observed_of_accepted hs accepted⟩
      exact fun _ => serve_refused (Request.application_of_lacks lacks)

/-- A token and a position that are both unknown are refused for the token, and a
step without a position for that; in front of null it is observed. -/
theorem malformed_refused_unplaced :
    (State.initial .standard).Refuses .standard (.unary "@" (some "infix") .null)
        (.unknownOperator "@" .unary .unknownToken) ∧
      (State.initial .standard).RaisesUnknown .standard (.unary "++" none .null) ∧
      (State.initial .standard).ObservedOnce .standard (.unary "++" (some "prefix") .null) := by
  have validates : ∀ request, (State.initial .standard).Validates .standard request :=
    malformed_refused .initial .standard
  refine ⟨(validates (.unary "@" (some "infix") .null)).unknownToken ?_, ?_, ?_⟩
  · exact OperatorTables.find?_eq_none_iff.mp rfl
  · refine (validates _).raises_iff.mpr (.inr (.inr ⟨_, rfl, .inl ⟨rfl, by decide⟩⟩))
  · refine (validates _).observed fun malformed => ?_
    obtain ⟨fault, refused⟩ := Request.malformed_iff.mp malformed
    cases refused

end Action

end OperatorDispatch
