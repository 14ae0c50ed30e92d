import OperatorDispatch.Proofs.Dispatching

/-!
# Requests

The three ways in which a host asks for a dispatch, as data: a binary token, a
unary token with the text of a position, and a unary token at a position.  A
request is accepted or refused before anything happens.  Refusal is for the
operator only and leaves the state as it is; an accepted request is the dispatch
of an application of the operator behind its token.
-/

namespace OperatorDispatch

/-! ## Requests -/

/-- What a host asks of the dispatcher. -/
inductive Request where
  | binary (literal : String) (lhs rhs : Value)
  | unary (literal : String) (position : Option String) (operand : Value)
  | placed (literal : String) (position : Position) (operand : Value)

namespace Request

def literal : Request → String
  | .binary literal _ _ | .unary literal _ _ | .placed literal _ _ => literal

def arity : Request → Arity
  | .binary .. => .binary
  | .unary .. | .placed .. => .unary

/-- The application that is asked for, if the request is accepted. -/
def application (t : OperatorTables) : Request → Except Fault Application
  | .binary literal lhs rhs => Application.binary t literal lhs rhs
  | .unary literal position operand => Application.unary t literal position operand
  | .placed literal position operand =>
    match t.lookup .unary literal with
    | .ok o => Application.unaryAt o literal position operand
    | .error fault => .error fault

/-- The requests for a step behind its operand, with the position in words and
as it is. -/
def stepsBehind (literal : String) (operand : Value) : List Request :=
  [.unary literal (some "postfix") operand, .placed literal .after operand]

/-- The requests for a step before its operand, likewise. -/
def stepsBefore (literal : String) (operand : Value) : List Request :=
  [.unary literal (some "prefix") operand, .placed literal .before operand]

/-- The operands are values at hand. -/
def Known (S : Scope) (h : Heap) : Request → Prop
  | .binary _ lhs rhs => S.Knows h lhs ∧ S.Knows h rhs
  | .unary _ _ operand | .placed _ _ operand => S.Knows h operand

theorem Known.later {S : Scope} {h h' : Heap} (hl : h.Later h') {request : Request}
    (hr : request.Known S h) : request.Known S h' := by
  cases request with
  | binary => exact ⟨Scope.Knows.later hl hr.1, Scope.Knows.later hl hr.2⟩
  | unary | placed => exact Scope.Knows.later hl hr

variable {t : OperatorTables} {request : Request}

theorem lookup_literal {arity : Arity} {literal : String} {o : Operator}
    (h : t.lookup arity literal = .ok o) : o.literal = literal := by
  unfold OperatorTables.lookup at h
  split at h
  · rename_i found
    cases h
    simpa using List.find?_some found
  · cases h

theorem lookup_error {arity : Arity} {literal : String} {fault : Fault}
    (h : t.lookup arity literal = .error fault) :
    ∃ cause, fault = .unknownOperator literal arity cause := by
  unfold OperatorTables.lookup at h
  split at h <;> cases h
  exact ⟨_, rfl⟩

theorem unaryAt_ok {o : Operator} {literal : String} {p : Position} {operand : Value}
    {a : Application} (h : Application.unaryAt o literal p operand = .ok a) : a.operator = o := by
  unfold Application.unaryAt at h
  split at h <;> cases h <;> rfl

theorem unaryAt_error {o : Operator} {literal : String} {p : Position} {operand : Value}
    {fault : Fault} (h : Application.unaryAt o literal p operand = .error fault) :
    ∃ cause, fault = .unknownOperator literal .unary cause := by
  unfold Application.unaryAt at h
  split at h <;> cases h <;> exact ⟨_, rfl⟩

/-- An accepted request is about the operator of its token. -/
theorem literal_of_accepted {a : Application} (h : request.application t = .ok a) :
    a.operator.literal = request.literal := by
  cases request with
  | binary literal lhs rhs =>
      simp only [application, Application.binary] at h
      split at h <;> cases h
      exact lookup_literal (by assumption)
  | unary literal position operand =>
      simp only [application, Application.unary] at h
      split at h
      · cases h
      · split at h
        · cases h
        · rw [unaryAt_ok h]
          exact lookup_literal (by assumption)
  | placed literal position operand =>
      simp only [application] at h
      split at h
      · rw [unaryAt_ok h]
        exact lookup_literal (by assumption)
      · cases h

/-- A refusal names the token and the arity of the request. -/
theorem fault_of_refused {fault : Fault} (h : request.application t = .error fault) :
    ∃ cause, fault = .unknownOperator request.literal request.arity cause := by
  cases request with
  | binary literal lhs rhs =>
      simp only [application, Application.binary] at h
      split at h <;> cases h
      exact lookup_error (by assumption)
  | unary literal position operand =>
      simp only [application, Application.unary] at h
      split at h
      · cases h
        exact lookup_error (by assumption)
      · split at h
        · rename_i hposition
          cases h
          unfold readPosition at hposition
          split at hposition <;> cases hposition
          exact ⟨_, rfl⟩
        · exact unaryAt_error h
  | placed literal position operand =>
      simp only [application] at h
      split at h
      · exact unaryAt_error h
      · cases h
        exact lookup_error (by assumption)

/-- A request is refused for its operator or not at all. -/
theorem unknownOperator_of_refused {fault : Fault} (h : request.application t = .error fault) :
    ∃ arity cause, fault = .unknownOperator request.literal arity cause :=
  ⟨_, fault_of_refused h⟩

theorem application_stepsBehind {literal : String} {operand : Value} {o : Operator}
    (hr : request ∈ stepsBehind literal operand) (hlookup : t.lookup .unary literal = .ok o)
    (hstep : o.isMutating = true) :
    request.application t = .ok ⟨o, .step operand true⟩ := by
  simp only [stepsBehind, List.mem_cons, List.not_mem_nil, or_false] at hr
  rcases hr with rfl | rfl
  · simp [application, Application.unary, hlookup, readPosition, Position.ofText?,
      Application.unaryAt, hstep]
  · simp [application, hlookup, Application.unaryAt, hstep]

theorem application_stepsBefore {literal : String} {operand : Value} {o : Operator}
    (hr : request ∈ stepsBefore literal operand) (hlookup : t.lookup .unary literal = .ok o)
    (hstep : o.isMutating = true) :
    request.application t = .ok ⟨o, .step operand false⟩ := by
  simp only [stepsBefore, List.mem_cons, List.not_mem_nil, or_false] at hr
  rcases hr with rfl | rfl
  · simp [application, Application.unary, hlookup, readPosition, Position.ofText?,
      Application.unaryAt, hstep]
  · simp [application, hlookup, Application.unaryAt, hstep]

theorem knowsApplication {S : Scope} {h : Heap} {a : Application} (hr : request.Known S h)
    (ha : request.application t = .ok a) : S.KnowsApplication h a := by
  cases request with
  | binary literal lhs rhs => exact Scope.knowsApplication_binary hr.1 hr.2 ha
  | unary literal position operand => exact Scope.knowsApplication_unary hr ha
  | placed literal position operand =>
      simp only [application] at ha
      split at ha
      · exact Scope.knowsApplication_unaryAt hr ha
      · cases ha

end Request

namespace Action

variable {s : State} {call : Function → Arguments → Action Value} {settings : Settings}

/-- The dispatch that a request asks for. -/
def serve (call : Function → Arguments → Action Value) (settings : Settings) :
    Request → Action Value
  | .binary literal lhs rhs => dispatchBinary call settings literal lhs rhs
  | .unary literal position operand => dispatchUnary call settings literal position operand
  | .placed literal position operand => dispatchAt call settings literal position operand

theorem serve_accepted {request : Request} {a : Application}
    (ha : request.application s.operators = .ok a) :
    serve call settings request s = apply call settings a s := by
  have accepted : ofExcept (request.application s.operators) s = .ok a s := by
    rw [ha]
    rfl
  cases request with
  | binary | unary => exact bind_ok accepted
  | placed literal position operand =>
      simp only [Request.application] at ha
      split at ha
      · rename_i o ho
        have found : ofExcept (s.operators.lookup .unary literal) s = .ok o s := by
          rw [ho]
          rfl
        have placed : ofExcept (Application.unaryAt o literal position operand) s = .ok a s := by
          rw [ha]
          rfl
        exact (bind_ok found).trans (bind_ok placed)
      · cases ha

/-- A refused request changes nothing. -/
theorem serve_refused {request : Request} {fault : Fault}
    (hf : request.application s.operators = .error fault) :
    serve call settings request s = .error (.raised fault) s := by
  have refused : ofExcept (request.application s.operators) s = .error (.raised fault) s := by
    rw [hf]
    rfl
  have stopped := bind_error (f := fun a => apply call settings a) refused
  cases request with
  | binary | unary => exact stopped
  | placed literal position operand =>
      simp only [Request.application] at hf
      split at hf
      · rename_i o ho
        have found : ofExcept (s.operators.lookup .unary literal) s = .ok o s := by
          rw [ho]
          rfl
        have placed : ofExcept (Application.unaryAt o literal position operand) s =
            .error (.raised fault) s := by
          rw [hf]
          rfl
        exact (bind_ok found).trans (bind_error placed)
      · rename_i fault' ho
        cases hf
        have missing : ofExcept (s.operators.lookup .unary literal) s =
            .error (.raised fault) s := by
          rw [ho]
          rfl
        have stopped := bind_error (f := fun o => do
          let a ← ofExcept (Application.unaryAt o literal position operand)
          apply call settings a) missing
        exact stopped

section Binary

variable {literal : String} {lhs rhs : Value} {o : Operator}

theorem application_binary (lhs rhs : Value) (h : s.operators.lookup .binary literal = .ok o) :
    (Request.binary literal lhs rhs).application s.operators = .ok ⟨o, .binary lhs rhs⟩ := by
  simp only [Request.application, Application.binary, h]

theorem application_binary_refused {fault : Fault}
    (h : s.operators.lookup .binary literal = .error fault) :
    (Request.binary literal lhs rhs).application s.operators = .error fault := by
  simp only [Request.application, Application.binary, h]

end Binary

end Action

end OperatorDispatch
