import OperatorDispatch.Dispatch.Application
import OperatorDispatch.Lookup
import OperatorDispatch.Native

/-!
# Decisions

What a well-formed application is going to do, told from the heap before
anything changes.  The left operand alone defines the behaviour: of the right
one only the kind and the type definition are looked at, and never the
handlers.
-/

namespace OperatorDispatch

/-- What a dispatch is counted under. -/
inductive Outcome where
  | handler | identity | derived | default | native | error
deriving DecidableEq, Repr

def Outcome.name : Outcome → String
  | .handler => "handler"
  | .identity => "identity"
  | .derived => "derived"
  | .default => "default"
  | .native => "native"
  | .error => "error"

/-- What becomes of a handler's result. -/
inductive Use where
  /-- It is the answer. -/
  | answer
  /-- Its truth value is the answer. -/
  | truth
  /-- It is dropped, and the receiver is the answer. -/
  | receiver
  /-- It is dropped, and a snapshot taken before the call is the answer. -/
  | snapshot
deriving DecidableEq, Repr

/-- What a dispatch is going to do. -/
inductive Decision where
  /-- Answer at once. -/
  | answer (v : Value) (outcome : Outcome)
  /-- Fall back, and say so in the journal. -/
  | fallBack (fallback : Fallback) (typeName : String)
  /-- Fail in a native operation. -/
  | fail (fault : NativeFault)
  /-- Call a handler. -/
  | invoke (f : Function) (arguments : Arguments) (use : Use)

namespace Decision

/-- The answer of a native operation on primitives, given the answer that its
success stands for.  Operands of the wrong kinds fall back. -/
def ofNative (c : Category) (typeName : String) (result : Primitive → Primitive) :
    Except NativeFault Primitive → Decision
  | .ok p => .answer (.primitive (result p)) .native
  | .error (.incompatible _) => .fallBack c.primitiveFallback typeName
  | .error fault => .fail fault

/-- Loose equality: identity, then a handler, then primitives by value. -/
def equality (h : Heap) (lhs rhs : Value) : Decision :=
  if lhs.identical rhs then .answer (.boolean true) .identity
  else match h.resolve (h.classify lhs) .equals with
    | some f => .invoke f ⟨lhs, some rhs⟩ .answer
    | none =>
      match lhs, rhs with
      | .primitive p, .primitive q => .answer (.boolean (p.looseEqual q)) .native
      | _, _ => .answer (.boolean false) .default

/-- Strict equality without a handler of its own: derived from the handler for
`equals` where the operands are nominally compatible. -/
def derivedEquality (h : Heap) (lhs rhs : Value) : Decision :=
  match h.classify lhs, h.resolve (h.classify lhs) .equals with
  | .taggable left, some f =>
    if nominallyCompatible left (h.classify rhs) then .invoke f ⟨lhs, some rhs⟩ .truth
    else .answer (.boolean false) .derived
  | _, _ =>
    match lhs, rhs with
    | .primitive p, .primitive q => .answer (.boolean (p.strictEqual q)) .native
    | _, _ => .answer (.boolean false) .default

/-- Strict equality: identity, then a handler, then what `equals` gives. -/
def strictEquality (h : Heap) (lhs rhs : Value) : Decision :=
  if lhs.identical rhs then .answer (.boolean true) .identity
  else match h.resolve (h.classify lhs) .strictEquals with
    | some f => .invoke f ⟨lhs, some rhs⟩ .answer
    | none => derivedEquality h lhs rhs

/-- An operator other than an equality, on two operands. -/
def binary (h : Heap) (o : Operator) (lhs rhs : Value) : Decision :=
  match lhs, rhs with
  | .primitive p, .primitive q =>
    ofNative o.category p.kind.name id (Native.binary o.selector p q)
  | .primitive p, _ => .fallBack o.category.primitiveFallback p.kind.name
  | _, _ =>
    match h.resolve (h.classify lhs) o.selector with
    | some f => .invoke f ⟨lhs, some rhs⟩ .answer
    | none => .fallBack o.category.fallback (h.classify lhs).typeName

/-- An operator on one operand.  `native` gives the answer for a primitive
from what the operation made of it, and `use` the one for a handler. -/
def unary (h : Heap) (o : Operator) (operand : Value) (native : Primitive → Primitive)
    (use : Use) : Decision :=
  match operand with
  | .primitive p => ofNative o.category p.kind.name native (Native.unary o.selector p)
  | _ =>
    match h.resolve (h.classify operand) o.selector with
    | some f => .invoke f ⟨operand, none⟩ use
    | none => .fallBack o.category.fallback (h.classify operand).typeName

end Decision

/-- A step on a primitive behind its operand yields the operand: a primitive
does not change in place. -/
def stepNative (after : Bool) : Value → Primitive → Primitive
  | .primitive p, q => if after then p else q
  | _, q => q

namespace Application

/-- What a dispatch is going to do, given the heap. -/
def decide (h : Heap) (a : Application) : Decision :=
  match a.form with
  | .binary lhs rhs =>
    match a.operator.selector with
    | .equals => Decision.equality h lhs rhs
    | .strictEquals => Decision.strictEquality h lhs rhs
    | _ => Decision.binary h a.operator lhs rhs
  | .unary operand => Decision.unary h a.operator operand id .answer
  | .step operand after =>
    Decision.unary h a.operator operand (stepNative after operand)
      (if after then .snapshot else .receiver)

/-- Whether the truth value of the answer is turned round. -/
def negates (a : Application) : Bool :=
  match a.form with
  | .binary .. => a.operator.category == .equality && a.operator.negated
  | _ => false

end Application

end OperatorDispatch
