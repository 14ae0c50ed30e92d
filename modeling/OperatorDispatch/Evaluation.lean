import OperatorDispatch.Command

/-!
# Evaluation

Expressions are evaluated by structural recursion, given what a call of a
handler does; `callAt` ties the knot, with the number of calls that may be
inside each other as its measure.  A handler body sees its own call's
arguments and the run's variables, and nothing of the call around it.
-/

namespace OperatorDispatch
namespace Action

/-- What a name stands for: an argument of the current call, or else a
variable of the run. -/
def readVariable (frame : Option Arguments) (name : String) : Action Value := fun s =>
  let argument :=
    match frame, name with
    | some arguments, "this" => some arguments.this
    | some arguments, "other" => arguments.other
    | _, _ => none
  match argument with
  | some v => .ok v s
  | none =>
    match s.bindings.get? name with
    | some v => .ok v s
    | none => .error (.raised (.unboundVariable name)) s

/-- The fallback where the body raises.  An abort goes through. -/
def attempt (body fallback : Action Value) : Action Value := fun s =>
  match body s with
  | .ok v s => .ok v s
  | .error (.raised _) s => fallback s
  | .error e s => .error e s

mutual

/-- The value of an expression inside a call, or outside any. -/
def evaluate (call : Function → Arguments → Action Value) (engine : Engine)
    (frame : Option Arguments) : Expr → Action Value
  | .literal p => pure (.primitive p)
  | .variable name => readVariable frame name
  | .assign name e => do
    let v ← evaluate call engine frame e
    setVariable name v
    return v
  | .handler label body => do
    return .function ⟨← freshNumber, label, body⟩
  | .sequence es => do
    let vs ← evaluateAll call engine frame es
    return vs.getLast?.getD .null
  | .choose condition accept decline => do
    let v ← evaluate call engine frame condition
    if (← heap).truthy v then evaluate call engine frame accept
    else evaluate call engine frame decline
  | .attempt body fallback =>
    attempt (evaluate call engine frame body) (evaluate call engine frame fallback)
  | .raise kind text => raise (.raised kind text)
  | .abort text => throw (.aborted text)
  | .trace e => do
    let v ← evaluate call engine frame e
    sight v
    return v
  | .span name keys attributes body => do
    let vs ← evaluateAll call engine frame attributes
    let attributes ← ofExcept (attributesFrom (← heap) (entriesFrom keys vs))
    spanned name attributes (evaluate call engine frame body)
  | .call c operands => do
    let vs ← evaluateAll call engine frame operands
    command call engine c vs

/-- The values of expressions from left to right. -/
def evaluateAll (call : Function → Arguments → Action Value) (engine : Engine)
    (frame : Option Arguments) : List Expr → Action (List Value)
  | [] => pure []
  | e :: es => do
    let v ← evaluate call engine frame e
    let vs ← evaluateAll call engine frame es
    return v :: vs

end

/-- A call of a handler, with at most `depth` calls inside each other. -/
def callAt (engine : Engine) : (depth : Nat) → Function → Arguments → Action Value
  | 0, _, _ => throw .exhausted
  | depth + 1, f, arguments => evaluate (callAt engine depth) engine (some arguments) f.body

/-- The value of an expression outside any call. -/
def evaluateTop (engine : Engine) (depth : Nat) (e : Expr) : Action Value :=
  evaluate (callAt engine depth) engine none e

end Action
end OperatorDispatch
