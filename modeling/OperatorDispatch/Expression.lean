import OperatorDispatch.Primitive

/-!
# Expressions

The language in which hosts drive the engine.  Control, variables, handlers
and the two observers (traces and spans) are constructors of their own.
Everything else is a command applied to its operands, which are evaluated from
left to right before the command runs.  A command holds the names, tokens and
keys that are written out in the expression.
-/

namespace OperatorDispatch

/-! ## Commands -/

/-- Commands on cells, lists, string-keyed maps and the fields of instances. -/
inductive ContainerCommand where
  | newList
  | newDict (keys : List String)
  | newCell
  | readCell
  | writeCell
  | get
  | set
  | delete
  | has
  | length
  | pop
  | popItem
  | clear
  | setDefault
  | merge
deriving DecidableEq

/-- Commands that make type definitions, instances and registries, or register
handlers with them. -/
inductive DefinitionCommand where
  /-- An open type definition, with a parent or null. -/
  | openType (name : String)
  /-- A sealed type definition: one handler for each selector text, then the
  parent or null. -/
  | define (name : String) (selectors : List String)
  | register (selector : String)
  | override (selector : String)
  | seal
  | instantiate (fields : List String)
  | record (fields : List String)
  | snapshot
  | newRegistry (owner : String) (allowReplace : Bool)
  | addTo (selector : String)
  | sealRegistry
  | copyRegistry (owner : Option String)
deriving DecidableEq

/-- Commands that look at values and change nothing. -/
inductive InspectionCommand where
  | describe
  | same
  | sameType
  | isInstance
  | isSubtype
  | chain
  | classify
  | resolve (selector : String)
  | compatible
  | typeRegistry
  | instanceRegistry
  | registryHas (selector : String)
deriving DecidableEq

/-- Commands that apply operators. -/
inductive DispatchCommand where
  | binary (literal : String)
  | unary (literal : String) (position : Option String)
  | before (literal : String)
  | after (literal : String)
  | equals
  | strictEquals
  | native (selector : String)
  | assign (literal : String)
  | update (literal : String) (position : Option String)
  | registerOperator (literal : String) (binary : Bool) (selector description : String)
      (negated : Bool)
deriving DecidableEq

/-- Commands on the shared settings, the ledger and the journal. -/
inductive TelemetryCommand where
  /-- New default settings, from the values of the named ones. -/
  | configure (fields : List String)
  | readEnvironment (environment : List (String × String))
  | limit
  | setLimit
  | reset
  /-- The attributes in the order of their keys, then the amount. -/
  | increment (name : String) (keys : List String)
  | counter (name : String) (keys : List String)
  | metrics
  | logs
deriving DecidableEq

inductive Command where
  | container (c : ContainerCommand)
  | definition (c : DefinitionCommand)
  | inspection (c : InspectionCommand)
  | dispatch (c : DispatchCommand)
  | telemetry (c : TelemetryCommand)
deriving DecidableEq

/-! ## Expressions -/

/-- What a handler can raise on purpose. -/
inductive RaisedKind where
  | handlerError | typeError | valueError | keyError | overflowError
  | zeroDivisionError | engineError
deriving DecidableEq, Repr

inductive Expr where
  | literal (p : Primitive)
  | variable (name : String)
  | assign (name : String) (value : Expr)
  /-- A handler, whose body sees the arguments of its own call only. -/
  | handler (label : String) (body : Expr)
  | sequence (steps : List Expr)
  | choose (condition accept decline : Expr)
  /-- The second expression where the first one raises. -/
  | attempt (body fallback : Expr)
  | raise (kind : RaisedKind) (text : String)
  /-- Leaves without raising anything that can be caught. -/
  | abort (text : String)
  | trace (value : Expr)
  | span (name : String) (keys : List String) (attributes : List Expr) (body : Expr)
  | call (command : Command) (operands : List Expr)

end OperatorDispatch
