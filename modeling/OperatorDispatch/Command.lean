import OperatorDispatch.Container
import OperatorDispatch.Definition
import OperatorDispatch.Slot

/-!
# Commands

What each command does to its operands.  Operands that a command cannot use,
be they of the wrong kind or number, are a fault of their own.
-/

namespace OperatorDispatch
namespace Action

/-- The type definition that a value is. -/
def typeOf (v : Value) : Action (Address × TypeDefinition) := do
  demand .unusable ((← heap).typeOf? v)

/-- The registry that a value is. -/
def registryOf (v : Value) : Action (Address × Registry) := do
  demand .unusable ((← heap).registryOf? v)

/-! ## Definitions -/

def definition : DefinitionCommand → List Value → Action Value
  | .openType name, [parent] => do
    return .object (← openType name (← parentOf parent))
  | .define name selectors, vs => do
    let parent ← parentOf (vs.getLast?.getD .null)
    return .object (← define name (entriesFrom selectors vs.dropLast) parent)
  | .register selector, [type, handler] => do
    let (_, t) ← typeOf type
    addNamed t.registry selector handler
    return .null
  | .override selector, [v, handler] => do
    overrideHandler v selector handler
    return .null
  | .seal, [type] => do
    let (a, _) ← typeOf type
    sealType a
    return type
  | .instantiate fields, type :: vs => do
    let (a, _) ← typeOf type
    return .object (← instantiate a (entriesFrom fields vs))
  | .record fields, vs => do
    return .object (← newRecord (entriesFrom fields vs))
  | .snapshot, [v] => do
    let (_, i) ← instanceOf v
    return .object (← snapshot i)
  | .newRegistry owner allowReplace, [] => newObject (.registry (.fresh owner allowReplace))
  | .addTo selector, [registry, handler] => do
    let (a, _) ← registryOf registry
    addNamed a selector handler
    return .null
  | .sealRegistry, [registry] => do
    let (a, _) ← registryOf registry
    sealRegistry a
    return .null
  | .copyRegistry owner, [registry] => do
    let (_, r) ← registryOf registry
    newObject (.registry (r.copy owner))
  | _, _ => raise .unusable

/-! ## Inspection -/

/-- Whether two values are instances of the very same type definition; two
bare records are. -/
def sameType (h : Heap) (v w : Value) : Bool :=
  match h.instanceOf? v, h.instanceOf? w with
  | some (_, i), some (_, j) => i.type == j.type
  | _, _ => false

/-- An operand as a reading. -/
def readOperand : Operand → Reading
  | .primitive p => .primitive p
  | .taggable t => .taggable t.typeName t.type.isNone t.path

/-- An address as a value, or null. -/
def orNull (a : Option Address) : Value :=
  match a with
  | some a => .object a
  | none => .null

def inspection : InspectionCommand → List Value → Action Value
  | .describe, [v] => do
    return .text (← ofExcept (((← heap).describe v).mapError .native))
  | .same, [v, w] => return .boolean (v.same w)
  | .sameType, [v, w] => return .boolean (sameType (← heap) v w)
  | .isInstance, [v] => return .boolean ((← heap).instanceOf? v).isSome
  | .isSubtype, [v, w] => do
    let (a, _) ← typeOf v
    let (b, _) ← typeOf w
    return .boolean ((← heap).isSubtype a b)
  | .chain, [v] => do
    let (a, _) ← typeOf v
    newObject (.reading (.definitions ((← heap).chain a)))
  | .classify, [v] => do
    newObject (.reading (readOperand ((← heap).classify v)))
  | .resolve selector, [v] => do
    let s ← ofExcept (findSelector selector)
    match (← heap).resolve ((← heap).classify v) s with
    | some f => return .function f
    | none => return .null
  | .compatible, [v, w] => do
    match (← heap).classify v with
    | .taggable t => return .boolean (nominallyCompatible t ((← heap).classify w))
    | .primitive _ => raise .unusable
  | .typeRegistry, [v] => do
    let (_, t) ← typeOf v
    return .object t.registry
  | .instanceRegistry, [v] => do
    let (_, i) ← instanceOf v
    return orNull i.registry
  | .registryHas selector, [v] => do
    let (_, r) ← registryOf v
    let s ← ofExcept (findSelector selector)
    return .boolean (r.handlers.contains s)
  | _, _ => raise .unusable

/-! ## Dispatch -/

/-- A value as native arithmetic sees it: a text joined to a value that is no
primitive takes its description, and such a value is the wrong kind for any
other operation. -/
def nativeOperand (h : Heap) (joining : Bool) : Value → Except Fault Primitive
  | .primitive p => .ok p
  | v =>
    if joining then
      match h.joinText v with
      | .ok s => .ok (.text s)
      | .error why => .error (.native why)
    else
      .ok .null

/-- Whether a value is a text. -/
def isText : Value → Bool
  | .primitive (.text _) => true
  | _ => false

/-- The result of a native operation, its faults raised. -/
def ofNative : Except NativeFault Primitive → Action Value
  | .ok p => pure (.primitive p)
  | .error fault => raise (.native fault)

/-- A native operation without the engine. -/
def native (s : Selector) (operands : List Value) : Action Value := do
  match s.isUnary, operands with
  | true, [v] =>
    let p ← ofExcept (nativeOperand (← heap) false v)
    ofNative (Native.unary s p)
  | false, [v, w] =>
    let joining := s == .add && (isText v || isText w)
    let p ← ofExcept (nativeOperand (← heap) joining v)
    let q ← ofExcept (nativeOperand (← heap) joining w)
    ofNative (Native.binary s p q)
  | _, _ => raise .unusable

/-- An operator added to the tables. -/
def registerOperator (o : Operator) : Action Unit := do
  match (← get).operators.register? o with
  | some t => setOperators t
  | none => raise (.operatorExists o.literal)

def dispatch (call : Function → Arguments → Action Value) (engine : Engine) :
    DispatchCommand → List Value → Action Value
  | .binary literal, [v, w] => do
    dispatchBinary call (← settingsOf engine) literal v w
  | .unary literal position, [v] => do
    dispatchUnary call (← settingsOf engine) literal position v
  | .before literal, [v] => do
    dispatchAt call (← settingsOf engine) literal .before v
  | .after literal, [v] => do
    dispatchAt call (← settingsOf engine) literal .after v
  | .equals, [v, w] => do
    dispatchBinary call (← settingsOf engine) "==" v w
  | .strictEquals, [v, w] => do
    dispatchBinary call (← settingsOf engine) "===" v w
  | .native selector, vs => do
    native (← ofExcept (findSelector selector)) vs
  | .assign literal, [cell, v] => do
    let (a, _) ← demand .unusable ((← heap).cellOf? cell)
    assign call engine a literal v
  | .update literal position, [cell] => do
    let (a, _) ← demand .unusable ((← heap).cellOf? cell)
    update call engine a literal position
  | .registerOperator literal binary selector description negated, [] => do
    let s ← ofExcept (findSelector selector)
    registerOperator ⟨literal, if binary then .binary else .unary, s, description, negated⟩
    return .null
  | _, _ => raise .unusable

/-! ## Telemetry -/

/-- An attribute value as text; a null one is dropped. -/
def attributeFrom (h : Heap) (e : String × Value) :
    Except NativeFault (Option (String × String)) :=
  match e.2 with
  | .primitive .null => .ok none
  | v => (h.plainText v).map fun s => some (e.1, s)

/-- Attribute values as texts, up to the first that has none. -/
def attributesFrom (h : Heap) (entries : OrderedMap String Value) : Except Fault Attributes :=
  match entries.entries.mapM (attributeFrom h) with
  | .ok es => .ok (.ofMap (.ofList (es.filterMap id)))
  | .error why => .error (.native why)

/-- An amount as a double. -/
def amountFrom : Value → Except Fault Double
  | .primitive p =>
    match p.numeral? with
    | some x =>
      match x.toDouble? with
      | some d => .ok d
      | none => .error (.native .integerTooLarge)
    | none => .error .unusable
  | _ => .error .unusable

/-- An integer operand. -/
def integerFrom : Value → Except Fault Int
  | .primitive p =>
    match p.numeral? with
    | some (.integer n) => .ok n
    | _ => .error .unusable
  | _ => .error .unusable

/-- Settings with the named ones given and the others as by default. -/
def settingsFrom (h : Heap) : List (String × Value) → Except Fault Settings
  | [] => .ok .standard
  | (name, v) :: rest =>
    match settingsFrom h rest with
    | .error fault => .error fault
    | .ok s =>
      match name with
      | "trace_spans" => .ok { s with traceSpans := h.truthy v }
      | "record_metrics" => .ok { s with recordMetrics := h.truthy v }
      | "nan_sentinel" => .ok { s with sentinel := v }
      | "ledger_limit" =>
        match integerFrom v with
        | .ok n => .ok { s with ledgerLimit := n }
        | .error fault => .error fault
      | _ => .error .unusable

/-- What the ledger holds. -/
def readMetrics (l : Ledger) : Reading :=
  .metrics l.spans l.sortedCounters

def telemetry : TelemetryCommand → List Value → Action Value
  | .configure fields, vs => do
    configure (← ofExcept (settingsFrom (← heap) (entriesFrom fields vs).entries))
    return .null
  | .readEnvironment environment, [] => do
    let s ← ofExcept (Settings.ofEnvironment (.ofList environment))
    newObject (.reading (.settings s.traceSpans s.recordMetrics s.ledgerLimit))
  | .limit, [] => return .integer (← get).ledger.limit
  | .setLimit, [v] => do
    setLimit (← ofExcept (integerFrom v))
    return .null
  | .reset, [] => do
    setLedger (← get).ledger.reset
    return .null
  | .increment name keys, vs => do
    let attributes ← ofExcept (attributesFrom (← heap) (entriesFrom keys vs.dropLast))
    let amount ← ofExcept (amountFrom (vs.getLast?.getD .null))
    increment ⟨name, attributes⟩ amount
    return .null
  | .counter name keys, vs => do
    let attributes ← ofExcept (attributesFrom (← heap) (entriesFrom keys vs))
    return .double ((← get).ledger.total ⟨name, attributes⟩)
  | .metrics, [] => do
    newObject (.reading (readMetrics (← get).ledger))
  | .logs, [] => do
    newObject (.reading (.rows (← takeRows)))
  | _, _ => raise .unusable

/-! ## All commands -/

def command (call : Function → Arguments → Action Value) (engine : Engine) :
    Command → List Value → Action Value
  | .container c, vs => container c vs
  | .definition c, vs => definition c vs
  | .inspection c, vs => inspection c vs
  | .dispatch c, vs => dispatch call engine c vs
  | .telemetry c, vs => telemetry c vs

end Action
end OperatorDispatch
