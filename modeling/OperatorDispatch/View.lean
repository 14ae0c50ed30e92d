import OperatorDispatch.Session

/-!
# Views

What can be seen of a value: its content written out to the full depth, each
object under a number that shows its identity.  Numbers are given in the order
in which objects are first written, an object before what it contains, and an
object inside itself is its number alone.
-/

namespace OperatorDispatch

inductive View where
  | primitive (p : Primitive)
  | function (label : String)
  | inst (number : Nat) (typeName : String) (tagged readOnly : Bool)
      (fields : List (String × View)) (overrides : Option (List Selector))
  | typeDefinition (number : Nat) (name : String) (isSealed : Bool) (handlers : List Selector)
  | registry (number : Nat) (owner : String) (isSealed allowReplace : Bool)
      (handlers : List (Selector × String))
  | cell (number : Nat) (content : View)
  | list (number : Nat) (items : List View)
  | dict (number : Nat) (entries : List (String × View))
  /-- An object inside itself. -/
  | again (number : Nat)
  | metrics (spans : List Span) (counters : List (CounterKey × Double))
  | rows (rows : List LogRow)
  | settings (traceSpans recordMetrics : Bool) (sentinel : Primitive) (ledgerLimit : Int)
  | operand (kind : PrimitiveKind) (value : Primitive)
  | taggable (typeName : String) (untagged : Bool) (path : List View)
  | views (items : List View)

/-! ## Numbering -/

/-- The addresses already written, each at the place of its number. -/
abbrev Numbering := List Address

namespace Numbering

/-- The number of an address, a new one where it has none. -/
def number (n : Numbering) (a : Address) : Nat × Numbering :=
  if n.contains a then (n.idxOf a, n) else (n.length, n ++ [a])

end Numbering

/-- A function from numberings, threaded along a list. -/
def threadNumbering {α β : Type} (f : Numbering → α → β × Numbering) :
    Numbering → List α → List β × Numbering
  | n, [] => ([], n)
  | n, x :: xs =>
    let (y, n) := f n x
    let (ys, n) := threadNumbering f n xs
    (y :: ys, n)

/-- The same on the values of entries. -/
def threadEntries {κ α β : Type} (f : Numbering → α → β × Numbering) (n : Numbering)
    (es : List (κ × α)) : List (κ × β) × Numbering :=
  threadNumbering (fun n e => let (y, n) := f n e.2; ((e.1, y), n)) n es

/-! ## Writing values out -/

namespace Heap

/-- The selectors of a registry, in the order of registration. -/
def selectorsAt (h : Heap) (a : Address) : List Selector :=
  match h.registryAt? a with
  | some r => r.handlers.keys
  | none => []

/-- The view of an object that has the number `number`, given the view of what
it contains. -/
def viewObject (h : Heap) (content : Numbering → Value → View × Numbering) (number : Nat)
    (n : Numbering) : Object → View × Numbering
  | .inst i =>
    let (fields, n) := threadEntries content n i.fields.entries
    (.inst number (h.typeNameOf i) i.type.isSome i.readOnly fields
      (i.registry.map h.selectorsAt), n)
  | .typeDefinition t =>
    (.typeDefinition number t.name (h.isSealed t) (h.selectorsAt t.registry), n)
  | .registry r =>
    (.registry number r.owner r.isSealed r.allowReplace
      (r.handlers.entries.map fun e => (e.1, e.2.label)), n)
  | .cell v =>
    let (view, n) := content n v
    (.cell number view, n)
  | .list vs =>
    let (views, n) := threadNumbering content n vs
    (.list number views, n)
  | .dict es =>
    let (entries, n) := threadEntries content n es.entries
    (.dict number entries, n)
  | .reading _ => (.again number, n)

/-- The view of a reading, which has no number of its own. -/
def viewReading (content : Numbering → Value → View × Numbering) (n : Numbering) :
    Reading → View × Numbering
  | .metrics spans counters => (.metrics spans counters, n)
  | .rows rows => (.rows rows, n)
  | .settings traceSpans recordMetrics limit =>
    (.settings traceSpans recordMetrics (.double .nan) limit, n)
  | .primitive p => (.operand p.kind p, n)
  | .taggable typeName untagged path =>
    let (views, n) := threadNumbering content n (path.map Value.object)
    (.taggable typeName untagged views, n)
  | .definitions chain =>
    let (views, n) := threadNumbering content n (chain.map Value.object)
    (.views views, n)

/-- The view of a value inside the objects on `path`.  A path holds no object
twice, so the size of the heap bounds the depth. -/
def viewFrom (h : Heap) : (depth : Nat) → (path : List Address) → Numbering → Value →
    View × Numbering
  | _, _, n, .primitive p => (.primitive p, n)
  | _, _, n, .function f => (.function f.label, n)
  | 0, _, n, .object a => let (k, n) := n.number a; (.again k, n)
  | depth + 1, path, n, .object a =>
    match h.get? a with
    | some (.reading r) => viewReading (viewFrom h depth (a :: path)) n r
    | some o =>
      let (k, n) := n.number a
      if path.contains a then (.again k, n)
      else viewObject h (viewFrom h depth (a :: path)) k n o
    | none => let (k, n) := n.number a; (.again k, n)

/-- The view of a value. -/
def view (h : Heap) (n : Numbering) (v : Value) : View × Numbering :=
  h.viewFrom (h.size + 1) [] n v

end Heap

/-! ## Writing reports out -/

/-- How a step ended, as it can be seen. -/
inductive EndingView where
  | value (v : View)
  | interrupted (why : Interruption)

structure StepView where
  traces : List View
  ending : EndingView

namespace StepReport

/-- The view of a report: traces first, then the ending. -/
def view (n : Numbering) (r : StepReport) : StepView × Numbering :=
  let (traces, n) := threadNumbering (fun n s => s.heap.view n s.value) n r.sightings
  match r.ending with
  | .value v =>
    let (v, n) := r.heap.view n v
    (⟨traces, .value v⟩, n)
  | .interrupted why => (⟨traces, .interrupted why⟩, n)

/-- The views of all reports under one numbering. -/
def views (rs : List StepReport) : List StepView :=
  (threadNumbering view [] rs).1

end StepReport

end OperatorDispatch
