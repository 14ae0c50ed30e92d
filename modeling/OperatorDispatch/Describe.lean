import OperatorDispatch.State

/-!
# Descriptions

The text that describes a value: primitives in their literal form, containers
with their contents, and instances under the name of their type.

Lists and maps look whether they are inside themselves, and are dots there.
Instances and cells do not look.  One that is inside itself with no list or map
in between would be written again and again, so its text has no end; behind a
list or map it is written once more, and the dots come after it.  What else is
on the heap makes no difference to a description.
-/

namespace OperatorDispatch

/-- Texts with a comma and a blank between them. -/
def commaSeparated (parts : List String) : String :=
  String.intercalate ", " parts

/-- The text of a primitive; only an integer over the digit limit has none. -/
def withinLimit : Option String → Except NativeFault String
  | some s => .ok s
  | none => .error .tooManyDigits

/-- The dots that a list or map is inside itself.  No other object looks. -/
def Object.dots? : Object → Option String
  | .list _ => some "[...]"
  | .dict _ => some "\x7b...\x7d"
  | .inst _ | .typeDefinition _ | .registry _ | .cell _ | .reading _ => none

/-- What a text is being written inside of. -/
structure Nesting where
  /-- The lists and maps. -/
  guarded : List Address
  /-- The other objects inside the innermost list or map. -/
  unguarded : List Address

namespace Heap

/-- The description of an object, given the ones of its contents. -/
def describeObject (h : Heap) (content : Value → Except NativeFault String) :
    Object → Except NativeFault String
  | .inst i => do
    let parts ← i.fields.entries.mapM fun e => (content e.2).map (e.1 ++ "=" ++ ·)
    return h.typeNameOf i ++ "(" ++ commaSeparated parts ++ ")"
  | .cell v => (content v).map fun s => "Cell(" ++ s ++ ")"
  | .list vs => do
    let parts ← vs.mapM content
    return "[" ++ commaSeparated parts ++ "]"
  | .dict es => do
    let parts ← es.entries.mapM fun e => (content e.2).map (quoted e.1 ++ ": " ++ ·)
    return "\x7b" ++ commaSeparated parts ++ "\x7d"
  | .typeDefinition t =>
    match t.parent.bind h.typeAt? with
    | none => .ok ("TypeDefinition(" ++ quoted t.name ++ ")")
    | some parent =>
      .ok ("TypeDefinition(" ++ quoted t.name ++ ", parent=" ++ quoted parent.name ++ ")")
  | .registry r =>
    .ok ("HandlerRegistry(" ++ quoted r.owner ++ ", [" ++
      commaSeparated (r.handlers.keys.map (·.identifier)) ++ "])")
  | .reading _ => .ok "<reading>"

/-- The description of a value inside other objects, from the left to the
right and up to the first part that has none. -/
def describeFrom (h : Heap) : (depth : Nat) → Nesting → Value → Except NativeFault String
  | _, _, .primitive p => withinLimit p.literalText?
  | _, _, .function f => .ok ("<function " ++ f.label ++ " at " ++ toString f.number ++ ">")
  | 0, _, .object _ => .error .endlessText
  | depth + 1, n, .object a =>
    match h.get? a with
    | none => .error .endlessText
    | some o =>
      match o.dots? with
      | some dots =>
        if n.guarded.contains a then .ok dots
        else describeObject h (describeFrom h depth ⟨a :: n.guarded, []⟩) o
      | none =>
        if n.unguarded.contains a then .error .endlessText
        else describeObject h (describeFrom h depth ⟨n.guarded, a :: n.unguarded⟩) o

/-- The description of a value.  A nesting holds no list or map twice, and no
other object twice inside any of them, so the depth is not used up. -/
def describe (h : Heap) (v : Value) : Except NativeFault String :=
  h.describeFrom ((h.size + 1) * (h.size + 1)) ⟨[], []⟩ v

/-- A value as plain text: texts as they are, anything else described. -/
def plainText (h : Heap) : Value → Except NativeFault String
  | .primitive p => withinLimit p.plainText?
  | v => h.describe v

/-- A value as it is joined to a text by addition. -/
def joinText (h : Heap) : Value → Except NativeFault String
  | .primitive p => withinLimit p.joinText?
  | v => h.describe v

/-- A value as the fault of a missing key tells it. -/
def keyText (h : Heap) (key : Value) : KeyText :=
  match h.plainText key with
  | .ok text => .legible text
  | .error why => .illegible why

end Heap

end OperatorDispatch
