import OperatorDispatch.Primitive
import OperatorDispatch.Native.Fault

/-!
# Comparison of primitives

Numbers are compared by their exact values, an integer with a double without
rounding either, and not-a-number stands in no relation to any number.  Texts
are compared by code point.
-/

namespace OperatorDispatch

/-- A place on the number line, its two ends included. -/
inductive Place where
  | bottom
  | at (q : Rat)
  | top
deriving DecidableEq

/-- The order of places. -/
def Place.compare : Place → Place → Ordering
  | .bottom, .bottom => .eq
  | .bottom, _ => .lt
  | _, .bottom => .gt
  | .top, .top => .eq
  | .top, _ => .gt
  | _, .top => .lt
  | .at p, .at q => if p < q then .lt else if p = q then .eq else .gt

namespace Numeral

/-- The place of a number; `none` for not-a-number. -/
def place? : Numeral → Option Place
  | .integer n => some (.at n)
  | .double .nan => none
  | .double (.infinity s) => some (if s then .bottom else .top)
  | .double (.finite s m) => some (.at (if s then -m.toRat else m.toRat))

/-- How two numbers compare; `none` where one is not-a-number. -/
def compare? (a b : Numeral) : Option Ordering :=
  match a.place?, b.place? with
  | some p, some q => some (p.compare q)
  | _, _ => none

end Numeral

/-- How two texts compare by code point. -/
def compareText (s t : String) : Ordering :=
  if s < t then .lt else if s = t then .eq else .gt

namespace Primitive

/-- Equality with booleans counted as numbers. -/
def looseEqual : Primitive → Primitive → Bool
  | .null, .null => true
  | .text s, .text t => s == t
  | a, b =>
    match a.numeral?, b.numeral? with
    | some x, some y => x.compare? y == some .eq
    | _, _ => false

/-- Equality within one kind. -/
def strictEqual (a b : Primitive) : Bool :=
  a.kind == b.kind && looseEqual a b

/-- A relation between two numbers or two texts, given by the orderings that
satisfy it. -/
def relate (holds : Ordering → Bool) : Primitive → Primitive → Except NativeFault Primitive
  | .text s, .text t => .ok (.boolean (holds (compareText s t)))
  | a, b =>
    match a.numeral?, b.numeral? with
    | some x, some y => .ok (.boolean ((x.compare? y).any holds))
    | _, _ => .error (.incompatible .operandsNotNumbers)

end Primitive

end OperatorDispatch
