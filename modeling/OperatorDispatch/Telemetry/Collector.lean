import OperatorDispatch.Number.Double

/-!
# The collector

Counters are announced to a collector outside the engine, which is asked to
create each series once, and then for every amount that is added to it.  What
it refuses is its own affair, so the collector is a parameter: two questions
and their answers.

`Collector.standard` is a collector for which counters export several names
each, and which refuses a series that would export a name of another one.
-/

namespace OperatorDispatch

/-- A counter as announced to the collector: its name and label names. -/
structure Series where
  name : String
  labels : List String
deriving DecidableEq

structure Collector where
  /-- Whether a series is created, given those that have been. -/
  creates : (created : List Series) → Series → Bool
  /-- Whether a counter takes an amount. -/
  accepts : (amount : Double) → Bool

/-- Why the collector refuses an increment. -/
inductive IncrementRefusal where
  | duplicateSeries
  | negativeAmount
deriving DecidableEq, Repr

/-! ## Exported names -/

namespace Series

/-- The name without the ending that counters export under. -/
def baseName (name : String) : String :=
  let cs := name.toList
  if "_total".toList.isSuffixOf cs then String.ofList (cs.take (cs.length - 6)) else name

/-- The names that a counter exports. -/
def exported (s : Series) : List String :=
  let base := baseName s.name
  [base, base ++ "_total", base ++ "_created"]

/-- Whether two counters export a name in common. -/
def clashes (s t : Series) : Bool :=
  s.exported.any t.exported.contains

end Series

/-- The collector that refuses exported names that are taken and amounts below
zero. -/
def Collector.standard : Collector where
  creates created s := !created.any s.clashes
  accepts amount := !(amount.negative && !amount.isZero)

end OperatorDispatch
