import OperatorDispatch.Telemetry.Attributes
import OperatorDispatch.Telemetry.Collector

/-!
# The ledger

What the engine did, kept in process: the newest spans up to a limit, and one
total for each counter name and attribute map.  An increment is handed on to
the collector, which may refuse the series or the amount; the ledger has been
written by then and keeps what it was given.
-/

namespace OperatorDispatch

/-! ## Spans -/

/-- A finished stretch of work. -/
structure Span where
  name : String
  attributes : Attributes
  failed : Bool
deriving DecidableEq

/-- What a counter is known by. -/
structure CounterKey where
  name : String
  attributes : Attributes
deriving DecidableEq

/-! ## The ledger -/

/-- Spans oldest first, totals in the order of their first increment, and the
collector with the series that it has created. -/
structure Ledger where
  spans : List Span
  limit : Nat
  counters : OrderedMap CounterKey Double
  series : List Series
  collector : Collector

namespace Ledger

/-- The limit in force where none has been set. -/
def defaultLimit : Nat := 1024

/-- A ledger without entries, beside a collector that has created nothing. -/
def empty (collector : Collector) : Ledger := ⟨[], defaultLimit, .empty, [], collector⟩

/-- The newest spans, at most `limit` of them. -/
def newest (limit : Nat) (spans : List Span) : List Span :=
  spans.drop (spans.length - limit)

/-- A finished span recorded; the oldest one goes where the limit is passed. -/
def record (l : Ledger) (span : Span) : Ledger :=
  { l with spans := newest l.limit (l.spans ++ [span]) }

/-- The ledger under another limit. -/
def withLimit (l : Ledger) (limit : Nat) : Ledger :=
  { l with limit, spans := newest limit l.spans }

/-- The ledger without spans and totals.  The collector forgets nothing. -/
def reset (l : Ledger) : Ledger :=
  { l with spans := [], counters := .empty }

/-- The total of a counter. -/
def total (l : Ledger) (key : CounterKey) : Double :=
  (l.counters.get? key).getD .zero

/-- The total of a counter with an amount added. -/
def add (l : Ledger) (key : CounterKey) (amount : Double) : Ledger :=
  { l with counters := l.counters.insert key ((l.total key).add amount) }

/-- A counter announced to the collector, which creates each series once. -/
def announce (l : Ledger) (s : Series) : Except IncrementRefusal Ledger :=
  if l.series.contains s then .ok l
  else if l.collector.creates l.series s then .ok { l with series := l.series ++ [s] }
  else .error .duplicateSeries

/-- An increment: the total first, then the announcement, then the collector's
look at the amount. -/
def increment (l : Ledger) (key : CounterKey) (amount : Double) :
    Ledger × Option IncrementRefusal :=
  let l := l.add key amount
  match l.announce ⟨key.name, key.attributes.names⟩ with
  | .error refusal => (l, some refusal)
  | .ok l => if l.collector.accepts amount then (l, none) else (l, some .negativeAmount)

/-! ## Reading the totals -/

/-- The order of counters in a report: by name, then by attributes. -/
def before (x y : CounterKey) : Bool :=
  if x.name = y.name then Attributes.before x.attributes y.attributes
  else decide (x.name < y.name)

/-- A total put before the first greater one. -/
def insertCounter (e : CounterKey × Double) :
    List (CounterKey × Double) → List (CounterKey × Double)
  | [] => [e]
  | f :: fs => if before e.1 f.1 then e :: f :: fs else f :: insertCounter e fs

/-- The totals in the order of a report. -/
def sortedCounters (l : Ledger) : List (CounterKey × Double) :=
  l.counters.entries.foldr insertCounter []

end Ledger

end OperatorDispatch
