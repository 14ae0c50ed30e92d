import OperatorDispatch.Fault
import OperatorDispatch.Telemetry.Ledger
import OperatorDispatch.Text.Character
import OperatorDispatch.Value

/-!
# Settings

The settings of a dispatcher and how they are read from environment
variables.  A variable that is absent or blank leaves its setting as it is by
default, and each setting looks at its own variable only.
-/

namespace OperatorDispatch

structure Settings where
  /-- Whether each dispatch is wrapped in a span. -/
  traceSpans : Bool
  /-- Whether the outcome of each dispatch is counted. -/
  recordMetrics : Bool
  /-- The answer of the not-a-number fallback. -/
  sentinel : Value
  /-- How many spans the ledger is to keep. -/
  ledgerLimit : Int

/-- Environment variables. -/
abbrev Environment := OrderedMap String String

namespace Settings

def standard : Settings := ⟨true, true, .double .nan, Ledger.defaultLimit⟩

/-- The words that switch a flag off. -/
def offWords : List String := ["0", "false", "no", "off"]

/-- The text of a variable, where there is any but blanks. -/
def present? (environment : Environment) (name : String) : Option String :=
  match environment.get? name with
  | some text => if text.toList.all isBlank then none else some text
  | none => none

/-- Whether a flag is on.  Capitals and blanks around the word do not matter.
No capital outside ASCII has a small letter that occurs in the off words, so
ASCII capitals are all that is to be lowered. -/
def flag (environment : Environment) (name : String) : Bool :=
  match present? environment name with
  | none => true
  | some text =>
    let word := String.ofList ((trimBoth isBlank text.toList).map Char.toLower)
    !offWords.contains word

/-- An integer setting. -/
def integer (environment : Environment) (name : String) (absent : Int) : Except Fault Int :=
  match present? environment name with
  | none => .ok absent
  | some text =>
    match readInteger text with
    | .ok n => .ok n
    | .error .malformed => .error (.malformedInteger text)
    | .error (.tooLong digits) => .error (.integerTooLong digits)

/-- The settings that an environment asks for. -/
def ofEnvironment (environment : Environment) : Except Fault Settings :=
  match integer environment "ODRE_LEDGER_LIMIT" Ledger.defaultLimit with
  | .error fault => .error fault
  | .ok limit => .ok {
      standard with
      traceSpans := flag environment "ODRE_TRACE_SPANS"
      recordMetrics := flag environment "ODRE_RECORD_METRICS"
      ledgerLimit := limit }

end Settings

end OperatorDispatch
