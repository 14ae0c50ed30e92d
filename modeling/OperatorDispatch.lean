import OperatorDispatch.Command
import OperatorDispatch.Container
import OperatorDispatch.Definition
import OperatorDispatch.Describe
import OperatorDispatch.Dispatch
import OperatorDispatch.Dispatch.Application
import OperatorDispatch.Dispatch.Decision
import OperatorDispatch.Dispatch.History
import OperatorDispatch.Engine
import OperatorDispatch.Evaluation
import OperatorDispatch.Expression
import OperatorDispatch.Fault
import OperatorDispatch.Heap
import OperatorDispatch.Lookup
import OperatorDispatch.Native
import OperatorDispatch.Native.Arithmetic
import OperatorDispatch.Native.Comparison
import OperatorDispatch.Native.Fault
import OperatorDispatch.Native.Word
import OperatorDispatch.Number.Double
import OperatorDispatch.Number.Enclosure
import OperatorDispatch.Number.Estimate
import OperatorDispatch.Number.Power
import OperatorDispatch.Number.Shortest
import OperatorDispatch.Number.Text
import OperatorDispatch.Operator
import OperatorDispatch.OrderedMap
import OperatorDispatch.Policy
import OperatorDispatch.Primitive
import OperatorDispatch.Registry
import OperatorDispatch.Selector
import OperatorDispatch.Session
import OperatorDispatch.Settings
import OperatorDispatch.Slot
import OperatorDispatch.Snapshot
import OperatorDispatch.State
import OperatorDispatch.Telemetry.Attributes
import OperatorDispatch.Telemetry.Journal
import OperatorDispatch.Telemetry.Ledger
import OperatorDispatch.Text.Character
import OperatorDispatch.Text.Integer
import OperatorDispatch.Text.Printable
import OperatorDispatch.Text.Quoted
import OperatorDispatch.Value
import OperatorDispatch.View
import OperatorDispatch.Proofs.Accounting
import OperatorDispatch.Proofs.Actions
import OperatorDispatch.Proofs.Adoption
import OperatorDispatch.Proofs.Alike
import OperatorDispatch.Proofs.Ancestry
import OperatorDispatch.Proofs.Assignment
import OperatorDispatch.Proofs.Blindness
import OperatorDispatch.Proofs.Bookkeeping
import OperatorDispatch.Proofs.Books
import OperatorDispatch.Proofs.Closure
import OperatorDispatch.Proofs.Commands
import OperatorDispatch.Proofs.Conduct
import OperatorDispatch.Proofs.Confinement
import OperatorDispatch.Proofs.Containers
import OperatorDispatch.Proofs.Copy
import OperatorDispatch.Proofs.Counters
import OperatorDispatch.Proofs.Declarations
import OperatorDispatch.Proofs.Definitions
import OperatorDispatch.Proofs.Descriptions
import OperatorDispatch.Proofs.Dispatching
import OperatorDispatch.Proofs.Displacement
import OperatorDispatch.Proofs.Enclosures
import OperatorDispatch.Proofs.Endings
import OperatorDispatch.Proofs.Equalities
import OperatorDispatch.Proofs.Evaluation
import OperatorDispatch.Proofs.Exponentiation
import OperatorDispatch.Proofs.Failures
import OperatorDispatch.Proofs.Fallbacks
import OperatorDispatch.Proofs.Faithful
import OperatorDispatch.Proofs.Increments
import OperatorDispatch.Proofs.Indifference
import OperatorDispatch.Proofs.IntegerTexts
import OperatorDispatch.Proofs.Isolation
import OperatorDispatch.Proofs.Knots
import OperatorDispatch.Proofs.Labels
import OperatorDispatch.Proofs.Levels
import OperatorDispatch.Proofs.Mutations
import OperatorDispatch.Proofs.Negation
import OperatorDispatch.Proofs.Numbers
import OperatorDispatch.Proofs.Objects
import OperatorDispatch.Proofs.Observation
import OperatorDispatch.Proofs.Origins
import OperatorDispatch.Proofs.Overrides
import OperatorDispatch.Proofs.Ownership
import OperatorDispatch.Proofs.Parallel
import OperatorDispatch.Proofs.Paths
import OperatorDispatch.Proofs.Plain
import OperatorDispatch.Proofs.Positions
import OperatorDispatch.Proofs.Postfix
import OperatorDispatch.Proofs.Powers
import OperatorDispatch.Proofs.Quotients
import OperatorDispatch.Proofs.Reachability
import OperatorDispatch.Proofs.ReadOnly
import OperatorDispatch.Proofs.Refusals
import OperatorDispatch.Proofs.Registration
import OperatorDispatch.Proofs.Registries
import OperatorDispatch.Proofs.Rejections
import OperatorDispatch.Proofs.Relations
import OperatorDispatch.Proofs.Reproduction
import OperatorDispatch.Proofs.Requests
import OperatorDispatch.Proofs.Rounding
import OperatorDispatch.Proofs.Scope
import OperatorDispatch.Proofs.Sealing
import OperatorDispatch.Proofs.Settlement
import OperatorDispatch.Proofs.Sharing
import OperatorDispatch.Proofs.Sites
import OperatorDispatch.Proofs.Slots
import OperatorDispatch.Proofs.Stability
import OperatorDispatch.Proofs.Steps
import OperatorDispatch.Proofs.Surfacing
import OperatorDispatch.Proofs.Tally
import OperatorDispatch.Proofs.Tandem
import OperatorDispatch.Proofs.Tandem.Commands
import OperatorDispatch.Proofs.Tandem.Containers
import OperatorDispatch.Proofs.Tandem.Definitions
import OperatorDispatch.Proofs.Transparency
import OperatorDispatch.Proofs.Verdicts
import OperatorDispatch.Proofs.Window
import OperatorDispatch.Proofs.Words
import OperatorDispatch.Proofs.Environments
import OperatorDispatch.Proofs.Remainders
