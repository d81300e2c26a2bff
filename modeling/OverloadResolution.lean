import OverloadResolution.Assessment
import OverloadResolution.Call
import OverloadResolution.CommandLine.Commands
import OverloadResolution.CommandLine.Options
import OverloadResolution.CommandLine.Tool
import OverloadResolution.Conversion
import OverloadResolution.Declarations
import OverloadResolution.Diagnostic
import OverloadResolution.Execution
import OverloadResolution.Failure
import OverloadResolution.Fit
import OverloadResolution.Main
import OverloadResolution.Numeral.Binary64
import OverloadResolution.Numeral.Decimal
import OverloadResolution.Numeral.Literal
import OverloadResolution.Numeral.Rounding
import OverloadResolution.Numeral.Significant
import OverloadResolution.Overload
import OverloadResolution.Parameter
import OverloadResolution.Proofs.Agreement
import OverloadResolution.Proofs.Arithmetic
import OverloadResolution.Proofs.Assignability
import OverloadResolution.Proofs.Blame
import OverloadResolution.Proofs.Bodies
import OverloadResolution.Proofs.Building
import OverloadResolution.Proofs.Cancellation
import OverloadResolution.Proofs.Combining
import OverloadResolution.Proofs.Commands
import OverloadResolution.Proofs.Completion
import OverloadResolution.Proofs.Conservativity
import OverloadResolution.Proofs.Conversion
import OverloadResolution.Proofs.Delivery
import OverloadResolution.Proofs.Effects
import OverloadResolution.Proofs.Fitting
import OverloadResolution.Proofs.FloatingTokens
import OverloadResolution.Proofs.Independence
import OverloadResolution.Proofs.IntegerTokens
import OverloadResolution.Proofs.Layering
import OverloadResolution.Proofs.Leaders
import OverloadResolution.Proofs.Lines
import OverloadResolution.Proofs.Literals
import OverloadResolution.Proofs.Matching
import OverloadResolution.Proofs.Messages
import OverloadResolution.Proofs.Nearest
import OverloadResolution.Proofs.Nullability
import OverloadResolution.Proofs.Observing
import OverloadResolution.Proofs.OptionLists
import OverloadResolution.Proofs.Ordering
import OverloadResolution.Proofs.Overriding
import OverloadResolution.Proofs.Provenance
import OverloadResolution.Proofs.Ranking
import OverloadResolution.Proofs.Readiness
import OverloadResolution.Proofs.Recording
import OverloadResolution.Proofs.Resolving
import OverloadResolution.Proofs.Searching
import OverloadResolution.Proofs.Sessions
import OverloadResolution.Proofs.Stability
import OverloadResolution.Proofs.TokenCalls
import OverloadResolution.Proofs.ToolContract
import OverloadResolution.Proofs.TraceLines
import OverloadResolution.Proofs.Tracing
import OverloadResolution.Proofs.Typing
import OverloadResolution.Proofs.Varargs
import OverloadResolution.Proofs.Walk
import OverloadResolution.Reader
import OverloadResolution.Registry.Basic
import OverloadResolution.Registry.Builtin
import OverloadResolution.Resolution
import OverloadResolution.Selection
import OverloadResolution.Settings
import OverloadResolution.Trace
import OverloadResolution.Ty
import OverloadResolution.Value
import OverloadResolution.World
