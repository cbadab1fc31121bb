import ScriptEvents.Config
import ScriptEvents.Directive
import ScriptEvents.Listener
import ScriptEvents.Lifecycle
import ScriptEvents.Scenario.Play
import ScriptEvents.Proofs.Machine.Trace
import ScriptEvents.Proofs.Machine.Act
import ScriptEvents.Proofs.Machine.Course
import ScriptEvents.Proofs.Machine.Step
import ScriptEvents.Proofs.Lifecycle.Roll
import ScriptEvents.Proofs.IdSource.Distinct
import ScriptEvents.Proofs.Lifecycle.Departure
import ScriptEvents.Proofs.Registry.Handles
import ScriptEvents.Proofs.Lifecycle.Docket
import ScriptEvents.Proofs.Lifecycle.Firing
import ScriptEvents.Proofs.Machine.Nesting
import ScriptEvents.Proofs.Machine.Contract
import ScriptEvents.Proofs.Registry.Provenance
import ScriptEvents.Proofs.Registry.Expressions
import ScriptEvents.Proofs.Registry.Invocations
import ScriptEvents.Proofs.Registry.Completion
import ScriptEvents.Proofs.Registry.Supply
import ScriptEvents.Proofs.Registry.Teardown
import ScriptEvents.Proofs.Lifecycle.Accounts
import ScriptEvents.Proofs.Registry.Enrollment
import ScriptEvents.Proofs.IdSource.Sequence
import ScriptEvents.Proofs.Registry.Identity
import ScriptEvents.Proofs.Lifecycle.Reception
import ScriptEvents.Proofs.Lifecycle.Delivery
import ScriptEvents.Proofs.Lifecycle.Reckoning
import ScriptEvents.Proofs.Registry.Handover
import ScriptEvents.Proofs.Registry.Ignoring
import ScriptEvents.Proofs.Machine.Host
import ScriptEvents.Proofs.Registry.Isolation
import ScriptEvents.Proofs.Procedures.Call
import ScriptEvents.Proofs.Procedures.Registering
import ScriptEvents.Proofs.Procedures.Cancelling
import ScriptEvents.Proofs.Registry.Precedence
import ScriptEvents.Proofs.Json.Lexing
import ScriptEvents.Proofs.Json.Parsing
import ScriptEvents.Proofs.Json.Printing
import ScriptEvents.Proofs.Config.Reading
import ScriptEvents.Proofs.HostValue.Coercion
import ScriptEvents.Proofs.Registry.Conclusion
import ScriptEvents.Proofs.Procedures.Attendance
import ScriptEvents.Proofs.Registry.Settlement
import ScriptEvents.Proofs.HostValue.Staging
import ScriptEvents.Proofs.IdSource.Namespaces
import ScriptEvents.Proofs.Number.ExactValue
import ScriptEvents.Proofs.Procedures.Naming
import ScriptEvents.Proofs.Directive.LastWrite
import ScriptEvents.Proofs.Text.Numerals
import ScriptEvents.Proofs.Text.Endings
import ScriptEvents.Proofs.Value.Legibility
