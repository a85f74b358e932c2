import PulseAgent.Go.Utf8
import PulseAgent.Go.Text
import PulseAgent.Go.Sha256
import PulseAgent.Go.Json
import PulseAgent.Go.JsonRoundTrip
import PulseAgent.Go.Time
import PulseAgent.Go.Duration
import PulseAgent.Go.JsonCodec
import PulseAgent.Go.JsonClean
import PulseAgent.Go.JsonSize
import PulseAgent.Go.Float
import PulseAgent.Go.Errors
import PulseAgent.Go.Regexp
import PulseAgent.Go.TreeMap
import PulseAgent.Go.JsonTable
import PulseAgent.Contract.Types
import PulseAgent.Contract.Codecs
import PulseAgent.Contract.Decode
import PulseAgent.Contract.Accepted
import PulseAgent.Contract.Clean
import PulseAgent.Contract.Checks
import PulseAgent.Store
import PulseAgent.Concurrent.Program
import PulseAgent.Concurrent.Pool
import PulseAgent.Concurrent.Sequential
import PulseAgent.Policy
import PulseAgent.Policy.Specification
import PulseAgent.Policy.Independence
import PulseAgent.Redaction
import PulseAgent.Audit.Chain
import PulseAgent.Audit.Append
import PulseAgent.Recovery.Record
import PulseAgent.Recovery.Journal
import PulseAgent.Recovery.Lifecycle
import PulseAgent.Recovery.Effect
import PulseAgent.Recovery.Readback
import PulseAgent.Recovery.Scan
import PulseAgent.Recovery.Approval
import PulseAgent.Recovery.Decision
import PulseAgent.Stabilization.Record
import PulseAgent.Recovery.Interface
import PulseAgent.Recovery.Coordinator
import PulseAgent.Stabilization.Verifier
import PulseAgent.Recovery.System
import PulseAgent.Recovery.Guarantee
import PulseAgent.Recovery.Effects
import PulseAgent.Recovery.Encoding
import PulseAgent.Recovery.Legible
import PulseAgent.Recovery.Reads
import PulseAgent.Recovery.Index
import PulseAgent.Stabilization.Results
import PulseAgent.Stabilization.Final
import PulseAgent.Stabilization.Sampling
import PulseAgent.Stabilization.Cadence
import PulseAgent.Stabilization.Deadline
import PulseAgent.Stabilization.Retry
import PulseAgent.Recovery.Attempts
import PulseAgent.Recovery.Agreement
import PulseAgent.Recovery.Reconcile
import PulseAgent.Correlator.Incident
import PulseAgent.Correlator.Stored
import PulseAgent.Correlator.Lifecycle
import PulseAgent.Correlator.Replay
import PulseAgent.Correlator.Isolation
import PulseAgent.Go.Base64
import PulseAgent.Linked
import PulseAgent.Audit.Commitment
import PulseAgent.Audit.Programs
import PulseAgent.Correlator.Order
import PulseAgent.Correlator.Absorption
import PulseAgent.Webhook.Standard
import PulseAgent.Delivery.Queue
import PulseAgent.Delivery.Dispatcher
import PulseAgent.Delivery.Effect
import PulseAgent.Lifecycle.Publisher
import PulseAgent.Report.Publisher
import PulseAgent.Delivery.System
import PulseAgent.Delivery.Readback
import PulseAgent.Delivery.Stored
import PulseAgent.Delivery.Lifetime
import PulseAgent.Delivery.Backoff
import PulseAgent.Delivery.Pairing
import PulseAgent.Lifecycle.Repeat
import PulseAgent.Report.Stored
import PulseAgent.Report.Repeat
import PulseAgent.Go.JsonRaw
import PulseAgent.Store.Migration
import PulseAgent.Runbook.Pair
import PulseAgent.Runbook.Authorize
import PulseAgent.Audit.Registration
import PulseAgent.Target.Registry
import PulseAgent.AdminIPC.Protocol
import PulseAgent.Go.Ascii
import PulseAgent.Go.JsonBounds
import PulseAgent.Target.Document
import PulseAgent.Target.Restart
import PulseAgent.Audit.Acceptance
import PulseAgent.Target.Admission
import PulseAgent.Go.Sort
import PulseAgent.Incident.Query
import PulseAgent.Webhook.Verify
import PulseAgent.Go.FloatOrder
import PulseAgent.Go.TimeOrder
import PulseAgent.Observer.Evaluate
import PulseAgent.Observer.Debounce
import PulseAgent.Observer.Bound
import PulseAgent.Observer.Cycle
import PulseAgent.Observer.Spacing
import PulseAgent.Observer.Coverage
import PulseAgent.Go.Lines
import PulseAgent.Evidence.Collector
import PulseAgent.Evidence.Content
import PulseAgent.Evidence.Clean
import PulseAgent.Docker.Logs
import PulseAgent.LLM.Bounded
import PulseAgent.Standalone.Drain
import PulseAgent.Alert.Ingress
import PulseAgent.Alert.Receipts
import PulseAgent.Alert.Replay
import PulseAgent.Go.Bufio
import PulseAgent.Go.JsonLine
import PulseAgent.Contract.Strings
import PulseAgent.AdminIPC.Wire
