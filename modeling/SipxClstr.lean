import SipxClstr.Reactive.Run
import SipxClstr.Sip.Text
import SipxClstr.Sip.Sha256
import SipxClstr.Sip.Message
import SipxClstr.Sip.Kernel
import SipxClstr.Sip.Digest
import SipxClstr.Sip.Reference
import SipxClstr.Sip.ReferenceDigest
import SipxClstr.Proxy.Config
import SipxClstr.Proxy.Cookie
import SipxClstr.Proxy.Types
import SipxClstr.Proxy.Validate
import SipxClstr.Proxy.Route
import SipxClstr.Proxy.Carriage
import SipxClstr.Proxy.Forward
import SipxClstr.Proxy.Context
import SipxClstr.Proxy.Outcome
import SipxClstr.Proxy.Step
import SipxClstr.Proxy.Reachable
import SipxClstr.Proxy.Acceptance
import SipxClstr.Proxy.Branches
import SipxClstr.Proxy.Cancellation
import SipxClstr.Proxy.OwedCancel
import SipxClstr.Proxy.FinalAnswer
import SipxClstr.Proxy.Withdrawal
import SipxClstr.Proxy.TokenGate
import SipxClstr.Proxy.ReturnPath
import SipxClstr.Proxy.Progress
import SipxClstr.Registrar.Auth
import SipxClstr.Registrar.Soundness
import SipxClstr.Wire.Framing
import SipxClstr.Sip.Utf8
import SipxClstr.Proxy.BranchFormat
import SipxClstr.Proxy.Groups
import SipxClstr.Proxy.BranchIds
import SipxClstr.Proxy.LoopDetection
import SipxClstr.Proxy.CopyHeaders
import SipxClstr.Proxy.Flight
import SipxClstr.Proxy.Schedule
import SipxClstr.Proxy.Selection
import SipxClstr.Registrar.Binding
import SipxClstr.Registrar.Command
import SipxClstr.Registrar.Process
import SipxClstr.Registrar.Reconcile
import SipxClstr.Registrar.Lookup
import SipxClstr.Registrar.Reference
import SipxClstr.Registrar.History
import SipxClstr.Registrar.CreationOrder
import SipxClstr.Registrar.Matching
import SipxClstr.Registrar.Spelling
import SipxClstr.Registrar.Delivery
import SipxClstr.Registrar.Retransmission
import SipxClstr.Registrar.Store
import SipxClstr.Registrar.Drivers
import SipxClstr.Wire.Buffer
import SipxClstr.Affinity.Keys
import SipxClstr.Affinity.Token
import SipxClstr.Affinity.Image
import SipxClstr.Node.IpAddr
import SipxClstr.Node.Listen
import SipxClstr.Node.Identity
import SipxClstr.Probe.Engine
import SipxClstr.Probe.Progress
import SipxClstr.Affinity.Codec
import SipxClstr.Affinity.Pair
import SipxClstr.Affinity.Rotation
import SipxClstr.Data.Sorted
import SipxClstr.Data.Traverse
import SipxClstr.Document.Accepted
import SipxClstr.Document.KeyReload
import SipxClstr.Document.Rules
import SipxClstr.Document.Secrets
import SipxClstr.Node.Driver
import SipxClstr.Node.Postgres
import SipxClstr.Node.References
import SipxClstr.Node.Refinement
import SipxClstr.Node.Register
import SipxClstr.Node.Return
import SipxClstr.Node.TenantPolicy
import SipxClstr.Probe.Attribution
import SipxClstr.Probe.Verdict
import SipxClstr.Proxy.TokenPair
import SipxClstr.Registrar.Faults
import SipxClstr.Registrar.Frame
import SipxClstr.Registrar.Paths
import SipxClstr.Registrar.Plain
import SipxClstr.Simulation.Net
import SipxClstr.Simulation.Engine
import SipxClstr.Affinity.Base64
import SipxClstr.Data.Naming
import SipxClstr.Document.LogicalIds
import SipxClstr.Node.RegisterResponse
import SipxClstr.Probe.Schedule
import SipxClstr.Proxy.Ack
import SipxClstr.Proxy.Challenges
import SipxClstr.Proxy.Itinerary
import SipxClstr.Proxy.Transparency
import SipxClstr.Reactive.Journal
import SipxClstr.Registrar.PathRows
import SipxClstr.Simulation.Order
import SipxClstr.Simulation.Processes
import SipxClstr.Simulation.Timers
import SipxClstr.Simulation.Draws
import SipxClstr.Data.Calendar
import SipxClstr.Document.Endpoints
import SipxClstr.Document.EveryFault
import SipxClstr.Document.Shards
import SipxClstr.Document.Timestamps
import SipxClstr.Data.Separated
import SipxClstr.Document.Reordering
import SipxClstr.Document.Classification
import SipxClstr.Reactive.Channel
import SipxClstr.Simulation.Streams
import SipxClstr.Simulation.Conservation
import SipxClstr.Reactive.Delegation
import SipxClstr.Proxy.Amplification
import SipxClstr.Probe.Echo
import SipxClstr.Proxy.Relay
import SipxClstr.Reactive.Network
import SipxClstr.Probe.Call
import SipxClstr.Data.Window
import SipxClstr.Registrar.Feed
import SipxClstr.Reactive.Pool
import SipxClstr.Node.Admission
import SipxClstr.Node.Ringing
import SipxClstr.Node.Provenance
import SipxClstr.Simulation.Stops
