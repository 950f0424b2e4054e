import OpenHost.Outcome
import OpenHost.BigEndian
import OpenHost.Decoding
import OpenHost.OrderedMap
import OpenHost.Identity
import OpenHost.Resource
import OpenHost.Lease
import OpenHost.Participant
import OpenHost.Scheduler
import OpenHost.Execution
import OpenHost.VirtualMachine
import OpenHost.Control
import OpenHost.LeaseGrant
import OpenHost.CreationAtomicity
import OpenHost.PlaneRuns
import OpenHost.Teardown
import OpenHost.ReferentialIntegrity
import OpenHost.Sections
import OpenHost.Interleavings
import OpenHost.LostUpdates
import OpenHost.LeaseLifetime
import OpenHost.LeasedPipeline
import OpenHost.Transport
import OpenHost.WireGrammar
import OpenHost.WireFrame
import OpenHost.WireSafety
import OpenHost.WireRoundTrip
import OpenHost.ClientAuthorization
import OpenHost.PlanOrder
import OpenHost.Membership
import OpenHost.Convergence
import OpenHost.ReleasedLeases
import OpenHost.WireCanonical
import OpenHost.WireResponse
import OpenHost.Dispatch
import OpenHost.DispatchRefinement
import OpenHost.ConnectionPool
import OpenHost.GracefulShutdown
import OpenHost.BlockedAcceptor
import OpenHost.CappedSum
import OpenHost.Composition
import OpenHost.PlanExactness
import OpenHost.LeaseBinding
import OpenHost.Allowlist
import OpenHost.MachineRuns
import OpenHost.ParallelDispatch
import OpenHost.DebugText
import OpenHost.RequestAnswers
import OpenHost.LeasedCapacity
import OpenHost.DetachedThreads
import OpenHost.ServeN
import OpenHost.Freshness
import OpenHost.PrefixFree
import OpenHost.RequestNames
import OpenHost.Progress
import OpenHost.ShutdownProgress
import OpenHost.Serving
import OpenHost.Clients
import OpenHost.MachineLedger
import OpenHost.PublishedMachines
import OpenHost.Peers
import OpenHost.MutualTls
import OpenHost.Registration
import OpenHost.Runtime
import OpenHost.RuntimeTable
import OpenHost.DistributedExecution
import OpenHost.PlanShares
import OpenHost.BackendAgreement
import OpenHost.LeasedRuntimes
import OpenHost.Fabric
import OpenHost.FabricLeases
import OpenHost.Readers
import OpenHost.EndpointTable
import OpenHost.GrowingTable
import OpenHost.BrokenLinks
import OpenHost.TextParsing
import OpenHost.Locators
