import ZeroTrustFL.Lib.OrdMap
import ZeroTrustFL.Lib.OrdList
import ZeroTrustFL.Lib.Sha256
import ZeroTrustFL.Lib.Text
import ZeroTrustFL.Lib.Time
import ZeroTrustFL.Lib.Run
import ZeroTrustFL.Lib.Threads
import ZeroTrustFL.Lib.PrefixCode
import ZeroTrustFL.Lib.OrderStatistics
import ZeroTrustFL.Lib.Bitonic
import ZeroTrustFL.Lib.Barrier
import ZeroTrustFL.Lib.Stride
import ZeroTrustFL.Security.Registration
import ZeroTrustFL.Security.RegistrationProof
import ZeroTrustFL.Security.StoreRun
import ZeroTrustFL.Security.Validity
import ZeroTrustFL.Security.Binding
import ZeroTrustFL.Security.Resemblance
import ZeroTrustFL.Lib.Float
import ZeroTrustFL.Lib.FloatRound
import ZeroTrustFL.Lib.FloatSub
import ZeroTrustFL.Lib.Memory
import ZeroTrustFL.Lib.CheckedFold
import ZeroTrustFL.Coordinator.Npy
import ZeroTrustFL.Coordinator.NpySafety
import ZeroTrustFL.Coordinator.Schema
import ZeroTrustFL.Coordinator.Messages
import ZeroTrustFL.Coordinator.Aggregation
import ZeroTrustFL.Coordinator.Service
import ZeroTrustFL.Coordinator.Sections
import ZeroTrustFL.Coordinator.ServiceProof
import ZeroTrustFL.Coordinator.Round
import ZeroTrustFL.Coordinator.Replay
import ZeroTrustFL.Worker.Training
import ZeroTrustFL.Worker.Schema
import ZeroTrustFL.Worker.Composition
import ZeroTrustFL.Worker.Privacy
import ZeroTrustFL.Aggregation.Native
import ZeroTrustFL.Aggregation.Breakdown
import ZeroTrustFL.Aggregation.Krum
import ZeroTrustFL.Aggregation.Parity
import ZeroTrustFL.Aggregation.Cuda
import ZeroTrustFL.Aggregation.CudaProof
import ZeroTrustFL.Protocompat.Check
import ZeroTrustFL.Protocompat.CheckProof
import ZeroTrustFL.Protocompat.Retired
import ZeroTrustFL.Coordinator.Snapshot
import ZeroTrustFL.Coordinator.SnapshotProof
import ZeroTrustFL.Coordinator.Sound
import ZeroTrustFL.Coordinator.Isolation
import ZeroTrustFL.Coordinator.DeadCredential
import ZeroTrustFL.Coordinator.Audit
import ZeroTrustFL.Coordinator.Durable
import ZeroTrustFL.Coordinator.DurableProof
import ZeroTrustFL.Coordinator.AuditProof
import ZeroTrustFL.Coordinator.Construction
import ZeroTrustFL.Coordinator.Recovery
import ZeroTrustFL.Coordinator.Agreement
import ZeroTrustFL.Coordinator.Resemblance
import ZeroTrustFL.Coordinator.Restart
import ZeroTrustFL.Coordinator.AuditTrail
import ZeroTrustFL.Coordinator.AuditChain
import ZeroTrustFL.Coordinator.AuditChainProof
import ZeroTrustFL.Coordinator.AuditPages
import ZeroTrustFL.Coordinator.StateStore
import ZeroTrustFL.Coordinator.StateStoreProof
import ZeroTrustFL.Coordinator.StoreRefinement
import ZeroTrustFL.Coordinator.Upgrade
import ZeroTrustFL.Recovery.Manifest
import ZeroTrustFL.Recovery.Bundle
import ZeroTrustFL.Recovery.BundleProof
import ZeroTrustFL.Recovery.RoundTrip
import ZeroTrustFL.Recovery.RestoreFailure
import ZeroTrustFL.Simulation.Protocol
import ZeroTrustFL.Simulation.ProtocolProof
import ZeroTrustFL.Simulation.Partitioner
import ZeroTrustFL.Aggregation.Median
import ZeroTrustFL.Aggregation.Backends
import ZeroTrustFL.Aggregation.Simd
import ZeroTrustFL.Aggregation.CudaDistance
import ZeroTrustFL.Coordinator.Envelope
import ZeroTrustFL.Coordinator.NpyRoundTrip
import ZeroTrustFL.Coordinator.WeightedMean
import ZeroTrustFL.Worker.Ckks
import ZeroTrustFL.Simulation.Counts
import ZeroTrustFL.Lib.RateWindow
import ZeroTrustFL.Coordinator.RateLimit
import ZeroTrustFL.Coordinator.OneSchema
import ZeroTrustFL.Coordinator.MedianBounds
import ZeroTrustFL.Coordinator.FaultyMinority
import ZeroTrustFL.Coordinator.Secured
import ZeroTrustFL.Coordinator.FileCommit
import ZeroTrustFL.Coordinator.Enrolment
