import CongestionObservatory.Lib.MachineOrder
import CongestionObservatory.Lib.OrdMap
import CongestionObservatory.Lib.ScopedEnum
import CongestionObservatory.Lib.Run
import CongestionObservatory.Lib.Sort
import CongestionObservatory.Lib.LittleEndian
import CongestionObservatory.Lib.Decoder
import CongestionObservatory.Lib.Difference
import CongestionObservatory.Lib.Room
import CongestionObservatory.Lib.NumberOrder
import CongestionObservatory.Core.Basic
import CongestionObservatory.Core.Time
import CongestionObservatory.Core.Name
import CongestionObservatory.Core.Hash
import CongestionObservatory.Core.Scalar
import CongestionObservatory.Core.Arithmetic
import CongestionObservatory.Core.Limits
import CongestionObservatory.Model.Identities
import CongestionObservatory.Model.Generation
import CongestionObservatory.Model.Topology
import CongestionObservatory.Evidence.Evidence
import CongestionObservatory.Evidence.Store
import CongestionObservatory.Assessment.Policy
import CongestionObservatory.Assessment.Classify
import CongestionObservatory.Episode.Episode
import CongestionObservatory.Persistence.Bytes
import CongestionObservatory.Persistence.Snapshot
import CongestionObservatory.Localization.Graph
import CongestionObservatory.Persistence.Store
import CongestionObservatory.Runtime.Runtime
import CongestionObservatory.Proofs.Core.Crc
import CongestionObservatory.Proofs.Model.Generation
import CongestionObservatory.Proofs.Evidence.StoreCases
import CongestionObservatory.Proofs.Evidence.Fencing
import CongestionObservatory.Proofs.Evidence.Influence
import CongestionObservatory.Proofs.Evidence.Representation
import CongestionObservatory.Proofs.Assessment.Decisive
import CongestionObservatory.Proofs.Assessment.OrderIndependence
import CongestionObservatory.Proofs.Episode.History
import CongestionObservatory.Proofs.Episode.Lifecycle
import CongestionObservatory.Proofs.Persistence.Crash
import CongestionObservatory.Proofs.Persistence.Fields
import CongestionObservatory.Proofs.Persistence.Frame
import CongestionObservatory.Proofs.Persistence.Damage
import CongestionObservatory.Proofs.Model.Topology
import CongestionObservatory.Proofs.Persistence.RoundTrip
import CongestionObservatory.Proofs.Persistence.Accepted
import CongestionObservatory.Proofs.Persistence.SaveLoad
import CongestionObservatory.Proofs.Persistence.Reload
import CongestionObservatory.Proofs.Evidence.Provenance
import CongestionObservatory.Proofs.Runtime.Soundness
import CongestionObservatory.Proofs.Runtime.Restore
import CongestionObservatory.Proofs.Runtime.Load
import CongestionObservatory.Lib.Framing
import CongestionObservatory.Core.Checked
import CongestionObservatory.Transport.Frame
import CongestionObservatory.Proofs.Transport.Frame
import CongestionObservatory.Proofs.Model.Names
import CongestionObservatory.Proofs.Evidence.Admission
import CongestionObservatory.Proofs.Assessment.Recording
import CongestionObservatory.Proofs.Localization.Graph
import CongestionObservatory.Proofs.Runtime.Graph
import CongestionObservatory.Proofs.Persistence.Decoded
import CongestionObservatory.Correlation.Group
import CongestionObservatory.Lib.FirstFit
import CongestionObservatory.Proofs.Correlation.Placement
import CongestionObservatory.Proofs.Correlation.Group
import CongestionObservatory.Proofs.Runtime.WorkerPool
import CongestionObservatory.Core.Number
import CongestionObservatory.Core.Iso8601
import CongestionObservatory.Core.Json
import CongestionObservatory.Proofs.Core.Iso8601
import CongestionObservatory.Proofs.Core.Json
import CongestionObservatory.Lib.DropFirst
import CongestionObservatory.Proofs.Evidence.Eviction
import CongestionObservatory.Proofs.Evidence.Sweep
import CongestionObservatory.Proofs.Evidence.Query
import CongestionObservatory.Proofs.Evidence.Freshness
import CongestionObservatory.Proofs.Runtime.Maintenance
import CongestionObservatory.Lib.Leader
import CongestionObservatory.Proofs.Evidence.Agreement
import CongestionObservatory.Proofs.Assessment.Blockers
import CongestionObservatory.Proofs.Assessment.Citations
import CongestionObservatory.Proofs.Assessment.Idle
import CongestionObservatory.Proofs.Core.Double
import CongestionObservatory.Proofs.Assessment.Conflict
import CongestionObservatory.Proofs.Episode.Fields
import CongestionObservatory.Proofs.Episode.Windows
import CongestionObservatory.Proofs.Correlation.Window
import CongestionObservatory.Lib.BreadthFirst
import CongestionObservatory.Localization.Localize
import CongestionObservatory.Proofs.Localization.Edges
import CongestionObservatory.Proofs.Localization.Conclusion
import CongestionObservatory.Proofs.Localization.Outcome
import CongestionObservatory.Proofs.Localization.Neighbourhood
import CongestionObservatory.Proofs.Localization.Generations
import CongestionObservatory.Evidence.Names
import CongestionObservatory.Transport.Message
import CongestionObservatory.Transport.Server
import CongestionObservatory.Proofs.Transport.Server
import CongestionObservatory.Proofs.Transport.Message
import CongestionObservatory.Proofs.Localization.Adjacency
import CongestionObservatory.Lib.Multimap
import CongestionObservatory.Proofs.Model.Indexes
import CongestionObservatory.Lib.PrefixCode
import CongestionObservatory.Proofs.Core.Hash
import CongestionObservatory.Proofs.Correlation.Encoding
import CongestionObservatory.Proofs.Model.Digest
import CongestionObservatory.Core.JsonGrammar
import CongestionObservatory.Proofs.Core.JsonSound
import CongestionObservatory.Proofs.Core.JsonRoundTrip
import CongestionObservatory.Core.Integral
import CongestionObservatory.Proofs.Core.Integral
import CongestionObservatory.Lib.MachineInteger
import CongestionObservatory.Lib.MemoryReader
import CongestionObservatory.Persistence.InPlace
import CongestionObservatory.Proofs.Persistence.InPlace
import CongestionObservatory.Proofs.Persistence.InRange
import CongestionObservatory.Lib.Dialogue
import CongestionObservatory.Lib.Interleaving
import CongestionObservatory.Transport.Client
import CongestionObservatory.Transport.Network
import CongestionObservatory.Proofs.Transport.Client
import CongestionObservatory.Proofs.Transport.Stream
import CongestionObservatory.Proofs.Transport.Handling
import CongestionObservatory.Proofs.Transport.Moves
import CongestionObservatory.Proofs.Transport.Network
import CongestionObservatory.Proofs.Transport.Progress
import CongestionObservatory.Lib.Sections
import CongestionObservatory.Runtime.Threads
import CongestionObservatory.Proofs.Runtime.Threads
import CongestionObservatory.Proofs.Runtime.Concurrency
import CongestionObservatory.Proofs.Runtime.Metrics
import CongestionObservatory.Proofs.Runtime.Rebuild
import CongestionObservatory.Transport.AcceptLoop
import CongestionObservatory.Proofs.Transport.AcceptLoop
