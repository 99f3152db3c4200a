import Tenure.Arena.Overlap
import Tenure.Arena.Slide
import Tenure.Cards.Barrier
import Tenure.Cards.Scan
import Tenure.Collector.Allocation
import Tenure.Collector.Cycle
import Tenure.Collector.Service
import Tenure.CommandLine.Reader
import Tenure.Decimal.Layout
import Tenure.Decimal.Numeral
import Tenure.Heap.Access
import Tenure.Heap.MajorCycle
import Tenure.Json.Reader
import Tenure.Main
import Tenure.Marking.Marker
import Tenure.Memory
import Tenure.Random.ChaCha
import Tenure.Random.Seeded
import Tenure.Random.Source
import Tenure.Settings.Document
import Tenure.Simulation.Run
import Tenure.Proofs.Arena.Layout
import Tenure.Proofs.Arena.Compaction
import Tenure.Proofs.Arena.Overlap
import Tenure.Proofs.Cards.Marks
import Tenure.Proofs.Handle
import Tenure.Proofs.Cards.Holders
import Tenure.Proofs.Directory.Lookup
import Tenure.Proofs.Directory.Slots
import Tenure.Proofs.Marking.Colors
import Tenure.Proofs.Marking.Trace
import Tenure.Proofs.Directory.Places
import Tenure.Proofs.Heap.Sound
import Tenure.Proofs.Heap.Access
import Tenure.Proofs.Heap.Growth
import Tenure.Proofs.Heap.Evacuation
import Tenure.Proofs.Heap.Survivors
import Tenure.Proofs.Heap.Sliding
import Tenure.Proofs.Graph
import Tenure.Proofs.Heap.Remembering
import Tenure.Proofs.Heap.Minor
import Tenure.Proofs.Heap.MinorExact
import Tenure.Proofs.Heap.Major
import Tenure.Proofs.Heap.Attainable
import Tenure.Proofs.Heap.Reclamation
import Tenure.Proofs.Heap.Agreement
import Tenure.Proofs.Heap.Aging
import Tenure.Proofs.Heap.Aliasing
import Tenure.Proofs.Heap.Completion
import Tenure.Proofs.Heap.RememberedSet
import Tenure.Proofs.Heap.Room
import Tenure.Proofs.Heap.Rotation
import Tenure.Proofs.Heap.Destinations
import Tenure.Proofs.Heap.Provenance
import Tenure.Proofs.Directory.Epochs
import Tenure.Proofs.Collector.History
import Tenure.Proofs.Collector.ReferenceStore
import Tenure.Proofs.Collector.Reuse
import Tenure.Proofs.Marking.Mutation
import Tenure.Proofs.Marking.Schedule
import Tenure.Proofs.Marking.Outcome
import Tenure.Proofs.Directory.Accounts
import Tenure.Proofs.Heap.Separation
import Tenure.Proofs.Heap.Schedule
import Tenure.Proofs.Heap.RootSets
import Tenure.Proofs.Heap.Effort
import Tenure.Proofs.Heap.Accounting
import Tenure.Proofs.Heap.Exhaustion
import Tenure.Proofs.Collector.Conservation
import Tenure.Proofs.Collector.Chronicle
import Tenure.Proofs.Collector.Totality
import Tenure.Proofs.Collector.Allocation
import Tenure.Proofs.Collector.Exhaustion
import Tenure.Proofs.Collector.Pacing
import Tenure.Proofs.Simulation.Conservation
import Tenure.Proofs.Simulation.Intervals
import Tenure.Proofs.Simulation.Totality
import Tenure.Proofs.Heap.MinorTotals
import Tenure.Proofs.Heap.CardRoots
import Tenure.Proofs.Heap.Refusals
import Tenure.Proofs.Collector.Sizes
import Tenure.Proofs.Arena.Moves
import Tenure.Proofs.Arena.Attainable
import Tenure.Proofs.Cards.History
import Tenure.Proofs.Heap.PromotionFailure
import Tenure.Proofs.Marking.Operations
import Tenure.Proofs.Settings.Document
