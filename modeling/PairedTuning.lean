import PairedTuning.Definition.Build
import PairedTuning.Coordinator
import PairedTuning.Store.Cache
import PairedTuning.Wire.Exchange
import PairedTuning.Config.Load
import PairedTuning.Proofs.Flip.Packing
import PairedTuning.Proofs.Perturbation
import PairedTuning.Proofs.Run.Exchange
import PairedTuning.Proofs.Coordinator.Effect
import PairedTuning.Proofs.Coordinator.Trace
import PairedTuning.Proofs.Coordinator.Atomicity
import PairedTuning.Proofs.Coordinator.Replay
import PairedTuning.Proofs.Coordinator.Rounds
import PairedTuning.Proofs.Coordinator.Consumption
import PairedTuning.Proofs.Coordinator.Snapshots
import PairedTuning.Proofs.Checksum.Burst
import PairedTuning.Proofs.Coordinator.Signature
import PairedTuning.Proofs.Scalar.Real
import PairedTuning.Proofs.Scalar.Counter
import PairedTuning.Proofs.Scalar.Order
import PairedTuning.Proofs.Except
import PairedTuning.Proofs.Definition.Build
import PairedTuning.Proofs.Definition.Grammar
import PairedTuning.Proofs.Definition.Lines
import PairedTuning.Proofs.Update.Blocks
import PairedTuning.Proofs.Sgd.UnitSteps
import PairedTuning.Proofs.Update.Average
import PairedTuning.Proofs.Update.Reordering
import PairedTuning.Proofs.Adam.SecondMoment
import PairedTuning.Proofs.Moments.Estimate
import PairedTuning.Proofs.Adam.Normalisation
import PairedTuning.Proofs.Adam.Average
import PairedTuning.Proofs.Lock.Arrivals
import PairedTuning.Proofs.Run.Table
import PairedTuning.Proofs.Lock.Mutex
import PairedTuning.Proofs.Lock.Entries
import PairedTuning.Proofs.Lock.Order
import PairedTuning.Proofs.Lock.Agreement
import PairedTuning.Proofs.Coordinator.Phases
import PairedTuning.Proofs.Lock.Holding
import PairedTuning.Proofs.Coordinator.Interleaving
import PairedTuning.Proofs.Store.Transparency
import PairedTuning.Proofs.Store.Freshness
import PairedTuning.Proofs.Scalar.Checked
import PairedTuning.Proofs.Update.Defined
import PairedTuning.Proofs.Update.Invariant
import PairedTuning.Proofs.Scalar.Whole
import PairedTuning.Proofs.Document.Reading
import PairedTuning.Proofs.Wire.State
import PairedTuning.Proofs.Wire.Exchange
import PairedTuning.Proofs.Wire.Config
import PairedTuning.Proofs.Wire.Faithful
import PairedTuning.Proofs.Config.Acceptance
import PairedTuning.Proofs.Document.Overlay
import PairedTuning.Proofs.Config.Fields
import PairedTuning.Proofs.Config.Layers
import PairedTuning.Proofs.Config.Precedence
import PairedTuning.Proofs.Store.Separation
import PairedTuning.Proofs.Coordinator.Isolation
import PairedTuning.Proofs.Store.Removal
import PairedTuning.Proofs.Lock.Placement
import PairedTuning.Proofs.Lock.Representation
import PairedTuning.Proofs.Schedule.Mean
import PairedTuning.Proofs.Classic.UnitSteps
import PairedTuning.Proofs.Schedule.Gain
import PairedTuning.Proofs.Schedule.Quadrature
import PairedTuning.Proofs.Schedule.LongBlocks
import PairedTuning.Proofs.Moments.Prior
import PairedTuning.Proofs.Moments.Spread
import PairedTuning.Proofs.Update.Sides
import PairedTuning.Proofs.Update.Direction
import PairedTuning.Proofs.Adam.Damping
import PairedTuning.Proofs.Classic.EndValues
import PairedTuning.Proofs.Definition.Independence
