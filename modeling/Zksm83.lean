import Zksm83.Cpu.Relation
import Zksm83.NativeField
import Zksm83.Isa.Table
import Zksm83.Soundness.Chronology
import Zksm83.Core.Recording
import Zksm83.Soundness.DeviceFrame
import Zksm83.Soundness.EventAddresses
import Zksm83.Soundness.EventRoles
import Zksm83.Soundness.PhysicalAddresses
import Zksm83.Argument.Overwritten
import Zksm83.Argument.Projections
import Zksm83.Argument.ProtocolLogs
import Zksm83.Library.Agreement
import Zksm83.Soundness.HaltOutcome
import Zksm83.Core.AddressMap
import Zksm83.Core.DmaTransfer
import Zksm83.Core.HaltSkip
import Zksm83.Core.IsaSimulation
import Zksm83.Core.Noninterference
import Zksm83.Argument.MemoryEvents
import Zksm83.Argument.MemorySound
import Zksm83.Soundness.DeviceReading
import Zksm83.Soundness.InterruptDispatch
import Zksm83.Soundness.SleepingRows
import Zksm83.Library.AuthenticationTree
import Zksm83.Memory.Transcript
import Zksm83.Memory.VerificationCache
import Zksm83.Memory.Image
import Zksm83.Memory.ImageExact
import Zksm83.Argument.StateScalars
import Zksm83.Memory.ArrayMemory
import Zksm83.Core.BusLogic
import Zksm83.Core.ExecLogic
import Zksm83.Core.StepLogic
import Zksm83.Core.Refinement
import Zksm83.Library.Dialogue
import Zksm83.Core.Planning
import Zksm83.Core.WitnessOrder
import Zksm83.Memory.RomImage
import Zksm83.Trace.Builder
import Zksm83.Trace.LookupBuilder
import Zksm83.Trace.Planning
import Zksm83.Trace.ImagePlans
import Zksm83.Trace.TablePlans
import Zksm83.Trace.Convergence
import Zksm83.Trace.Agreement
import Zksm83.Library.Codec
import Zksm83.Receipt.Wire
import Zksm83.Receipt.Components
import Zksm83.Receipt.Identity
import Zksm83.Receipt.Statement
import Zksm83.Receipt.Segments
import Zksm83.Receipt.RoundTrip
import Zksm83.Receipt.Stream
import Zksm83.Library.Multilinear
import Zksm83.Library.Sumcheck
import Zksm83.Library.SumcheckRun
import Zksm83.Sumcheck.Rounds
import Zksm83.Sumcheck.Product
import Zksm83.Sumcheck.Sparse
import Zksm83.Sumcheck.SharedFirst
import Zksm83.Sumcheck.Guarantees
import Zksm83.Sumcheck.Uniform
import Zksm83.Sumcheck.Zerocheck
import Zksm83.Shout.Columns
import Zksm83.Core.Requests
import Zksm83.Cuda.Field
import Zksm83.Trace.Run
import Zksm83.Core.DmaStart
import Zksm83.Core.FetchEvents
import Zksm83.Trace.Blocks
import Zksm83.Trace.BlockFetches
import Zksm83.Trace.Packing
import Zksm83.Trace.Segment
import Zksm83.Soundness.QuietRows
import Zksm83.Cpu.LookupTable
import Zksm83.Soundness.LookupRouting
import Zksm83.Sumcheck.Validation
import Zksm83.Sumcheck.EvaluationPaths
import Zksm83.Isa.Alignment
import Zksm83.Core.Preimages
import Zksm83.Opening.Layout
import Zksm83.Opening.Complete
import Zksm83.Trace.Resume
import Zksm83.Soundness.BusProjection
import Zksm83.Receipt.LogHistory
import Zksm83.Receipt.Recovery
import Zksm83.Receipt.InputSchedule
import Zksm83.Shout.RomSound
import Zksm83.Shout.RomProver
