import Interpose.Cell
import Interpose.Status
import Interpose.ExecIndex
import Interpose.Config
import Interpose.CellString
import Interpose.Pool
import Interpose.Contexts
import Interpose.Tasks
import Interpose.Hook
import Interpose.Instance
import Interpose.Notice
import Interpose.World.Memory
import Interpose.World.Lookup
import Interpose.World.Layers
import Interpose.Native.Strings
import Interpose.Native.Tasks
import Interpose.Host
import Interpose.Machine
import Interpose.Proofs.FrameBalance
import Interpose.Proofs.Suspension
import Interpose.Proofs.Reentry
import Interpose.Proofs.Restoration
import Interpose.Proofs.HookHistory
import Interpose.Proofs.PoolResolution
import Interpose.Proofs.MemoryHooks
import Interpose.Proofs.PooledReading
import Interpose.Proofs.Temporaries
import Interpose.Proofs.AwaitingTasks
import Interpose.Proofs.HandlerRequests
import Interpose.Proofs.Layering
import Interpose.Proofs.CallbackRouting
import Interpose.Proofs.Cooperation
import Interpose.Proofs.Transparency
import Interpose.Proofs.PoolRepresentation
import Interpose.Proofs.PoolRefusals
import Interpose.Proofs.HandlerTemporaries
import Interpose.Proofs.Forgetting
import Interpose.Proofs.Unloading
import Interpose.Proofs.Measuring
import Interpose.Proofs.StringCalls
import Interpose.Proofs.StringCopies
import Interpose.Proofs.Heap
import Interpose.Proofs.FailingNatives
import Interpose.Proofs.FailedCalls
import Interpose.Proofs.Addresses
import Interpose.Proofs.Indices
import Interpose.Proofs.TaskTurns
import Interpose.Proofs.HeapMarks
import Interpose.Proofs.Registrations
