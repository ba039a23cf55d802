import Cita.Lib.Outcome
import Cita.Lib.Iterate
import Cita.Lib.Word
import Cita.Lib.Slice
import Cita.Lib.Wp
import Cita.Lib.Ensures
import Cita.Lib.FunMap
import Cita.Lib.Rlp
import Cita.Lib.Hex
import Cita.Lib.SortedMap
import Cita.Lib.Store
import Cita.Lib.Journal
import Cita.Evm.Types
import Cita.Evm.Instructions
import Cita.Evm.Cost
import Cita.Evm.Memory
import Cita.Evm.Gasometer
import Cita.Evm.StackInstructions
import Cita.Evm.Arithmetic
import Cita.Evm.Interpreter
import Cita.Evm.GasConservation
import Cita.Evm.Copy
import Cita.Evm.CodeAnalysis
import Cita.Evm.StackEffect
import Cita.Evm.MemoryGas
import Cita.Evm.Storage
import Cita.Auth.Quota
import Cita.Chain.Types
import Cita.Executor.State
import Cita.Executor.StateDb
import Cita.Executor.StateStorage
import Cita.Executor.StateJournal
import Cita.Executor.Executive
import Cita.Executor.Call
import Cita.Executor.Block
import Cita.Executor.Executor
import Cita.Executor.CrossChainVerify
import Cita.Auth.Handler
import Cita.Auth.Window
import Cita.Network.Codec
import Cita.Network.Synchronizer
import Cita.Chain.Chain
import Cita.Chain.Forward
import Cita.Chain.Filters
import Cita.Chain.Logs
import Cita.Chain.HeaderCodec
import Cita.Chain.Transaction
import Cita.Chain.Receipt
import Cita.Executor.Instance
import Cita.Executor.Snapshot
import Cita.Executor.SnapshotRebuild
import Cita.Executor.SnapshotChunk
import Cita.Executor.SnapshotRlp
