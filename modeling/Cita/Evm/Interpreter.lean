import Cita.Evm.Gasometer
import Cita.Evm.StackInstructions
import Cita.Lib.Iterate

/-!
# The interpreter

`Interpreter<Cost>::exec` (`interpreter/mod.rs`): the `while` loop over the
code, and in it, per instruction, the checks of `verify_instruction`, the
price from the gasometer, the optional trace, `exec_instruction` and the
jump or stop it asks for.

`exec_instruction` is one Rust `match`; the arms that return their own
`InstructionResult` (jumps, `CREATE`, the `CALL`s, the stops) stay in
`execInstruction`, and those that fall through to `Ok(InstructionResult::Ok)`
are `execPlainInstruction`, which ends in `exec_stack_instruction`.

Keccak is a parameter `sha3` of the development; nothing here depends on
which function it is.
-/

namespace Cita

open CostType

/-- `InstructionResult<Gas>`. -/
inductive InstructionResult (Gas : Type) where
  | ok
  | unusedGas (gas : Gas)
  | jumpToPosition (position : U256)
  | stopExecutionNeedsReturn (gas : Gas) (initOff initSize : U256) (apply : Bool)
  | stopExecution

/-- The `expect` message of `provided` in the `CREATE` arm. -/
def createProvidedExpect : String :=
  "`provided` comes through Self::exec from `Gasometer::get_gas_cost_mem`; `gas_gas_mem_cost` guarantees `Some` when instruction is `CALL`/`CALLCODE`/`DELEGATECALL`/`CREATE`; this is `CREATE`; qed"

/-- The `expect` message of `provided` in the `CALL` arm. -/
def callProvidedExpect : String :=
  "`provided` comes through Self::exec from `Gasometer::get_gas_cost_mem`; `gas_gas_mem_cost` guarantees `Some` when instruction is `CALL`/`CALLCODE`/`DELEGATECALL`/`CREATE`; this is one of `CALL`/`CALLCODE`/`DELEGATECALL`; qed"

/-- `verify_instruction`: a defined instruction, enough arguments on the
stack, and room for its results. -/
def verifyInstruction {σ : Type} (E : Ext σ) (instruction : UInt8)
    (info : InstructionInfo) (stack : List U256) : Except Error Unit :=
  let schedule := E.schedule
  if info.tier = .invalid then .error (.badInstruction instruction)
  else if !Stack.has stack info.args then
    .error (.stackUnderflow info.name info.args stack.length)
  else if stack.length - info.args + info.ret > schedule.stackLimit then
    .error (.outOfStack info.name (usizeSub info.ret info.args) schedule.stackLimit)
  else .ok ()

/-- `verify_jump`: a known `JUMPDEST` whose position is the whole word. -/
def verifyJump (jumpU : U256) (validJumpDestinations : List Nat) : Except Error Nat :=
  let jump := lowU64 jumpU
  if validJumpDestinations.contains jump && BitVec.ofNat 256 jump == jumpU then .ok jump
  else .error (.badJumpDestination jump)

/-- `mem_written`: the memory range an instruction writes, for the trace. -/
def memWritten (op : Op) (stack : List U256) : Outcome Error (Option (Nat × Nat)) :=
  match op with
  | .MSTORE | .MLOAD => do
      pure (some (lowU64 (← Stack.peek stack 0), 32))
  | .MSTORE8 => do
      pure (some (lowU64 (← Stack.peek stack 0), 1))
  | .CALLDATACOPY | .CODECOPY | .RETURNDATACOPY => do
      pure (some (lowU64 (← Stack.peek stack 0), lowU64 (← Stack.peek stack 2)))
  | .EXTCODECOPY => do
      pure (some (lowU64 (← Stack.peek stack 1), lowU64 (← Stack.peek stack 3)))
  | .CALL | .CALLCODE => do
      pure (some (lowU64 (← Stack.peek stack 5), lowU64 (← Stack.peek stack 6)))
  | .DELEGATECALL => do
      pure (some (lowU64 (← Stack.peek stack 4), lowU64 (← Stack.peek stack 5)))
  | _ => pure none

/-- `store_written`: the storage slot and value an instruction writes. -/
def storeWritten (op : Op) (stack : List U256) : Outcome Error (Option (U256 × U256)) :=
  match op with
  | .SSTORE => do
      pure (some (← Stack.peek stack 0, ← Stack.peek stack 1))
  | _ => pure none

/-- The `CALLDATALOAD` arm: the 32 bytes of call data at `bigId`, padded
with zeros past its end. -/
def calldataloadWord (data : Option Bytes) (bigId : U256) : U256 :=
  let id := lowU64 bigId
  let max := usizeAdd id 32
  match data with
  | some data =>
      let bound := min data.length max
      if id < bound && bigId < BitVec.ofNat 256 data.length then
        BitVec.ofNat 256 (Word.bytesValue ((data.drop id).take (bound - id) ++
          List.replicate (32 - (bound - id)) 0))
      else 0
  | none => 0

variable {σ : Type} (E : Ext σ)

open Exec

/-- `copy_data_to_memory`: the bytes of `source` from a stack offset to a
memory offset, zeros where the range runs past the end of `source`. -/
def copyDataToMemory (source : Bytes) : Exec σ Unit := do
  let destOffset ← pop
  let sourceOffset ← pop
  let size ← pop
  let sourceSize : U256 := BitVec.ofNat 256 source.length
  -- `||` evaluates the sum only when both summands are in range
  let overrun ←
    if sourceOffset > sourceSize || size > sourceSize then pure true
    else do
      let e ← lift (uintAdd sourceOffset size)
      pure (decide (e > sourceSize))
  let outputEnd ←
    if overrun then do
      let m ← mem
      let (start, len) ←
        if sourceOffset > sourceSize then lift (Memory.writeableSlice m destOffset size)
        else do
          let off ← lift (do uintSub (← uintAdd destOffset sourceSize) sourceOffset)
          let len ← lift (do uintSub (← uintAdd sourceOffset size) sourceSize)
          lift (Memory.writeableSlice m off len)
      setMem (Slice.write m start (List.replicate len 0))
      pure source.length
    else pure (usizeAdd (lowU64 size) (lowU64 sourceOffset))
  if sourceOffset < sourceSize then
    let outputBegin := lowU64 sourceOffset
    let slice ← lift (Slice.range source outputBegin outputEnd)
    let m ← mem
    setMem (← lift (Memory.writeSlice m destOffset slice))

/-- The arms of `exec_instruction` that fall through to
`Ok(InstructionResult::Ok)`. -/
def execPlainInstruction (sha3 : Bytes → H256) {Cost : Type} [CostType Cost] (gas : Cost)
    (params : ActionParams) (code : Bytes) (instruction : UInt8) (op : Op) : Exec σ Unit :=
  match op with
  | .LOG noOfTopics => do
      let offset ← pop
      let size ← pop
      let topics ← popN noOfTopics
      let m ← mem
      let data ← lift (Memory.readSlice m offset size)
      let s ← ext
      setExt (← liftExcept (E.log s topics data))
  | .PUSH bytes => do
      let p ← position
      let (val, p) ← lift (codeRead code p bytes)
      setPosition p
      push val
  | .MLOAD => do
      let offset ← pop
      let m ← mem
      push (← lift (Memory.read m offset))
  | .MSTORE => do
      let offset ← pop
      let word ← pop
      let m ← mem
      setMem (← lift (Memory.write m offset word))
  | .MSTORE8 => do
      let offset ← pop
      let byte ← pop
      let m ← mem
      setMem (← lift (Memory.writeByte m offset byte))
  | .MSIZE => do
      let m ← mem
      push (BitVec.ofNat 256 m.length)
  | .SHA3 => do
      let offset ← pop
      let size ← pop
      let m ← mem
      push (sha3 (← lift (Memory.readSlice m offset size)))
  | .SLOAD => do
      let key ← pop
      let s ← ext
      push (← liftExcept (E.storageAt s key))
  | .SSTORE => do
      let address ← pop
      let val ← pop
      let s ← ext
      let currentVal ← liftExcept (E.storageAt s address)
      -- increase refund for clear
      if currentVal ≠ 0 && val = 0 then setExt (E.incSstoreClears s)
      let s ← ext
      setExt (← liftExcept (E.setStorage s address val))
  | .PC => do
      let p ← position
      push (BitVec.ofNat 256 (p - 1))
  | .GAS => push (asU256 gas)
  | .ADDRESS => push (addressToU256 params.address)
  | .ORIGIN => push (addressToU256 params.origin)
  | .BALANCE => do
      let address := u256ToAddress (← pop)
      let s ← ext
      push (← liftExcept (E.balance s address))
  | .CALLER => push (addressToU256 params.sender)
  | .CALLVALUE => push params.value.value
  | .CALLDATALOAD => do
      let bigId ← pop
      push (calldataloadWord params.data bigId)
  | .CALLDATASIZE => push (BitVec.ofNat 256 ((params.data.map List.length).getD 0))
  | .CODESIZE => push (BitVec.ofNat 256 code.length)
  | .RETURNDATASIZE => do
      let r ← returnData
      push (BitVec.ofNat 256 r.size)
  | .EXTCODESIZE => do
      let address := u256ToAddress (← pop)
      let s ← ext
      push (BitVec.ofNat 256 (← liftExcept (E.extcodesize s address)))
  | .CALLDATACOPY => copyDataToMemory (params.data.getD [])
  | .RETURNDATACOPY => do
      let sourceOffset ← peek 1
      let size ← peek 2
      let r ← returnData
      let returnDataLen : U256 := BitVec.ofNat 256 r.size
      -- `overflow_add(..).0`: the sum wraps
      if (Word.overflowingAdd sourceOffset size).1 > returnDataLen then throw .outOfBounds
      copyDataToMemory (← lift r.deref)
  | .CODECOPY => copyDataToMemory (params.code.getD [])
  | .EXTCODECOPY => do
      let address := u256ToAddress (← pop)
      let s ← ext
      copyDataToMemory (← liftExcept (E.extcode s address))
  | .GASPRICE => push params.gasPrice
  | .BLOCKHASH => do
      let blockNumber ← pop
      let s ← ext
      push (E.blockhash s blockNumber)
  | .COINBASE => push (addressToU256 E.envInfo.author)
  | .TIMESTAMP => push (BitVec.ofNat 256 E.envInfo.timestamp)
  | .NUMBER => push (BitVec.ofNat 256 E.envInfo.number)
  | .DIFFICULTY => push E.envInfo.difficulty
  | .GASLIMIT => push E.envInfo.gasLimit
  | _ => execStackInstruction instruction op

variable {Cost : Type} [CostType Cost]

/-- The end of the `CREATE` arm: the stack, the return data and the gas
handed back once `ext.create` returned `createResult`. -/
def finishCreate (createResult : ContractCreateResult) : Exec σ (InstructionResult Cost) :=
  match createResult with
  | .created address gasLeft => do
      push (addressToU256 address)
      let g ← lift (Outcome.expectOk (fromU256 gasLeft) "Gas left cannot be greater.")
      pure (.unusedGas g)
  | .reverted gasLeft returnData => do
      push 0
      setReturnData returnData
      let g ← lift (Outcome.expectOk (fromU256 gasLeft) "Gas left cannot be greater.")
      pure (.unusedGas g)
  | .failed => do
      push 0
      pure .ok
  | .failedInStaticCall => throw .mutableCallInStaticContext

/-- The `CREATE` arm of `exec_instruction`. -/
def execCreate (params : ActionParams) (provided : Option Cost) :
    Exec σ (InstructionResult Cost) := do
  let endowment ← pop
  let initOff ← pop
  let initSize ← pop
  let createGas ← lift (Outcome.expect provided createProvidedExpect)
  if E.isStatic then throw .mutableCallInStaticContext
  let m ← mem
  let contractCode ← lift (Memory.readSlice m initOff initSize)
  let s ← ext
  let balance ← liftExcept (E.balance s params.address)
  let canCreate := decide (balance ≥ endowment) && decide (E.depth < E.schedule.maxDepth)
  -- clear return data buffer before creating new call frame
  setReturnData .empty
  if !canCreate then
    push 0
    return .unusedGas createGas
  let (createResult, s') := E.create s (asU256 createGas) endowment contractCode
  setExt s'
  finishCreate createResult

/-- The stipend a call with `value` adds to the gas it hands over. -/
def callStipendFor (schedule : Schedule) (value : Option U256) : Cost :=
  match value with
  | none => ofUsize 0
  | some v => if v = 0 then ofUsize 0 else ofUsize schedule.callStipend

/-- The value a call carries: none for `DELEGATECALL`, zero for
`STATICCALL`, the next stack item for the others. -/
def callValue (op : Op) : Exec σ (Option U256) :=
  if op = .DELEGATECALL then pure none
  else if op = .STATICCALL then pure (some 0)
  else do pure (some (← pop))

/-- The `match instruction` of the `CALL` arm: the sender, the receiver,
whether the sender can pay the value, and the call type. -/
def callParties (params : ActionParams) (op : Op) (codeAddress : Address)
    (value : Option U256) : Exec σ (Address × Address × Bool × CallType) := do
  let s ← ext
  match op with
  | .CALL => do
      if E.isStatic && value.any (fun v => v != 0) then throw .mutableCallInStaticContext
      let balance ← liftExcept (E.balance s params.address)
      let v ← lift (Outcome.expect value "value set for all but delegate call and staticcall; qed")
      pure (params.address, codeAddress, decide (balance ≥ v), CallType.call)
  | .CALLCODE => do
      let balance ← liftExcept (E.balance s params.address)
      let v ← lift (Outcome.expect value "value set for all but delegate call and staticcall; qed")
      pure (params.address, params.address, decide (balance ≥ v), CallType.callCode)
  | .DELEGATECALL => pure (params.sender, params.address, true, CallType.delegateCall)
  | .STATICCALL => pure (params.address, codeAddress, true, CallType.staticCall)
  | _ => lift (.panic "Unexpected instruction in CALL branch.")

/-- The end of the `CALL` arm: the stack, the return data and the gas
handed back once `ext.call` returned `callResult`. -/
def finishCall (callResult : MessageCallResult) : Exec σ (InstructionResult Cost) :=
  match callResult with
  | .success gasLeft data => do
      push 1
      setReturnData data
      let g ← lift (Outcome.expectOk (fromU256 gasLeft) "Gas left cannot be greater than current one")
      pure (.unusedGas g)
  | .reverted gasLeft data => do
      push 0
      setReturnData data
      let g ← lift (Outcome.expectOk (fromU256 gasLeft) "Gas left cannot be greater then current one")
      pure (.unusedGas g)
  | .failed => do
      push 0
      pure .ok

/-- The `CALL` arm once its arguments are off the stack: the parties, the
check that the call can be made, and the call. The callee writes into the
output slice of memory; `Ext.call` returns what it wrote and
`Memory.writeBack` puts it there. -/
def performCall (params : ActionParams) (op : Op) (callGas : Cost) (codeAddress : Address)
    (value : Option U256) (inOff inSize outOff outSize : U256) :
    Exec σ (InstructionResult Cost) := do
  let (senderAddress, receiveAddress, hasBalance, callType) ←
    callParties E params op codeAddress value
  -- clear return data buffer before creating new call frame
  setReturnData .empty
  let canCall := hasBalance && decide (E.depth < E.schedule.maxDepth)
  if !canCall then
    push 0
    return .unusedGas callGas
  let m ← mem
  let input ← lift (Memory.readSlice m inOff inSize)
  let (outStart, outLen) ← lift (Memory.writeableSlice m outOff outSize)
  let s ← ext
  let (callResult, out, s') := E.call s (asU256 callGas) senderAddress receiveAddress value input
    codeAddress ((m.drop outStart).take outLen) callType
  setExt s'
  setMem (Memory.writeBack m outStart outLen out)
  finishCall callResult

/-- The `CALL`, `CALLCODE`, `DELEGATECALL` and `STATICCALL` arm of
`exec_instruction`. -/
def execCall (params : ActionParams) (op : Op) (provided : Option Cost) :
    Exec σ (InstructionResult Cost) := do
  let schedule := E.schedule
  lift (Outcome.assert (decide (schedule.callValueTransferGas > schedule.callStipend))
    "overflow possible")
  let _ ← pop
  let callGas ← lift (Outcome.expect provided callProvidedExpect)
  let codeAddress := u256ToAddress (← pop)
  let value ← callValue op
  let inOff ← pop
  let inSize ← pop
  let outOff ← pop
  let outSize ← pop
  -- add stipend (only CALL|CALLCODE when value > 0)
  let callGas ← lift (add callGas (callStipendFor schedule value))
  performCall E params op callGas codeAddress value inOff inSize outOff outSize

/-- `exec_instruction(gas, params, ext, instruction, code, stack, provided)`. -/
def execInstruction (sha3 : Bytes → H256) (gas : Cost) (params : ActionParams) (code : Bytes)
    (instruction : UInt8) (op : Op) (provided : Option Cost) :
    Exec σ (InstructionResult Cost) :=
  match op with
  | .JUMP => do
      let jump ← pop
      pure (.jumpToPosition jump)
  | .JUMPI => do
      let jump ← pop
      let condition ← pop
      pure (if condition ≠ 0 then .jumpToPosition jump else .ok)
  | .JUMPDEST => pure .ok
  | .CREATE => execCreate E params provided
  | .CALL | .CALLCODE | .DELEGATECALL | .STATICCALL => execCall E params op provided
  | .RETURN => do
      let initOff ← pop
      let initSize ← pop
      pure (.stopExecutionNeedsReturn gas initOff initSize true)
  | .REVERT => do
      let initOff ← pop
      let initSize ← pop
      pure (.stopExecutionNeedsReturn gas initOff initSize false)
  | .STOP => pure .stopExecution
  | .SUICIDE => do
      let address ← pop
      let s ← ext
      setExt (← liftExcept (E.suicide s (u256ToAddress address)))
      pure .stopExecution
  | _ => do
      execPlainInstruction E sha3 gas params code instruction op
      pure .ok

/-- The state of `exec`'s loop: the frame and the gasometer. -/
structure Machine (Cost σ : Type) where
  frame : Frame σ
  gasometer : Gasometer Cost

/-- The trace of an executed instruction, `trace_executed(..)`, when
`trace_prepare_execute` asked for it. -/
def traceExecutedFrame (f : Frame σ) (gasUsed : U256) (ret : Nat)
    (memWritten : Option (Nat × Nat)) (storeWritten : Option (U256 × U256)) :
    Outcome Error (Frame σ) := do
  let stackPush ← Stack.peekTop f.stack ret
  let memDiff ← match memWritten with
    | some (o, s) => do
        let d ← Slice.range f.mem o (usizeAdd o s)
        pure (some (o, d))
    | none => pure none
  pure { f with ext := E.traceExecuted f.ext gasUsed stackPush memDiff storeWritten }

/-- `verify_gas` and the charge of an instruction:
`current_mem_gas = memory_total_gas; current_gas = current_gas - gas_cost`. -/
def Gasometer.charge (g : Gasometer Cost) (requirements : InstructionRequirements Cost) :
    Outcome Error (Gasometer Cost) := do
  Outcome.ofExcept (g.verifyGas requirements.gasCost)
  let currentGas ← sub g.currentGas requirements.gasCost
  pure ⟨currentGas, requirements.memoryTotalGas⟩

/-- `if let InstructionResult::UnusedGas(ref gas) = result { current_gas = current_gas + *gas }`. -/
def Gasometer.applyUnusedGas (g : Gasometer Cost) : InstructionResult Cost →
    Outcome Error (Gasometer Cost)
  | .unusedGas gas => do
      let currentGas ← add g.currentGas gas
      pure { g with currentGas := currentGas }
  | _ => pure g

/-- What the trace records of an instruction before it runs, when it is
traced: `(mem_written, store_written)`. -/
def traceWritten (traceExecuted : Bool) (op : Op) (stack : List U256) :
    Outcome Error (Option (Nat × Nat) × Option (U256 × U256)) :=
  if traceExecuted then do
    let mw ← memWritten op stack
    let sw ← storeWritten op stack
    pure (mw, sw)
  else pure (none, none)

/-- The `match result` that ends an iteration: a jump, a return, a stop,
or the next instruction. -/
def advance (validJumpDestinations : List Nat) (f : Frame σ) (gasometer : Gasometer Cost) :
    InstructionResult Cost → Outcome Error (Machine Cost σ ⊕ (GasLeft × σ))
  | .jumpToPosition position => do
      let pos ← Outcome.ofExcept (verifyJump position validJumpDestinations)
      pure (.inl ⟨{ f with position := pos }, gasometer⟩)
  | .stopExecutionNeedsReturn gas initOff initSize apply => do
      let data ← Memory.intoReturnData f.mem initOff initSize
      pure (.inr (.needsReturn (asU256 gas) data apply, f.ext))
  | .stopExecution => pure (.inr (.known (asU256 gasometer.currentGas), f.ext))
  | _ => pure (.inl ⟨f, gasometer⟩)

/-- One iteration of `exec`'s `while` loop: the machine after the
instruction, or what `exec` returns. -/
def execStep (sha3 : Bytes → H256) (params : ActionParams) (code : Bytes)
    (validJumpDestinations : List Nat) (m : Machine Cost σ) :
    Outcome Error (Machine Cost σ ⊕ (GasLeft × σ)) :=
  let f := m.frame
  if f.position < code.length then do
    let instruction := code.getD f.position 0
    let f := { f with position := f.position + 1 }
    let op := decode instruction
    let info := op.info
    Outcome.ofExcept (verifyInstruction E instruction info f.stack)
    -- calculate gas cost
    let requirements ← m.gasometer.requirements E f.ext op info f.stack f.mem.length
    let (traceExecuted, s) :=
      E.tracePrepareExecute f.ext (f.position - 1) instruction (asU256 requirements.gasCost)
    let gasometer ← m.gasometer.charge requirements
    let f := { f with ext := s, mem := Memory.expand f.mem requirements.memoryRequiredSize }
    let (memWritten, storeWritten) ← traceWritten traceExecuted op f.stack
    -- execute instruction
    let (result, f) ← (execInstruction E sha3 gasometer.currentGas params code instruction op
      requirements.provideGas).run f
    let gasometer ← gasometer.applyUnusedGas result
    let f ← (if traceExecuted then
        traceExecutedFrame E f (asU256 gasometer.currentGas) info.ret memWritten storeWritten
      else pure f)
    advance validJumpDestinations f gasometer result
  else pure (.inr (.known (asU256 m.gasometer.currentGas), f.ext))

/-- The machine `exec` starts its loop with. -/
def Machine.initial (gas : Cost) (s : σ) : Machine Cost σ :=
  ⟨⟨[], .empty, [], 0, s⟩, Gasometer.new gas⟩

/-- `Interpreter<Cost>::exec(params, ext)`, with at most `fuel` iterations
of its loop. -/
def exec (Cost : Type) [CostType Cost] (sha3 : Bytes → H256) (fuel : Nat)
    (params : ActionParams) (s : σ) : Option (Outcome Error (GasLeft × σ)) :=
  match params.code with
  | none => some (.panic "exec always called with code; qed")
  | some code =>
      match (fromU256 params.gas : Except Error Cost) with
      | .error e => some (.err e)
      | .ok gas =>
          let validJumpDestinations := findJumpDestinations code
          iterate (execStep E sha3 params code validJumpDestinations) fuel (Machine.initial gas s)

/-- `PUSH1 0; PUSH1 0; PUSH1 1; CALLDATACOPY`, with 100 gas: copy no bytes
of call data to memory offset 1. -/
def ActionParams.copyNothingToOne : ActionParams :=
  ⟨0, 0, 0, 0, 0, 100, 0, .transfer 0, some [0x60, 0x00, 0x60, 0x00, 0x60, 0x01, 0x37], none,
    .none⟩

/-- A copy of no bytes to offset 1 expands no memory, but with the tracer
on, `mem_written` reports the range `(1, 0)` and the loop takes
`self.mem[1..1]` of the empty memory, which panics, for either cost type.
Without the tracer the same run returns its 88 gas left. -/
theorem exec_traced_empty_copy_panics :
    exec Ext.inertTraced Usize (fun _ => 0) 10 ActionParams.copyNothingToOne () =
      some (.panic "range end index out of range for slice") ∧
    exec Ext.inertTraced U256 (fun _ => 0) 10 ActionParams.copyNothingToOne () =
      some (.panic "range end index out of range for slice") ∧
    exec Ext.inert Usize (fun _ => 0) 10 ActionParams.copyNothingToOne () =
      some (.ok (.known 88, ())) := by
  refine ⟨?_, ?_, ?_⟩ <;> rfl

/-- `PUSH1 0; PUSH9 2^64; MSTORE`, with 1000 gas: store a word at offset
`2^64`. -/
def ActionParams.storeAtTwoPow64 : ActionParams :=
  ⟨0, 0, 0, 0, 0, 1000, 0, .transfer 0,
    some [0x60, 0x00, 0x68, 0x01, 0, 0, 0, 0, 0, 0, 0, 0, 0x52], none, .none⟩

/-- The memory the store needs, `2^64 + 32` bytes, does not fit a `usize`:
`Interpreter<usize>` stops with `OutOfGas` in `from_u256`, while
`Interpreter<U256>` prices the memory and then panics in `as_usize`. -/
theorem exec_store_high_diverges :
    exec Ext.inert Usize (fun _ => 0) 10 ActionParams.storeAtTwoPow64 () =
      some (.err .outOfGas) ∧
    exec Ext.inert U256 (fun _ => 0) 10 ActionParams.storeAtTwoPow64 () =
      some (.panic "Integer overflow when casting U256") := by
  constructor <;> rfl

/-- `PUSH1 1; PUSH32 sourceOffset; PUSH1 0; RETURNDATACOPY`, with 1000 gas
and no return data: copy one byte of return data from `sourceOffset` to
memory offset 0. -/
def ActionParams.returnDataCopyFrom (sourceOffset : U256) : ActionParams :=
  ⟨0, 0, 0, 0, 0, 1000, 0, .transfer 0,
    some ([0x60, 0x01, 0x7f] ++ u256ToBytes sourceOffset ++ [0x60, 0x00, 0x3e]), none, .none⟩

/-- Both copies read one byte past the end of the empty return data. From
offset 1 the copy stops with `OutOfBounds`; from offset `2^256 - 1` the sum
`source_offset + size` wraps to 0, the check passes, and the copy writes a
zero to memory and the run ends normally, for either cost type. -/
theorem exec_returndatacopy_wrapped_offset_passes :
    exec Ext.inert Usize (fun _ => 0) 10 (ActionParams.returnDataCopyFrom (-1)) () =
      some (.ok (.known 982, ())) ∧
    exec Ext.inert U256 (fun _ => 0) 10 (ActionParams.returnDataCopyFrom (-1)) () =
      some (.ok (.known 982, ())) ∧
    exec Ext.inert Usize (fun _ => 0) 10 (ActionParams.returnDataCopyFrom 1) () =
      some (.err .outOfBounds) := by
  refine ⟨?_, ?_, ?_⟩ <;> rfl

end Cita
