import Cita.Evm.Interpreter

/-!
# The stack effect of each instruction

`INSTRUCTIONS` gives every opcode the number of items it takes off the
stack (`args`) and leaves on it (`ret`); `verify_instruction` checks the
stack against them before `exec_instruction` runs, and `exec` reads the
`ret` items back afterwards with `peek_top`. Here every arm of
`exec_instruction` is shown to move the stack by exactly that much on every
normal return (`execInstruction_shifts`), with the `Shifts` calculus of
`Cita.Lib.Wp`: the pops and pushes of an arm are counted statement by
statement, and the code between them, which reads and writes the memory,
the return data and the externalities, leaves the stack alone.

A byte that has no entry in the table stops the loop with
`BadInstruction` before anything else happens (`execStep_invalid`).
-/

namespace Cita

namespace Stack

theorem length_of_popMany_eq_ok :
    ∀ {s : List U256} {n : Nat} {xs s' : List U256}, popMany s n = .ok (xs, s') → s'.length + n = s.length
  | s, 0, xs, s', h => by
    rw [popMany] at h
    cases h
    rfl
  | [], n + 1, xs, s', h => by
    simp [popMany, popBack] at h
  | x :: s, n + 1, xs, s', h => by
    rw [popMany] at h
    simp only [popBack, Outcome.ok_bind] at h
    obtain ⟨⟨ys, s''⟩, hrest, hys⟩ := Outcome.bind_eq_ok.mp h
    cases hys
    have := length_of_popMany_eq_ok hrest
    simp only [List.length_cons]
    omega

theorem length_of_popN_eq_ok {s : List U256} {n : Nat} {xs s' : List U256}
    (h : popN s n = .ok (xs, s')) : s'.length + n = s.length := by
  rw [popN] at h
  obtain ⟨⟨⟩, -, hmany⟩ := Outcome.bind_eq_ok.mp h
  exact length_of_popMany_eq_ok hmany

theorem length_of_swapWithTop_eq_ok {s s' : List U256} {n : Nat}
    (h : swapWithTop s n = .ok s') : s'.length = s.length := by
  unfold swapWithTop at h
  split at h
  · cases h
    simp
  · cases h

end Stack

/-- The number of items on the stack of a frame. -/
def stackSize {σ : Type} (f : Frame σ) : Nat := f.stack.length

namespace Exec

variable {σ : Type}

theorem shifts_pop : Shifts stackSize (pop : Exec σ U256) 1 0 := by
  intro f
  rw [wp_pop]
  intro x s hs
  simp [stackSize, hs]

theorem shifts_push (x : U256) : Shifts stackSize (push x : Exec σ Unit) 0 1 := by
  intro f
  rw [wp_push]
  simp [stackSize]

theorem shifts_peek (n : Nat) : Shifts stackSize (peek n : Exec σ U256) 0 0 :=
  shifts_of_keeps fun f => by simp

theorem shifts_popN (n : Nat) : Shifts stackSize (popN n : Exec σ (List U256)) n 0 := by
  intro f
  rw [wp_popN]
  intro xs s hs
  simpa [stackSize] using Stack.length_of_popN_eq_ok hs

theorem shifts_swapWithTop (n : Nat) : Shifts stackSize (swapWithTop n : Exec σ Unit) 0 0 :=
  shifts_of_keeps fun f => by
    rw [wp_swapWithTop]
    intro s hs
    exact Stack.length_of_swapWithTop_eq_ok hs

theorem shifts_liftExcept {α : Type} (x : Except Error α) :
    Shifts stackSize (liftExcept x : Exec σ α) 0 0 :=
  shifts_of_keeps fun f => by simp

theorem shifts_throw {α : Type} (e : Error) (k r : Nat) :
    Shifts stackSize (throw e : Exec σ α) k r :=
  shifts_of_noReturn fun _ _ _ h => by cases h

/-- A block that starts by throwing returns from no run. -/
theorem shifts_throw_bind {α β : Type} (e : Error) (g : α → Exec σ β) (k r : Nat) :
    Shifts stackSize (throw e >>= g) k r :=
  shifts_of_noReturn fun _ _ _ h => by cases h

theorem shifts_ext : Shifts stackSize (ext : Exec σ σ) 0 0 := shifts_of_keeps fun f => by simp
theorem shifts_setExt (s : σ) : Shifts stackSize (setExt s : Exec σ Unit) 0 0 :=
  shifts_of_keeps fun f => by simp [stackSize]
theorem shifts_mem : Shifts stackSize (mem : Exec σ Bytes) 0 0 := shifts_of_keeps fun f => by simp
theorem shifts_setMem (m : Bytes) : Shifts stackSize (setMem m : Exec σ Unit) 0 0 :=
  shifts_of_keeps fun f => by simp [stackSize]
theorem shifts_returnData : Shifts stackSize (returnData : Exec σ ReturnData) 0 0 :=
  shifts_of_keeps fun f => by simp
theorem shifts_setReturnData (r : ReturnData) : Shifts stackSize (setReturnData r : Exec σ Unit) 0 0 :=
  shifts_of_keeps fun f => by simp [stackSize]
theorem shifts_position : Shifts stackSize (position : Exec σ Nat) 0 0 :=
  shifts_of_keeps fun f => by simp
theorem shifts_setPosition (p : Nat) : Shifts stackSize (setPosition p : Exec σ Unit) 0 0 :=
  shifts_of_keeps fun f => by simp [stackSize]

end Exec

section Arms

variable {σ : Type}

open Exec

/-- The arms that pop a word and push a function of it. -/
theorem shifts_popPush (g : U256 → U256) :
    Shifts stackSize (do let a ← pop; push (g a) : Exec σ Unit) 1 1 :=
  shifts_bind shifts_pop fun a => shifts_push (g a)

/-- The arms that pop two words and push a function of them. -/
theorem shifts_popPopPush (g : U256 → U256 → U256) :
    Shifts stackSize (do let a ← pop; let b ← pop; push (g a b) : Exec σ Unit) 2 1 :=
  shifts_bind shifts_pop fun a => shifts_bind shifts_pop fun b => shifts_push (g a b)

theorem execStackInstruction_shifts (instruction : UInt8) (op : Op) :
    Shifts stackSize (execStackInstruction instruction op : Exec σ Unit) op.info.args op.info.ret := by
  cases op with
  | ADD | MUL | SUB | DIV | MOD | SDIV | SMOD | EXP | LT | SLT | GT | SGT | EQ | AND | OR | XOR
    | BYTE | SHL | SHR | SAR =>
    exact shifts_popPopPush _
  | NOT | ISZERO => exact shifts_popPush _
  | POP => exact shifts_bind shifts_pop fun _ => shifts_pure ()
  | DUP n => exact (shifts_bind (shifts_peek _) fun v => shifts_push v).congr (by simp [Op.info])
  | SWAP n => exact (shifts_swapWithTop n).congr (by simp [Op.info])
  | ADDMOD | MULMOD =>
    exact shifts_bind shifts_pop fun _ => shifts_bind shifts_pop fun _ => shifts_bind shifts_pop fun _ =>
      shifts_ite (fun _ => shifts_bind (shifts_lift _) fun v => shifts_push v) fun _ => shifts_push 0
  | SIGNEXTEND =>
    -- a `bit` from 32 on leaves the number where it is
    exact shifts_bind shifts_pop fun _ =>
      shifts_ite (fun _ => shifts_bind shifts_pop fun _ => shifts_push _)
        fun _ => (shifts_pure ()).congr rfl
  | _ => exact shifts_throw _ _ _

theorem copyDataToMemory_shifts (source : Bytes) :
    Shifts stackSize (copyDataToMemory source : Exec σ Unit) 3 0 := by
  refine shifts_bind shifts_pop fun d => shifts_bind shifts_pop fun o => shifts_bind shifts_pop fun n => ?_
  -- past the three words the copy touches only the memory
  refine shifts_of_keeps fun f => ?_
  simp only [wp_bind, wp_ite, wp_pure, wp_lift, wp_mem, wp_setMem, stackSize, implies_true,
    and_self]

variable (E : Ext σ) {Cost : Type} [CostType Cost]

theorem execPlainInstruction_shifts (sha3 : Bytes → H256) (gas : Cost) (params : ActionParams)
    (code : Bytes) (instruction : UInt8) (op : Op) :
    Shifts stackSize (execPlainInstruction E sha3 gas params code instruction op : Exec σ Unit)
      op.info.args op.info.ret := by
  cases op with
  | LOG n =>
    refine (shifts_bind shifts_pop fun _ => shifts_bind shifts_pop fun _ =>
      shifts_bind (shifts_popN n) fun _ => shifts_of_keeps fun f => ?_).congr
        (by simp only [Op.info]; omega)
    simp [stackSize]
  | PUSH n =>
    refine shifts_bind_keeps shifts_position fun _ => shifts_bind_keeps (shifts_lift _) fun x => ?_
    obtain ⟨v, q⟩ := x
    exact shifts_bind_keeps (shifts_setPosition q) fun _ => shifts_push v
  | MLOAD | SLOAD | BALANCE | EXTCODESIZE | BLOCKHASH | CALLDATALOAD =>
    -- the word popped goes to code that leaves the stack, and one word comes back
    exact shifts_bind shifts_pop fun _ f => by simp [stackSize]
  | SHA3 => exact shifts_bind shifts_pop fun _ => shifts_bind shifts_pop fun _ f => by simp [stackSize]
  | MSTORE | MSTORE8 | SSTORE =>
    exact shifts_bind shifts_pop fun _ => shifts_bind shifts_pop fun _ =>
      shifts_of_keeps fun f => by simp [stackSize, wp_ite]
  | MSIZE => exact shifts_bind_keeps shifts_mem fun m => shifts_push _
  | PC => exact shifts_bind_keeps shifts_position fun p => shifts_push _
  | RETURNDATASIZE => exact shifts_bind_keeps shifts_returnData fun r => shifts_push _
  | GAS | ADDRESS | ORIGIN | CALLER | CALLVALUE | CALLDATASIZE | CODESIZE | GASPRICE | COINBASE
    | TIMESTAMP | NUMBER | DIFFICULTY | GASLIMIT => exact shifts_push _
  | CALLDATACOPY | CODECOPY => exact copyDataToMemory_shifts _
  | RETURNDATACOPY =>
    refine shifts_bind_keeps (shifts_peek 1) fun _ => shifts_bind_keeps (shifts_peek 2) fun _ =>
      shifts_bind_keeps shifts_returnData fun r => ?_
    -- the bounds check throws or falls through to the copy
    exact shifts_ite (fun _ => shifts_bind_keeps (shifts_throw _ 0 0) fun _ =>
        shifts_bind_keeps (shifts_lift _) fun d => copyDataToMemory_shifts d)
      fun _ => shifts_bind_keeps (shifts_lift _) fun d => copyDataToMemory_shifts d
  | EXTCODECOPY =>
    exact shifts_bind shifts_pop fun _ => shifts_bind_keeps shifts_ext fun _ =>
      shifts_bind_keeps (shifts_liftExcept _) fun c => copyDataToMemory_shifts c
  | _ =>
    simp only [execPlainInstruction]
    exact execStackInstruction_shifts instruction _

theorem finishCreate_shifts (createResult : ContractCreateResult) :
    Shifts stackSize (finishCreate createResult : Exec σ (InstructionResult Cost)) 0 1 := by
  cases createResult with
  | created address gasLeft =>
    exact shifts_bind (shifts_push _) fun _ => shifts_bind_keeps (shifts_lift _) fun g => shifts_pure _
  | reverted gasLeft returnData =>
    exact shifts_bind (shifts_push _) fun _ => shifts_bind_keeps (shifts_setReturnData _) fun _ =>
      shifts_bind_keeps (shifts_lift _) fun g => shifts_pure _
  | failed => exact shifts_bind (shifts_push _) fun _ => shifts_pure _
  | failedInStaticCall => exact shifts_throw _ _ _

theorem execCreate_shifts (params : ActionParams) (provided : Option Cost) :
    Shifts stackSize (execCreate E params provided : Exec σ (InstructionResult Cost)) 3 1 := by
  refine shifts_bind shifts_pop fun _ => shifts_bind shifts_pop fun _ => shifts_bind shifts_pop fun _ => ?_
  refine shifts_bind_keeps (shifts_lift _) fun createGas => ?_
  -- a static context throws; otherwise the arm pushes one word on every path
  refine shifts_ite (fun _ => shifts_throw_bind _ _ _ _) fun _ => ?_
  refine shifts_bind_keeps shifts_mem fun m => shifts_bind_keeps (shifts_lift _) fun code =>
    shifts_bind_keeps shifts_ext fun s => shifts_bind_keeps (shifts_liftExcept _) fun balance =>
    shifts_bind_keeps (shifts_setReturnData _) fun _ => ?_
  exact shifts_ite (fun _ => shifts_bind (shifts_push 0) fun _ => shifts_pure _)
    fun _ => shifts_bind_keeps (shifts_setExt _) fun _ => finishCreate_shifts _

theorem finishCall_shifts (callResult : MessageCallResult) :
    Shifts stackSize (finishCall callResult : Exec σ (InstructionResult Cost)) 0 1 := by
  cases callResult with
  | success gasLeft data =>
    exact shifts_bind (shifts_push _) fun _ => shifts_bind_keeps (shifts_setReturnData _) fun _ =>
      shifts_bind_keeps (shifts_lift _) fun g => shifts_pure _
  | reverted gasLeft data =>
    exact shifts_bind (shifts_push _) fun _ => shifts_bind_keeps (shifts_setReturnData _) fun _ =>
      shifts_bind_keeps (shifts_lift _) fun g => shifts_pure _
  | failed => exact shifts_bind (shifts_push _) fun _ => shifts_pure _

theorem callParties_shifts (params : ActionParams) (op : Op) (codeAddress : Address)
    (value : Option U256) : Shifts stackSize (callParties E params op codeAddress value) 0 0 := by
  refine shifts_bind_keeps shifts_ext fun s => ?_
  split <;> exact shifts_of_keeps fun f => by simp [wp_ite]

theorem performCall_shifts (params : ActionParams) (op : Op) (callGas : Cost)
    (codeAddress : Address) (value : Option U256) (inOff inSize outOff outSize : U256) :
    Shifts stackSize (performCall E params op callGas codeAddress value inOff inSize outOff outSize)
      0 1 := by
  refine shifts_bind_keeps (callParties_shifts E params op codeAddress value) fun parties => ?_
  obtain ⟨senderAddress, receiveAddress, hasBalance, callType⟩ := parties
  refine shifts_bind_keeps (shifts_setReturnData _) fun _ => ?_
  -- a call that cannot be made pushes `0`; one that is made pushes what `finishCall` pushes
  refine shifts_ite (fun _ => shifts_bind (shifts_push 0) fun _ => shifts_pure _) fun _ => ?_
  refine shifts_bind_keeps shifts_mem fun m => shifts_bind_keeps (shifts_lift _) fun input =>
    shifts_bind_keeps (shifts_lift _) fun out => ?_
  obtain ⟨outStart, outLen⟩ := out
  exact shifts_bind_keeps shifts_ext fun s => shifts_bind_keeps (shifts_setExt _) fun _ =>
    shifts_bind_keeps (shifts_setMem _) fun _ => finishCall_shifts _

theorem callValue_shifts_pop {op : Op} (h₁ : op ≠ .DELEGATECALL) (h₂ : op ≠ .STATICCALL) :
    Shifts stackSize (callValue op : Exec σ (Option U256)) 1 0 := by
  unfold callValue
  rw [if_neg h₁, if_neg h₂]
  exact shifts_bind shifts_pop fun _ => shifts_pure _

theorem callValue_shifts_none {op : Op} (h : op = .DELEGATECALL ∨ op = .STATICCALL) :
    Shifts stackSize (callValue op : Exec σ (Option U256)) 0 0 := by
  unfold callValue
  exact shifts_ite (fun _ => shifts_pure _) fun h₁ => shifts_ite (fun _ => shifts_pure _)
    fun h₂ => absurd (h.resolve_left h₁) h₂

/-- The `CALL` arm takes six words and the value, if the call carries one,
and leaves the flag of the call. -/
theorem execCall_shifts {params : ActionParams} {op : Op} {provided : Option Cost} {k : Nat}
    (hvalue : Shifts stackSize (callValue op : Exec σ (Option U256)) k 0) :
    Shifts stackSize (execCall E params op provided) (4 + k + 2) 1 := by
  refine shifts_bind_keeps (shifts_lift _) fun _ => shifts_bind shifts_pop fun _ =>
    shifts_bind_keeps (shifts_lift _) fun callGas => shifts_bind shifts_pop fun address => ?_
  refine shifts_bind hvalue fun value => ?_
  exact shifts_bind shifts_pop fun inOff => shifts_bind shifts_pop fun inSize =>
    shifts_bind shifts_pop fun outOff => shifts_bind shifts_pop fun outSize =>
    shifts_bind_keeps (shifts_lift _) fun callGas => performCall_shifts E params op _ _ _ _ _ _ _

theorem execInstruction_shifts (sha3 : Bytes → H256) (gas : Cost) (params : ActionParams)
    (code : Bytes) (instruction : UInt8) (op : Op) (provided : Option Cost) :
    Shifts stackSize (execInstruction E sha3 gas params code instruction op provided)
      op.info.args op.info.ret := by
  cases op with
  | JUMP => exact shifts_bind shifts_pop fun _ => shifts_pure _
  | JUMPI | RETURN | REVERT => exact shifts_bind shifts_pop fun _ => shifts_bind shifts_pop fun _ => shifts_pure _
  | JUMPDEST | STOP => exact shifts_pure _
  | CREATE => exact execCreate_shifts E params provided
  | CALL | CALLCODE => exact execCall_shifts E (callValue_shifts_pop (by decide) (by decide))
  | DELEGATECALL => exact execCall_shifts E (callValue_shifts_none (.inl rfl))
  | STATICCALL => exact execCall_shifts E (callValue_shifts_none (.inr rfl))
  | SUICIDE => exact shifts_bind shifts_pop fun _ f => by simp [stackSize]
  | _ =>
    simp only [execInstruction]
    exact (shifts_bind (execPlainInstruction_shifts E sha3 gas params code instruction _) fun _ =>
      shifts_pure _).congr (by omega)

theorem verifyInstruction_invalid {instruction : UInt8} (stack : List U256)
    (h : (instructions instruction).tier = .invalid) :
    verifyInstruction E instruction (instructions instruction) stack =
      .error (.badInstruction instruction) := by
  rw [verifyInstruction, if_pos h]

/-- A byte without an entry in `INSTRUCTIONS` stops the loop with `BadInstruction`. -/
theorem execStep_invalid (sha3 : Bytes → H256) (params : ActionParams) (code : Bytes)
    (dests : List Nat) {m : Machine Cost σ} (hpos : m.frame.position < code.length)
    (h : (instructions (code.getD m.frame.position 0)).tier = .invalid) :
    execStep E sha3 params code dests m = .err (.badInstruction (code.getD m.frame.position 0)) := by
  have hv := verifyInstruction_invalid E { m.frame with position := m.frame.position + 1 }.stack h
  unfold instructions at hv
  simp only [execStep, if_pos hpos, hv, Outcome.ofExcept_error, Outcome.err_bind]

/-- `exec_instruction` moves the stack as `INSTRUCTIONS` says, and a byte
whose entry is `Invalid` stops the loop with `BadInstruction`. -/
theorem instructionTable_agrees (sha3 : Bytes → H256) (gas : Cost) (params : ActionParams)
    (code : Bytes) :
    (∀ (instruction : UInt8) (provided : Option Cost) (f f' : Frame σ) (r : InstructionResult Cost),
      (instructions instruction).args ≤ f.stack.length →
      (execInstruction E sha3 gas params code instruction (decode instruction) provided).run f =
        .ok (r, f') →
      f'.stack.length =
        f.stack.length - (instructions instruction).args + (instructions instruction).ret) ∧
    (∀ (dests : List Nat) (m : Machine Cost σ), m.frame.position < code.length →
      (instructions (code.getD m.frame.position 0)).tier = .invalid →
      execStep E sha3 params code dests m = .err (.badInstruction (code.getD m.frame.position 0))) := by
  refine ⟨fun instruction provided f f' r hargs hrun => ?_,
    fun dests m hpos h => execStep_invalid E sha3 params code dests hpos h⟩
  have hmove :=
    (execInstruction_shifts E sha3 gas params code instruction (decode instruction) provided).apply hrun
  unfold stackSize at hmove
  unfold instructions at hargs ⊢
  omega

end Arms

/-- A message call with 100 gas that runs `code`. -/
def ActionParams.ofCode (code : Bytes) : ActionParams :=
  ⟨0, 0, 0, 0, 0, 100, 0, .transfer 0, some code, none, .none⟩

/-- `ADD` on two words leaves one, and the byte `0x0c`, which names no
instruction, stops the loop. -/
theorem instructionTable_agrees_add :
    (∃ r f', (execInstruction Ext.inert (fun _ => 0) (3 : Usize) (ActionParams.ofCode [0x01]) [0x01] 0x01
        (decode 0x01) none).run ⟨[], .empty, [2, 3], 1, ()⟩ = .ok (r, f') ∧
      (instructions 0x01).args ≤ [2, 3].length ∧
      f'.stack.length = [2, 3].length - (instructions 0x01).args + (instructions 0x01).ret) ∧
    (0 < [0x0c].length ∧ (instructions (([0x0c] : Bytes).getD 0 0)).tier = .invalid ∧
      execStep Ext.inert (fun _ => 0) (ActionParams.ofCode [0x0c]) [0x0c] []
          (⟨⟨[], .empty, [], 0, ()⟩, Gasometer.new (100 : Usize)⟩ : Machine Usize Unit) =
        .err (.badInstruction (([0x0c] : Bytes).getD 0 0))) := by
  obtain ⟨⟨r, f'⟩, hrun⟩ : ∃ p, (execInstruction Ext.inert (fun _ => 0) (3 : Usize) (ActionParams.ofCode [0x01])
      [0x01] 0x01 (decode 0x01) none).run ⟨[], .empty, [2, 3], 1, ()⟩ = .ok p := ⟨_, rfl⟩
  have hargs : (instructions 0x01).args ≤ [2, 3].length := by decide
  have hinvalid : (instructions (([0x0c] : Bytes).getD 0 0)).tier = .invalid := by decide
  have htable := instructionTable_agrees Ext.inert (fun _ => 0) (3 : Usize) (ActionParams.ofCode [0x01]) [0x01]
  have htable' := instructionTable_agrees Ext.inert (fun _ => 0) (3 : Usize) (ActionParams.ofCode [0x0c]) [0x0c]
  exact ⟨⟨r, f', hrun, hargs, htable.1 0x01 none _ f' r hargs hrun⟩,
    by decide, hinvalid, htable'.2 [] ⟨⟨[], .empty, [], 0, ()⟩, Gasometer.new 100⟩ (by decide) hinvalid⟩

end Cita
