import Cita.Executor.Executive

/-!
# Executing a block's transactions (`libexecutor/block.rs`, `govm_adapter.rs`)

`OpenBlock::apply_transactions` runs the block's transactions in order.
A call to an address in the Go contract range, and a `GoCreate` whose data
names such an address, go to `apply_grpc_vm`, which lets
`CallEvmImpl::transact` ask the contract's gRPC service; every other
transaction goes through `apply_transaction` and `State::apply`. Each path
pushes the receipt it gets and moves `current_gas_used` to the receipt's
cumulative gas, charging the difference to the sender's account gas when
quotas are checked.

Every run leaves at most one receipt per transaction, the transaction's
own, in the order of the transactions, and the block's gas never goes down
(`applyFrom_receipts_sublist`). Without Go contract transactions the
receipts are one per transaction, with a cumulative gas that rises from
the block's gas before to its `gas_used` (`applyTransactions_receipts`):
`State::apply` makes every receipt the transaction's and counts the gas
before it (`apply_receipt`), and `pushReceipt` checks the rise.

The Go path breaks both: a Go contract transaction whose service fails
with anything but an execution error leaves no receipt, and an execution
error leaves a receipt whose cumulative gas is zero
(`applyTransactions_receipts_diverge`). `AbiStore` data is sliced without a length check
(`applyTransactions_short_data_panics`); `GoCreate` data is read with
`Address::from_slice`, which pads or cuts it to 20 bytes.

The service is a parameter (`GoService`): what it answers to each
transaction, with `gas_left` as the number its text parses to. The
executor's interruption flag is read as a constant, and the commit of the
state to the tries at the end is left out: it changes no receipt.
-/

namespace Cita

namespace Executor

open StateRun

/-- `LOW_CONTRACT_ADDRESS`, `GO_CONTRACT_MIN`. -/
def lowContractAddress : Address := 0xffffffffffffffffffffffffffffffffff018001#160

/-- `HIGH_CONTRACT_ADDRESS`, `GO_CONTRACT_MAX`. -/
def highContractAddress : Address := 0xffffffffffffffffffffffffffffffffff018fff#160

/-- `is_go_contract`: strictly between the two bounds. -/
def isGoContract (caddr : Address) : Bool :=
  decide (lowContractAddress < caddr) && decide (caddr < highContractAddress)

/-- `CHECK_NUM`. -/
def checkNum : Nat := 0xff

/-- A storage entry of an `InvokeResponse`. -/
structure StorageEntry where
  key : Bytes
  value : Bytes

/-- A log of an `InvokeResponse`. -/
structure ResponseLog where
  topic : Bytes
  data : Bytes

/-- `InvokeResponse`, with `gas_left` as the number its text parses to. -/
structure InvokeResponse where
  storages : List StorageEntry
  gasLeft : U256
  logs : List ResponseLog

/-- What the Go contract service answers to a transaction: a response, or
the gRPC error. -/
abbrev GoService := SignedTransaction → Except String InvokeResponse

/-- The kinds of executor `Error` the modelled code returns. -/
inductive ExecutorError where
  | execution (e : ExecutionError)
  | stdIo (msg : String)

/-! ## `CallEvmImpl::transact` -/

/-- `CallEvmImpl::set_bytes`: the length at `key`, then the bytes in words
of 32 from `key + 1` on. -/
def setBytes (address : Address) (key : H256) (info : Bytes) : StateRun ExecutorError Unit := do
  if info.length = 0 then return
  update (·.setStorage address key (BitVec.ofNat 256 info.length))
  let mut pos ← panicking (uintAdd key 1)
  for chunk in info.toChunks 32 do
    update (·.setStorage address pos (h256FromSlice chunk))
    pos ← panicking (uintAdd pos 1)

/-- A log of the response as a `LogEntry` of the sender; each 32 bytes of
its topic are one topic. -/
def responseLogEntry (sender : Address) (log : ResponseLog) : LogEntry :=
  ⟨sender, (log.topic.toChunks 32).map h256FromSlice, log.data⟩

/-- `CallEvmImpl::transact`; its `gas_used` starts at zero for every
transaction. -/
def callEvmTransact (service : GoService) (bloomed : Bytes → LogBloom) (p : Permissions)
    (checkPermission : Bool) (t : SignedTransaction) : StateRun ExecutorError Receipt := do
  let sender := t.sender
  let nonce ← query (·.nonce sender)
  update (·.incNonce sender)
  if checkPermission then
    match Executor.checkPermission p t with
    | .error e => throw (.execution e)
    | .ok () => pure ()
  let baseGasRequired : U256 := 100
  if sender ≠ 0 ∧ t.action ≠ .store ∧ t.gas < baseGasRequired then
    throw (.execution (.notEnoughBaseGas baseGasRequired t.gas))
  let resp := service t
  let contractAddress := match t.action with
    | .call addr => addr
    | _ => addressFromSlice t.data
  match resp with
  | .ok resp => do
      for storage in resp.storages do
        setBytes contractAddress (h256FromSlice storage.key) storage.value
      let gasUsed ← panicking (uintSub t.gas resp.gasLeft)
      let cumulativeGasUsed ← panicking (uintAdd 0 gasUsed)
      let logs := resp.logs.map (responseLogEntry sender)
      pure (Receipt.new bloomed none cumulativeGasUsed logs none nonce t.hash)
  | .error msg => throw (.stdIo msg)

/-- Every receipt of `CallEvmImpl::transact` is the transaction's. -/
theorem callEvmTransact_hash (service : GoService) (bloomed : Bytes → LogBloom) (p : Permissions)
    (checkPermission : Bool) (t : SignedTransaction) :
    Ensures (callEvmTransact service bloomed p checkPermission t) (·.transactionHash = t.hash) := by
  unfold callEvmTransact
  refine ensures_bind fun nonce => ensures_bind fun _ => ?_
  extract_lets baseGasRequired resp contractAddress contract base
  clear_value resp contractAddress
  -- the service's response is the receipt, or a `StdIo` error
  have hcontract : ∀ u, Ensures (contract u) (·.transactionHash = t.hash) := by
    intro _
    unfold contract
    cases resp with
    | ok resp =>
      exact ensures_bind fun _ => ensures_bind fun _ => ensures_bind fun _ => ensures_pure rfl
    | error msg => exact ensures_throw _
  clear_value contract
  have hbase : ∀ u, Ensures (base u) (·.transactionHash = t.hash) :=
    fun _ => ensures_ite (fun _ => ensures_bind hcontract) fun _ => hcontract ()
  refine ensures_ite (fun _ => ?_) fun _ => hbase ()
  split
  · exact ensures_bind hbase
  · exact hbase ()

/-- The cumulative gas of `receipts` rises from `gasBefore`, one receipt
after the other, and ends at `gasAfter`. -/
def CumulativeGas : U256 → List Receipt → U256 → Prop
  | gasBefore, [], gasAfter => gasBefore = gasAfter
  | gasBefore, r :: rs, gasAfter => gasBefore.toNat ≤ r.gasUsed.toNat ∧ CumulativeGas r.gasUsed rs gasAfter

/-! ## `OpenBlock` -/

/-- The fields of `OpenBlock` that executing its transactions reads and
writes. -/
structure OpenBlock where
  state : State
  transactions : List SignedTransaction
  author : Address
  permissions : Permissions
  receipts : List Receipt
  currentGasUsed : U256
  accountGasLimit : U256
  accountGas : Address → Option U256
  gasUsed : U256

/-- What `apply_transactions` reads of the `Executor`. -/
structure BlockExecutor where
  isInterrupted : Bool
  economicalModel : EconomicalModel
  service : GoService
  vm : Vm

namespace OpenBlock

variable {b b' : OpenBlock} {exec : BlockExecutor} {t : SignedTransaction}
  {checkPermission checkQuota : Bool}

/-- `env_info()`, as far as a transaction reads it. -/
def envInfo (b : OpenBlock) : EnvInfo := ⟨b.author, b.currentGasUsed⟩

/-- The bookkeeping after a receipt: `current_gas_used` moves to the
receipt's gas, the difference is charged to the sender's account gas when
quotas are checked, and the receipt is pushed. -/
def pushReceipt (b : OpenBlock) (t : SignedTransaction) (checkQuota : Bool) (receipt : Receipt) :
    Outcome Empty OpenBlock := do
  let transactionGasUsed ← uintSub receipt.gasUsed b.currentGasUsed
  let accountGas ← if checkQuota then
      match b.accountGas t.sender with
      | some value => do
          let value ← uintSub value transactionGasUsed
          pure (Function.update b.accountGas t.sender (some value))
      | none => pure b.accountGas
    else pure b.accountGas
  pure { b with
    currentGasUsed := receipt.gasUsed
    accountGas := accountGas
    receipts := b.receipts ++ [receipt] }

/-- What `pushReceipt` does, when it does not panic: the receipt's gas is at
least the block's, and the receipt is pushed. -/
theorem pushReceipt_spec {r : Receipt} (h : b.pushReceipt t checkQuota r = .ok b') :
    b'.receipts = b.receipts ++ [r] ∧ b'.currentGasUsed = r.gasUsed ∧
      b.currentGasUsed.toNat ≤ r.gasUsed.toNat := by
  unfold pushReceipt at h
  obtain ⟨used, hused, h⟩ := Outcome.bind_eq_ok.mp h
  -- whatever is charged to the sender's account gas, the receipt is pushed
  have hb' : ∃ accountGas, b' =
      { b with currentGasUsed := r.gasUsed, accountGas := accountGas, receipts := b.receipts ++ [r] } := by
    dsimp only at h
    split at h
    · split at h
      · obtain ⟨_, -, h⟩ := Outcome.bind_eq_ok.mp h
        exact ⟨_, (Outcome.ok.inj h).symm⟩
      · exact ⟨_, (Outcome.ok.inj h).symm⟩
    · exact ⟨_, (Outcome.ok.inj h).symm⟩
  obtain ⟨_, rfl⟩ := hb'
  exact ⟨rfl, rfl, (toNat_of_uintSub_eq_ok hused).1⟩

/-- `apply_transaction`. -/
def applyTransaction (b : OpenBlock) (exec : BlockExecutor) (t : SignedTransaction)
    (checkPermission checkQuota : Bool) : Outcome Empty OpenBlock := do
  let b := { b with accountGas := FunMap.orInsert b.accountGas t.sender b.accountGasLimit }
  let E : Executive := ⟨b.envInfo, exec.economicalModel, b.permissions⟩
  let (receipt, state) ← (apply E exec.vm t false checkPermission checkQuota).run b.state
  { b with state := state }.pushReceipt t checkQuota receipt

/-- `apply_transaction` pushes one receipt, the transaction's, whose gas is
the block's new gas. -/
theorem applyTransaction_receipt (h : b.applyTransaction exec t checkPermission checkQuota = .ok b') :
    ∃ r, b'.receipts = b.receipts ++ [r] ∧ r.transactionHash = t.hash ∧
      b'.currentGasUsed = r.gasUsed ∧ b.currentGasUsed.toNat ≤ r.gasUsed.toNat := by
  unfold applyTransaction at h
  obtain ⟨⟨r, state⟩, hr, h⟩ := Outcome.bind_eq_ok.mp h
  obtain ⟨hrs, hcur, hle⟩ := pushReceipt_spec h
  exact ⟨r, hrs, (apply_receipt _ _ t false checkPermission checkQuota _ r state hr).1, hcur, hle⟩

/-- `apply_grpc_vm`: an execution error leaves a receipt with no gas, any
other error none. -/
def applyGrpcVm (b : OpenBlock) (exec : BlockExecutor) (t : SignedTransaction)
    (checkPermission checkQuota : Bool) : Outcome Empty OpenBlock := do
  let (ret, state) ← (callEvmTransact exec.service exec.vm.bloomed b.permissions checkPermission t).run.run b.state
  let b := { b with state := state }
  match ret with
  | .ok receipt => b.pushReceipt t checkQuota receipt
  | .error (.execution e) =>
      pure { b with receipts :=
        b.receipts ++ [Receipt.new exec.vm.bloomed none 0 [] (some (ReceiptError.ofExecutionError e)) 0 t.hash] }
  | .error _ => pure b

/-- `apply_grpc_vm` pushes at most one receipt, the transaction's, and the
block's gas does not go down. -/
theorem applyGrpcVm_receipt (h : b.applyGrpcVm exec t checkPermission checkQuota = .ok b') :
    (b'.receipts = b.receipts ∨ ∃ r, b'.receipts = b.receipts ++ [r] ∧ r.transactionHash = t.hash) ∧
      b.currentGasUsed.toNat ≤ b'.currentGasUsed.toNat := by
  unfold applyGrpcVm at h
  obtain ⟨⟨ret, state⟩, hret, h⟩ := Outcome.bind_eq_ok.mp h
  dsimp only at h
  cases ret with
  | ok receipt =>
      obtain ⟨hrs, hcur, hle⟩ := pushReceipt_spec h
      have hhash := (callEvmTransact_hash _ _ _ _ t).apply hret
      exact ⟨.inr ⟨receipt, hrs, hhash⟩, hcur ▸ hle⟩
  | error err =>
      cases err with
      | execution e =>
          -- an execution error leaves a receipt with no gas
          cases h
          exact ⟨.inr ⟨_, rfl, rfl⟩, le_rfl⟩
      | stdIo msg =>
          cases h
          exact ⟨.inl rfl, le_rfl⟩

/-- Whether `apply_transactions` sends `t` to a Go contract: a call to
one, or a `GoCreate` whose data, read by `Address::from_slice`, names one. -/
def goContract (t : SignedTransaction) : Bool :=
  match t.action with
  | .call address => isGoContract address
  | .goCreate => isGoContract (addressFromSlice t.data)
  | _ => false

/-- The loop of `apply_transactions` over the transactions from `index` on;
`false` when the executor is interrupted at a multiple of 256. -/
def applyFrom (exec : BlockExecutor) (checkPermission checkQuota : Bool) :
    Nat → List SignedTransaction → OpenBlock → Outcome Empty (Bool × OpenBlock)
  | _, [], b => pure (true, b)
  | index, t :: ts, b => do
      if index &&& checkNum = 0 ∧ exec.isInterrupted then return (false, b)
      let b ← if goContract t then b.applyGrpcVm exec t checkPermission checkQuota
        else b.applyTransaction exec t checkPermission checkQuota
      applyFrom exec checkPermission checkQuota (index + 1) ts b

/-- One step of the loop: an interruption, or the transaction on its path. -/
theorem applyFrom_cons_eq_ok {i : Nat} {ts : List SignedTransaction} {done : Bool}
    (h : applyFrom exec checkPermission checkQuota i (t :: ts) b = .ok (done, b')) :
    (done = false ∧ b' = b) ∨
    ∃ b₁, (if goContract t then b.applyGrpcVm exec t checkPermission checkQuota
        else b.applyTransaction exec t checkPermission checkQuota) = .ok b₁ ∧
      applyFrom exec checkPermission checkQuota (i + 1) ts b₁ = .ok (done, b') := by
  simp only [applyFrom] at h
  split at h
  · cases h
    exact .inl ⟨rfl, rfl⟩
  · -- both paths run the rest of the loop on the block they return
    refine .inr ?_
    by_cases hgo : goContract t = true
    · rw [if_pos hgo] at h ⊢
      exact Outcome.bind_eq_ok.mp h
    · rw [if_neg hgo] at h ⊢
      exact Outcome.bind_eq_ok.mp h

/-- The receipts of a run are some of its transactions', in their order, and
the block's gas does not go down. -/
theorem applyFrom_receipts_sublist {i : Nat} {ts : List SignedTransaction} {done : Bool}
    (h : applyFrom exec checkPermission checkQuota i ts b = .ok (done, b')) :
    ∃ rs, b'.receipts = b.receipts ++ rs ∧
      (rs.map Receipt.transactionHash).Sublist (ts.map SignedTransaction.hash) ∧
      b.currentGasUsed.toNat ≤ b'.currentGasUsed.toNat := by
  induction ts generalizing i b with
  | nil =>
      cases h
      exact ⟨[], by simp, List.nil_sublist _, le_rfl⟩
  | cons t ts ih =>
      rcases applyFrom_cons_eq_ok h with ⟨-, rfl⟩ | ⟨b₁, hb₁, h⟩
      · exact ⟨[], by simp, List.nil_sublist _, le_rfl⟩
      · obtain ⟨rs, hrs, hsub, hle⟩ := ih h
        -- the transaction's own step leaves at most one receipt, its own
        have hstep : (b₁.receipts = b.receipts ∨
            ∃ r, b₁.receipts = b.receipts ++ [r] ∧ r.transactionHash = t.hash) ∧
            b.currentGasUsed.toNat ≤ b₁.currentGasUsed.toNat := by
          cases hgo : goContract t
          · rw [hgo, if_neg Bool.false_ne_true] at hb₁
            obtain ⟨r, hr, hhash, hcur, hle⟩ := applyTransaction_receipt hb₁
            exact ⟨.inr ⟨r, hr, hhash⟩, hcur ▸ hle⟩
          · rw [hgo, if_pos rfl] at hb₁
            exact applyGrpcVm_receipt hb₁
        obtain ⟨hone | ⟨r, hr, hhash⟩, hle₁⟩ := hstep
        · exact ⟨rs, by rw [hrs, hone], hsub.cons _, le_trans hle₁ hle⟩
        · refine ⟨r :: rs, by rw [hrs, hr, List.append_assoc, List.singleton_append], ?_, le_trans hle₁ hle⟩
          rw [List.map_cons, List.map_cons, hhash]
          exact hsub.cons_cons _

/-- Without Go contract transactions, a run that is not interrupted leaves
one receipt per transaction, in their order, with a cumulative gas that
rises from the block's gas before to its gas after. -/
theorem applyFrom_receipts_of_evm {i : Nat} {ts : List SignedTransaction}
    (hgo : ∀ t ∈ ts, goContract t = false)
    (h : applyFrom exec checkPermission checkQuota i ts b = .ok (true, b')) :
    ∃ rs, b'.receipts = b.receipts ++ rs ∧
      rs.map Receipt.transactionHash = ts.map SignedTransaction.hash ∧
      CumulativeGas b.currentGasUsed rs b'.currentGasUsed := by
  induction ts generalizing i b with
  | nil =>
      cases h
      exact ⟨[], by simp, rfl, rfl⟩
  | cons t ts ih =>
      rcases applyFrom_cons_eq_ok h with ⟨hdone, -⟩ | ⟨b₁, hb₁, h⟩
      · cases hdone
      · -- `t` goes through `apply_transaction`
        rw [hgo t List.mem_cons_self, if_neg Bool.false_ne_true] at hb₁
        obtain ⟨r, hr, hhash, hcur, hle⟩ := applyTransaction_receipt hb₁
        obtain ⟨rs, hrs, hmap, hgas⟩ := ih (fun t' ht' => hgo t' (List.mem_cons_of_mem _ ht')) h
        refine ⟨r :: rs, by rw [hrs, hr, List.append_assoc, List.singleton_append], ?_, hle, ?_⟩
        · rw [List.map_cons, List.map_cons, hhash, hmap]
        · rw [← hcur]
          exact hgas

/-- `apply_transactions`. -/
def applyTransactions (b : OpenBlock) (exec : BlockExecutor) (checkPermission checkQuota : Bool) :
    Outcome Empty (Bool × OpenBlock) := do
  let (done, b) ← applyFrom exec checkPermission checkQuota 0 b.transactions b
  if !done then return (false, b)
  pure (true, { b with gasUsed := b.currentGasUsed })

/-- `apply_transactions` on a block without Go contract transactions: one
receipt per transaction, in their order, whose cumulative gas rises to the
block's `gas_used`. -/
theorem applyTransactions_receipts (hgo : ∀ t ∈ b.transactions, goContract t = false)
    (h : b.applyTransactions exec checkPermission checkQuota = .ok (true, b')) :
    ∃ rs, b'.receipts = b.receipts ++ rs ∧
      rs.map Receipt.transactionHash = b.transactions.map SignedTransaction.hash ∧
      CumulativeGas b.currentGasUsed rs b'.gasUsed := by
  unfold applyTransactions at h
  obtain ⟨⟨done, b₁⟩, hrun, h⟩ := Outcome.bind_eq_ok.mp h
  -- an interrupted run returns `false`
  cases done
  · cases h
  · cases h
    obtain ⟨rs, hrs, hmap, hgas⟩ := applyFrom_receipts_of_evm hgo hrun
    exact ⟨rs, hrs, hmap, hgas⟩

end OpenBlock

/-- A block by author 2 over the trie `Backend.funded`, with no permissions. -/
def OpenBlock.ofTransactions (txs : List SignedTransaction) : OpenBlock :=
  ⟨State.fromExisting Backend.funded 0, txs, 2, ⟨fun _ => none, [], none⟩, [], 0, 0,
    fun _ => none, 0⟩

/-- An executor charging gas whose Go contract service cannot be reached. -/
def BlockExecutor.unreachableService : BlockExecutor :=
  ⟨false, .charge, fun _ => .error "connection refused", Vm.inert⟩

/-- A transaction of account 1 with quota 100. -/
def SignedTransaction.ofAction (data : Bytes) (action : Action) : SignedTransaction :=
  ⟨1, 100, 0, data, action, 7⟩

theorem applyTransactions_receipts_twoStores :
    (∀ t ∈ (OpenBlock.ofTransactions [.ofAction [] .store, .ofAction [1] .store]).transactions,
        OpenBlock.goContract t = false) ∧
      ∃ b', (OpenBlock.ofTransactions [.ofAction [] .store, .ofAction [1] .store]).applyTransactions
          BlockExecutor.unreachableService false false = .ok (true, b') ∧
        ∃ rs, b'.receipts = [] ++ rs ∧
          rs.map Receipt.transactionHash = [7, 7] ∧ CumulativeGas 0 rs b'.gasUsed := by
  have hgo : ∀ t ∈ (OpenBlock.ofTransactions [.ofAction [] .store, .ofAction [1] .store]).transactions,
      OpenBlock.goContract t = false := by decide
  have hdone : ((·.1) <$> (OpenBlock.ofTransactions [.ofAction [] .store, .ofAction [1] .store]).applyTransactions
      BlockExecutor.unreachableService false false) = .ok true := by decide +kernel
  obtain ⟨⟨done, b'⟩, hb', rfl⟩ := Outcome.map_eq_ok.mp hdone
  exact ⟨hgo, b', hb', OpenBlock.applyTransactions_receipts hgo hb'⟩

/-- An address in the Go contract range. -/
def goContractAddress : Address := 0xffffffffffffffffffffffffffffffffff018002#160

theorem applyTransactions_short_data_panics :
    (OpenBlock.ofTransactions [.ofAction [] .abiStore]).applyTransactions
      BlockExecutor.unreachableService false false = .panic "range end index out of range for slice" := by
  rfl

theorem applyTransactions_receipts_diverge :
    ((fun r => r.2.receipts.length) <$> (OpenBlock.ofTransactions
      [.ofAction [] (.call goContractAddress)]).applyTransactions
        BlockExecutor.unreachableService false false) = .ok 0 ∧
    ((fun r => r.2.receipts.map Receipt.gasUsed) <$> (OpenBlock.ofTransactions
      [.ofAction [] .store, { SignedTransaction.ofAction [] (.call goContractAddress) with gas := 50 }]).applyTransactions
        BlockExecutor.unreachableService false false) = .ok [100, 0] := by
  constructor <;> decide +kernel

/-- A transaction of account 1 with quota 50, below the base gas of 100. -/
def SignedTransaction.lowQuota : SignedTransaction := ⟨1, 50, 0, [], .store, 7⟩

theorem apply_low_quota_charges_more :
    ((fun p => p.1.gasUsed) <$> (apply Executive.charging Vm.inert SignedTransaction.lowQuota
      false false false).run (State.fromExisting Backend.funded 0)) = .ok 100 ∧
    ((fun r => r.2.receipts.length) <$>
      ({ OpenBlock.ofTransactions [SignedTransaction.lowQuota] with accountGasLimit := 50 }).applyTransactions
        BlockExecutor.unreachableService false true) = .panic "arithmetic operation overflow" := by
  constructor
  · decide
  · decide +kernel

end Executor

end Cita
