import Cita.Executor.State
import Cita.Chain.Types
import Cita.Lib.Ensures
import Cita.Lib.Slice

/-!
# Executing one transaction (`executive.rs`, `State::apply`)

`Executive::transact` increments the sender's nonce, checks permissions
and the base gas of 100, performs the special actions (`AbiStore`,
`AmendData`) on the state, charges the sender the gas up front when the
economical model is `Charge`, then runs the action and `finalize`s: the
unused gas is refunded to the sender and the used gas paid to the block's
author. `State::apply` turns the outcome into a receipt; for an `Err` it
charges the sender once more, at most 100 gas, and pays that to the author.

A Rust `Err` returned by `transact` keeps every change made to the state
before it, so the code runs in `ExceptT` over state passing: an error
carries the state as it is, and a panic stops everything. Every path of
`transact` that returns `Ok` ends in `finalize`, whose cumulative gas adds
the transaction's to the block's (`transact_cumulativeGasUsed`, walked
with `Ensures` one join point of the `do` block at a time); so every
receipt of `State::apply` is the transaction's and counts the block's gas
before it (`apply_receipt`).

The message calls of `Create` and `Call` transactions (`Executive::create`
and `Executive::call`, which run the interpreter or a native contract under
their own checkpoints) and the hashes they and the receipts' blooms need are
the parameters `Vm`.

`transact_set_abi`, `transact_set_code` and the key-value amendments slice
the data without checking its length, before any gas is charged. A `Store`
transaction whose quota does not cover its data is charged up front,
fails, and is charged again by `State::apply`, so the balances lose what
`transact` charged (`apply_store_short_quota_loses_balance`).
-/

namespace Cita

namespace Executor

/-- `Action`. -/
inductive Action where
  | store
  | create
  | call (address : Address)
  | abiStore
  | goCreate
  | amendData
deriving Repr, DecidableEq

/-- The fields of `SignedTransaction` the executor reads. -/
structure SignedTransaction where
  sender : Address
  gas : U256
  value : U256
  data : Bytes
  action : Action
  hash : H256

/-- `gas_price()`, which is one for every transaction. -/
def SignedTransaction.gasPrice (_t : SignedTransaction) : U256 := 1

/-- `ExecutionError`; the `U512` amounts of `NotEnoughCash` are numbers. -/
inductive ExecutionError where
  | notEnoughBaseGas (required got : U256)
  | blockGasLimitReached (gasLimit gasUsed gas : U256)
  | accountGasLimitReached (gasLimit gas : U256)
  | invalidNonce (expected got : U256)
  | notEnoughCash (required got : Nat)
  | noTransactionPermission
  | noContractPermission
  | noCallPermission
  | executionInternal (msg : String)
  | transactionMalformed (msg : String)
deriving Repr, DecidableEq

/-- `EconomicalModel`. -/
inductive EconomicalModel where
  | quota
  | charge
deriving Repr, DecidableEq

/-- `TransactOptions`. -/
structure TransactOptions where
  tracing : Bool
  vmTracing : Bool
  checkPermission : Bool
  checkQuota : Bool

/-- The fields of `EnvInfo` a transaction reads: the block's author and the
gas used by the block's transactions before it. -/
structure EnvInfo where
  author : Address
  gasUsed : U256

/-- `Substate`; its sets are lists. -/
structure Substate where
  suicides : List Address
  garbage : List Address
  logs : List LogEntry
  sstoreClearsCount : U256
  contractsCreated : List Address

/-- `Substate::new()`. -/
def Substate.new : Substate := ⟨[], [], [], 0, []⟩

/-- `FinalizationResult`. -/
structure FinalizationResult where
  gasLeft : U256
  returnData : ReturnData
  applyState : Bool

/-- `Executed`, without its traces and state diff. -/
structure Executed where
  exception : Option Error
  gas : U256
  gasUsed : U256
  refunded : U256
  cumulativeGasUsed : U256
  logs : List LogEntry
  contractsCreated : List Address
  output : Bytes
  accountNonce : U256

/-- `Resource`. -/
structure Resource where
  cont : Address
  func : Bytes
deriving DecidableEq

/-- The permission tables and the super admin that `State` holds for the
executive, which only reads them. `group_accounts` is iterated, so it is a
list of its entries. -/
structure Permissions where
  accountPermissions : Address → Option (List Resource)
  groupAccounts : List (Address × List Address)
  superAdminAccount : Option Address

/-- What transaction execution calls and this model does not describe:
the `crypt_hash` of bytes, the bits a piece of raw data sets in a bloom
(`BloomTools::accrue_raw`), `contract_address`, and `Executive::create` and
`Executive::call` with the substate they extend. -/
structure Vm where
  cryptHash : Bytes → H256
  bloomed : Bytes → LogBloom
  contractAddress : Address → U256 → Address
  create : ActionParams → Substate → State →
    Outcome Empty ((Except Error FinalizationResult × Substate) × State)
  call : ActionParams → Substate → State →
    Outcome Empty ((Except Error FinalizationResult × Bytes × Substate) × State)

/-- Code that changes the state and may return a Rust `Err` of type `ε`,
which keeps the changes made before it, or panic. -/
abbrev StateRun (ε α : Type) := ExceptT ε (StateT State (Outcome Empty)) α

/-- The code of `Executive`, whose errors are `ExecutionError`s. -/
abbrev ExecM (α : Type) := StateRun ExecutionError α

namespace StateRun

variable {ε α : Type}

/-- A state change that may panic. -/
def update (f : State → Outcome Empty State) : StateRun ε Unit :=
  ExceptT.lift fun s => do
    let s' ← f s
    pure ((), s')

/-- A query and the caching it does. -/
def query (f : State → α × State) : StateRun ε α :=
  ExceptT.lift fun s => pure (f s)

/-- A computation that may panic but does not touch the state. -/
def panicking (o : Outcome Empty α) : StateRun ε α :=
  ExceptT.lift (StateT.lift o)

theorem ensures_panicking (o : Outcome Empty α) : Ensures (panicking o : StateRun ε α) (o = .ok ·) :=
  ensures_lift_lift o

end StateRun

open StateRun

/-! ## Permissions -/

/-- `reserved_addresses::PERMISSION_SEND_TX`. -/
def permissionSendTx : Address := 0xffffffffffffffffffffffffffffffffff021000#160

/-- `reserved_addresses::PERMISSION_CREATE_CONTRACT`. -/
def permissionCreateContract : Address := 0xffffffffffffffffffffffffffffffffff021001#160

/-- `reserved_addresses::GROUP_MANAGEMENT`. -/
def groupManagement : Address := 0xffffffffffffffffffffffffffffffffff02000a#160

/-- `contains_resource`. -/
def containsResource (accountPermissions : Address → Option (List Resource)) (account cont : Address)
    (func : Bytes) : Bool :=
  match accountPermissions account with
  | some resources => resources.any (· == ⟨cont, func⟩)
  | none => false

/-- `get_groups`: the groups whose accounts contain `account`. -/
def getGroups (groupAccounts : List (Address × List Address)) (account : Address) : List Address :=
  (groupAccounts.filter fun g => g.2.contains account).map Prod.fst

/-- `has_resource`: the account's own resources, then its groups'. -/
def hasResource (p : Permissions) (account cont : Address) (func : Bytes) : Bool :=
  if !containsResource p.accountPermissions account cont func then
    (getGroups p.groupAccounts account).any fun group =>
      containsResource p.accountPermissions group cont func
  else true

/-- `check_send_tx`. -/
def checkSendTx (p : Permissions) (account : Address) : Except ExecutionError Unit :=
  if account ≠ 0 ∧ !hasResource p account permissionSendTx [0, 0, 0, 0] then
    .error .noTransactionPermission
  else .ok ()

/-- `check_create_contract`. -/
def checkCreateContract (p : Permissions) (account : Address) : Except ExecutionError Unit :=
  if account ≠ 0 ∧ !hasResource p account permissionCreateContract [0, 0, 0, 0] then
    .error .noContractPermission
  else .ok ()

/-- `check_call_contract`. -/
def checkCallContract (p : Permissions) (account cont : Address) (func : Bytes) :
    Except ExecutionError Unit :=
  if !hasResource p account cont func then .error .noCallPermission else .ok ()

/-- `check_origin_group`: the sender's resource, or the parameter's. -/
def checkOriginGroup (accountPermissions : Address → Option (List Resource)) (account cont : Address)
    (func : Bytes) (param : Address) : Except ExecutionError Unit :=
  if !containsResource accountPermissions account cont func &&
      !containsResource accountPermissions param cont func then .error .noCallPermission
  else .ok ()

/-- `check_permission`. The slices `data[0..4]` and `data[16..36]` are taken
after the length checks, so they are in bounds. -/
def checkPermission (p : Permissions) (t : SignedTransaction) : Except ExecutionError Unit := do
  let sender := t.sender
  checkSendTx p sender
  match t.action with
  | .create => checkCreateContract p sender
  | .call address =>
      if t.data.length < 4 then
        throw (.transactionMalformed "The length of transation data is less than four bytes")
      if address = groupManagement then
        if t.data.length < 36 then
          throw (.transactionMalformed "Data should have at least one parameter")
        checkOriginGroup p.accountPermissions sender address (t.data.take 4)
          (addressFromSlice ((t.data.drop 16).take 20))
      checkCallContract p sender address (t.data.take 4)
  | _ => pure ()

/-! ## The special actions -/

/-- `AMEND_ABI`, `AMEND_CODE`, `AMEND_KV_H256` and `AMEND_GET_KV_H256`. -/
def amendAbi : Nat := 1
def amendCode : Nat := 2
def amendKvH256 : Nat := 3
def amendGetKvH256 : Nat := 4

/-- `transact_set_abi`: the ABI is stored only for an account that exists. -/
def transactSetAbi (data : Bytes) : ExecM Bool := do
  let account ← panicking (Slice.range data 0 20)
  let abi := data.drop 20
  let e ← query (·.exists (addressFromSlice account))
  if e then
    update (·.initAbi (addressFromSlice account) abi)
    pure true
  else pure false

/-- `transact_set_code`. -/
def transactSetCode (data : Bytes) : ExecM Bool := do
  let account ← panicking (Slice.range data 0 20)
  update (·.resetCode (addressFromSlice account) (data.drop 20))
  pure true

/-- `transact_set_kv_h256`. -/
def transactSetKvH256 (data : Bytes) : ExecM Bool := do
  let account ← panicking (Slice.range data 0 20)
  let key ← panicking (Slice.range data 20 52)
  let val ← panicking (Slice.range data 52 84)
  update (·.setStorage (addressFromSlice account) (h256FromSlice key) (h256FromSlice val))
  pure true

/-- `transact_get_kv_h256`. -/
def transactGetKvH256 (data : Bytes) : ExecM (Option H256) := do
  let account ← panicking (Slice.range data 0 20)
  let key ← panicking (Slice.range data 20 52)
  let v ← query (·.storageAt (addressFromSlice account) (h256FromSlice key))
  pure (some v)

/-- The error of a special action that failed. -/
def accountMissing : ExecutionError := .transactionMalformed "Account doesn't exist"

/-- `if !f(&t.data) { return Err(..Account doesn't exist..) }`. -/
def requireDone (done : Bool) : ExecM Unit :=
  if done then pure () else throw accountMissing

/-- The `AmendData` branch of `transact`, by the amend type `value.low_u32()`;
what it returns is `need_output`. -/
def transactAmendData (t : SignedTransaction) : ExecM Bytes := do
  let atype := t.value.toNat % 2 ^ 32
  if atype = amendAbi then
    requireDone (← transactSetAbi t.data)
    pure []
  else if atype = amendCode then
    requireDone (← transactSetCode t.data)
    pure []
  else if atype = amendKvH256 then
    requireDone (← transactSetKvH256 t.data)
    pure []
  else if atype = amendGetKvH256 then
    match ← transactGetKvH256 t.data with
    | some v => pure (u256ToBytes v)
    | none => throw (.transactionMalformed "May be incomplete trie error")
  else throw (.transactionMalformed "amend type if error")

/-- The special actions of `transact`, before any gas is charged. -/
def transactSpecial (t : SignedTransaction) : ExecM Bytes :=
  match t.action with
  | .abiStore => do
      requireDone (← transactSetAbi t.data)
      pure []
  | .amendData => transactAmendData t
  | _ => pure []

/-! ## `transact` and `finalize` -/

/-- The environment of an `Executive`: the block's `EnvInfo`, the economical
model, and the permission tables of the state. -/
structure Executive where
  info : EnvInfo
  economicalModel : EconomicalModel
  permissions : Permissions

/-- `payment_required`. -/
def Executive.paymentRequired (E : Executive) : Bool := E.economicalModel == .charge

/-- `cmp::min` on `U256`. -/
def minU256 (x y : U256) : U256 := if x ≤ y then x else y

theorem toNat_minU256_le_right (x y : U256) : (minU256 x y).toNat ≤ y.toNat := by
  unfold minU256
  split
  · rename_i h
    exact BitVec.le_def.mp h
  · exact le_rfl

/-- `U256::checked_sub`. -/
def checkedSub (x y : U256) : Option U256 := if y ≤ x then some (x - y) else none

/-- `U256::saturating_add`. -/
def saturatingAdd (x y : U256) : U256 :=
  if x.toNat + y.toNat < 2 ^ 256 then x + y else BitVec.allOnes 256

/-- The gas a `Store` or `AbiStore` transaction pays for its data:
`t.data.len() * schedule.create_data_gas`. -/
def storeGasUsed (t : SignedTransaction) : U256 :=
  BitVec.ofNat 256 (t.data.length * Schedule.newV1.createDataGas)

/-- The `Store` and `AbiStore` branch of `transact`. -/
def transactStore (t : SignedTransaction) (baseGasRequired initGas : U256) :
    ExecM (Except Error FinalizationResult × Bytes) :=
  match checkedSub initGas (storeGasUsed t) with
  | some gasLeft => pure (.ok ⟨gasLeft, .empty, true⟩, [])
  | none => throw (.notEnoughBaseGas (saturatingAdd baseGasRequired (storeGasUsed t)) t.gas)

/-- `ReturnData::new(need_output, 0, len)`, or empty. -/
def amendReturnData (needOutput : Bytes) : ReturnData :=
  if needOutput.isEmpty then .empty else ⟨needOutput, 0, needOutput.length⟩

/-- A message call of the `Vm`, with the substate it extends. -/
def runCreate (vm : Vm) (params : ActionParams) (substate : Substate) :
    ExecM (Except Error FinalizationResult × Substate) :=
  ExceptT.lift (vm.create params substate)

def runCall (vm : Vm) (params : ActionParams) (substate : Substate) :
    ExecM (Except Error FinalizationResult × Bytes × Substate) :=
  ExceptT.lift (vm.call params substate)

/-- `Executive::finalize`: refunds, fees and suicides. -/
def finalize (E : Executive) (t : SignedTransaction) (accountNonce : U256) (substate : Substate)
    (result : Except Error FinalizationResult) (output : Bytes) : ExecM Executed := do
  let schedule := Schedule.newV1
  let sstoreRefunds ← panicking
    (uintMul (BitVec.ofNat 256 schedule.sstoreRefundGas) substate.sstoreClearsCount)
  let suicideRefunds ← panicking
    (uintMul (BitVec.ofNat 256 schedule.suicideRefundGas) (BitVec.ofNat 256 substate.suicides.length))
  let refundsBound ← panicking (uintAdd sstoreRefunds suicideRefunds)
  let gasLeftPrerefund := match result with
    | .ok r => r.gasLeft
    | .error _ => 0
  let unused ← panicking (uintSub t.gas gasLeftPrerefund)
  let refunded := minU256 refundsBound (unused >>> 1)
  let gasLeft ← panicking (uintAdd gasLeftPrerefund refunded)
  let gasUsed ← panicking (uintSub t.gas gasLeft)
  let refundValue ← panicking (uintMul gasLeft t.gasPrice)
  let feesValue ← panicking (uintMul gasUsed t.gasPrice)
  if E.economicalModel = .charge then
    update (·.addBalance t.sender refundValue)
  if E.economicalModel = .charge then
    update (·.addBalance E.info.author feesValue)
  for address in substate.suicides do
    update fun s => pure (s.killAccount address)
  for address in substate.garbage do
    let e ← query (·.exists address)
    let notNull ← query (·.existsAndNotNull address)
    if e && !notNull then
      update fun s => pure (s.killAccount address)
  match result with
  | .error (.internal msg) => throw (.executionInternal msg)
  | .error exception => do
      let cumulativeGasUsed ← panicking (uintAdd E.info.gasUsed t.gas)
      pure ⟨some exception, t.gas, t.gas, 0, cumulativeGasUsed, [], [], output, accountNonce⟩
  | .ok r => do
      let cumulativeGasUsed ← panicking (uintAdd E.info.gasUsed gasUsed)
      pure ⟨if r.applyState then none else some .reverted, t.gas, gasUsed, refunded,
        cumulativeGasUsed, substate.logs, substate.contractsCreated, output, accountNonce⟩

/-- The cumulative gas of an executed transaction counts the block's gas
before it. -/
def Executed.Cumulative (gasBefore : U256) (e : Executed) : Prop :=
  gasBefore.toNat ≤ e.cumulativeGasUsed.toNat

theorem le_of_uintAdd_eq_ok {ε : Type} {x y z : U256} (h : (uintAdd x y : Outcome ε U256) = .ok z) :
    x.toNat ≤ z.toNat := by
  have := toNat_of_uintAdd_eq_ok h
  omega

theorem finalize_cumulativeGasUsed (E : Executive) (t : SignedTransaction) (accountNonce : U256)
    (substate : Substate) (result : Except Error FinalizationResult) (output : Bytes) :
    Ensures (finalize E t accountNonce substate result output) (Executed.Cumulative E.info.gasUsed) := by
  unfold finalize
  -- the refunds and fees, the payments and the suicides come before the result
  repeat' first
    | refine ensures_bind fun _ => ?_
    | refine ensures_ite (fun _ => ?_) (fun _ => ?_)
    | dsimp only
  -- one copy of the result for each way through the two payments
  all_goals split <;> first
    | exact ensures_throw _
    | exact ensures_bind_of (ensures_panicking _) fun _ hc => ensures_pure (le_of_uintAdd_eq_ok hc)

/-- `finalize` charges at most the quota: `gas_used` is `t.gas - gas_left`,
or the whole quota after an exception. -/
theorem finalize_cumulativeGasUsed_le (E : Executive) (t : SignedTransaction) (accountNonce : U256)
    (substate : Substate) (result : Except Error FinalizationResult) (output : Bytes) :
    Ensures (finalize E t accountNonce substate result output)
      fun e => e.cumulativeGasUsed.toNat ≤ E.info.gasUsed.toNat + t.gas.toNat := by
  unfold finalize
  refine ensures_bind fun _ => ensures_bind fun _ => ensures_bind fun _ => ensures_bind fun _ =>
    ensures_bind fun _ => ensures_bind_of (ensures_panicking _) fun gasUsed hgasUsed => ?_
  have hle : gasUsed.toNat ≤ t.gas.toNat := by
    have := (toNat_of_uintSub_eq_ok hgasUsed).2
    omega
  repeat' first
    | refine ensures_bind fun _ => ?_
    | refine ensures_ite (fun _ => ?_) (fun _ => ?_)
    | dsimp only
  all_goals split <;> first
    | exact ensures_throw _
    | refine ensures_bind_of (ensures_panicking _) fun _ hc => ensures_pure ?_
      dsimp only
      have := toNat_of_uintAdd_eq_ok hc
      omega

/-- `Executive::transact` (`transact_with_tracer`; the tracers do not change
what it computes). `gas_cost` is `t.gas * 1`, so `U256::from(gas_cost)` fits. -/
def transact (E : Executive) (vm : Vm) (t : SignedTransaction) (options : TransactOptions) :
    ExecM Executed := do
  let sender := t.sender
  let nonce ← query (·.nonce sender)
  update (·.incNonce sender)
  if options.checkPermission then
    MonadExcept.ofExcept (checkPermission E.permissions t)
  let baseGasRequired : U256 := 100
  if sender ≠ 0 ∧ t.gas < baseGasRequired then
    throw (.notEnoughBaseGas baseGasRequired t.gas)
  if t.action = .amendData then
    match E.permissions.superAdminAccount with
    | some admin => if t.sender ≠ admin then throw .noTransactionPermission
    | none => throw .noTransactionPermission
  let needOutput ← transactSpecial t
  -- from here on there are no invalid transactions
  let balance ← query (·.balance sender)
  let gasCost := t.gas.toNat * t.gasPrice.toNat
  let totalCost := t.value.toNat + gasCost
  if E.paymentRequired then
    if balance.toNat < totalCost then
      throw (.notEnoughCash totalCost balance.toNat)
    update (·.subBalance sender (BitVec.ofNat 256 gasCost))
  let substate := Substate.new
  let initGas ← panicking (uintSub t.gas baseGasRequired)
  let (result, output, substate) ← match t.action with
    | .store | .abiStore => do
        let (result, output) ← transactStore t baseGasRequired initGas
        pure (result, output, substate)
    | .goCreate => pure (.ok ⟨initGas, .empty, true⟩, [], substate)
    | .amendData =>
        -- super admin operations do not cost gas
        pure (.ok ⟨t.gas, amendReturnData needOutput, true⟩, [], substate)
    | .create => do
        let newAddress := vm.contractAddress sender nonce
        let params : ActionParams :=
          ⟨newAddress, vm.cryptHash t.data, newAddress, sender, sender, initGas, t.gasPrice,
            .transfer t.value, some t.data, none, .none⟩
        let (result, substate) ← runCreate vm params substate
        pure (result, [], substate)
    | .call address => do
        let code ← query (·.code address)
        let codeHash ← query (·.ensureCached address fun acc =>
          acc.elim (vm.cryptHash []) fun acc => vm.cryptHash acc.code)
        let params : ActionParams :=
          ⟨address, codeHash, address, sender, sender, initGas, t.gasPrice,
            .transfer t.value, code, some t.data, .call⟩
        runCall vm params substate
  finalize E t nonce substate result output

/-- Every `Ok` of `transact` is an `Ok` of `finalize`: what every run of
`finalize` ensures, `transact` ensures. -/
theorem transact_ensures_of_finalize {E : Executive} {vm : Vm} {t : SignedTransaction}
    {options : TransactOptions} {P : Executed → Prop}
    (hfin : ∀ nonce substate result output, Ensures (finalize E t nonce substate result output) P) :
    Ensures (transact E vm t options) P := by
  unfold transact
  refine ensures_bind fun nonce => ensures_bind fun _ => ?_
  -- the join points of the block, innermost first: every path that returns
  -- `Ok` ends in `finish`, which is `finalize`
  extract_lets baseGasRequired gasCost totalCost substate finish newAddress special amend base
  have hfinish : ∀ x, Ensures (finish x) P := by
    rintro ⟨result, output, substate⟩
    exact hfin nonce substate result output
  clear_value finish
  have hspecial : ∀ u, Ensures (special u) P := by
    intro _
    unfold special
    refine ensures_bind fun needOutput => ensures_bind fun balance => ?_
    extract_lets action pay
    -- each action hands its result to `finish`
    have haction : ∀ u, Ensures (action u) P := by
      intro _
      unfold action
      refine ensures_bind fun initGas => ?_
      split
      · refine ensures_bind fun _ => ?_
        split
        exact ensures_bind hfinish
      · refine ensures_bind fun _ => ?_
        split
        exact ensures_bind hfinish
      · exact ensures_bind hfinish
      · exact ensures_bind hfinish
      · refine ensures_bind fun _ => ?_
        split
        exact ensures_bind hfinish
      · exact ensures_bind fun _ => ensures_bind fun _ => ensures_bind hfinish
    clear_value action
    have hpay : ∀ u, Ensures (pay u) P :=
      fun _ => ensures_bind haction
    exact ensures_ite (fun _ => ensures_ite (fun _ => ensures_bind hpay) fun _ => hpay ())
      fun _ => haction ()
  clear_value special
  have hamend : ∀ u, Ensures (amend u) P := by
    intro _
    unfold amend
    refine ensures_ite (fun _ => ?_) fun _ => hspecial ()
    split
    · exact ensures_ite (fun _ => ensures_bind hspecial) fun _ => hspecial ()
    · exact ensures_bind hspecial
  clear_value amend
  have hbase : ∀ u, Ensures (base u) P :=
    fun _ => ensures_ite (fun _ => ensures_bind hamend) fun _ => hamend ()
  exact ensures_ite (fun _ => ensures_bind hbase) fun _ => hbase ()

theorem transact_cumulativeGasUsed (E : Executive) (vm : Vm) (t : SignedTransaction)
    (options : TransactOptions) :
    Ensures (transact E vm t options) (Executed.Cumulative E.info.gasUsed) :=
  transact_ensures_of_finalize fun nonce substate result output =>
    finalize_cumulativeGasUsed E t nonce substate result output

/-! ## `State::apply` -/

/-- `From<ExecutionError> for ReceiptError`; `State::apply` writes out the
same match for an `Err` of `transact`. -/
def ReceiptError.ofExecutionError : ExecutionError → ReceiptError
  | .notEnoughBaseGas .. => .notEnoughBaseGas
  | .blockGasLimitReached .. => .blockGasLimitReached
  | .accountGasLimitReached .. => .accountGasLimitReached
  | .invalidNonce .. => .invalidNonce
  | .notEnoughCash .. => .notEnoughCash
  | .noTransactionPermission => .noTransactionPermission
  | .noContractPermission => .noContractPermission
  | .noCallPermission => .noCallPermission
  | .executionInternal _ => .executionInternal
  | .transactionMalformed _ => .transactionMalformed

/-- The receipt error of an exception of the interpreter. -/
def ReceiptError.ofEvmError : Error → ReceiptError
  | .outOfGas => .outOfGas
  | .badJumpDestination _ => .badJumpDestination
  | .badInstruction _ => .badInstruction
  | .stackUnderflow .. => .stackUnderflow
  | .outOfStack .. => .outOfStack
  | .mutableCallInStaticContext => .mutableCallInStaticContext
  | .internal _ => .internal
  | .outOfBounds => .outOfBounds
  | .reverted => .reverted

/-- `State::apply`: the receipt of `t`, for an `Ok` of `transact` or for an
`Err`, which is charged `min(balance, 100)` gas. -/
def apply (E : Executive) (vm : Vm) (t : SignedTransaction) (tracing checkPermission checkQuota : Bool) :
    StateT State (Outcome Empty) Receipt := do
  let options : TransactOptions := ⟨tracing, false, checkPermission, checkQuota⟩
  match ← (transact E vm t options).run with
  | .ok e =>
      pure (Receipt.new vm.bloomed none e.cumulativeGasUsed e.logs
        (e.exception.map ReceiptError.ofEvmError) e.accountNonce t.hash)
  | .error err => do
      let receiptError := ReceiptError.ofExecutionError err
      let sender := t.sender
      let txGasUsed ← match err with
        | .executionInternal _ => pure t.gas
        | _ => do
            let b ← fun s => pure (s.balance sender)
            pure (minU256 b 100)
      if E.economicalModel = .charge then
        let txFeeValue ← StateT.lift (uintMul txGasUsed t.gasPrice)
        -- an `Err` of `sub_balance` is only logged; its assertion panics
        fun s => do
          let s ← s.subBalance sender txFeeValue
          pure ((), s)
        fun s => do
          let s ← s.addBalance E.info.author txFeeValue
          pure ((), s)
      let cumulativeGasUsed ← StateT.lift (uintAdd E.info.gasUsed txGasUsed)
      pure (Receipt.new vm.bloomed none cumulativeGasUsed [] (some receiptError) 0 t.hash)

/-- A receipt of `State::apply` is the transaction's, and its cumulative gas
counts the block's gas before it. -/
def Receipt.Cumulative (t : SignedTransaction) (gasBefore : U256) (r : Receipt) : Prop :=
  r.transactionHash = t.hash ∧ gasBefore.toNat ≤ r.gasUsed.toNat

/-- The receipt of `State::apply` is the transaction's. Its cumulative gas is
that of an `Ok` of `transact`, or the block's gas plus the charge of an
`Err`: the whole quota for `ExecutionInternal`, at most 100 for the others. -/
theorem apply_receipt_of {E : Executive} {vm : Vm} {t : SignedTransaction}
    {tracing checkPermission checkQuota : Bool} {P : U256 → Prop}
    (hok : Ensures (transact E vm t ⟨tracing, false, checkPermission, checkQuota⟩)
      fun e => P e.cumulativeGasUsed)
    (herr : ∀ g c, (g = t.gas ∨ g.toNat ≤ 100) →
      (uintAdd E.info.gasUsed g : Outcome Empty U256) = .ok c → P c)
    (s : State) :
    wp (apply E vm t tracing checkPermission checkQuota)
      (fun r _ => r.transactionHash = t.hash ∧ P r.gasUsed) s := by
  unfold apply
  rw [wp_bind]
  refine wp_mono (hok s) fun res s' hres => ?_
  cases res with
  | ok e => exact (wp_pure _ _ _).mpr ⟨rfl, hres e rfl⟩
  | error err =>
      dsimp -zeta only
      extract_lets receiptError sender charged
      have hcharged : ∀ g s, (g = t.gas ∨ g.toNat ≤ 100) →
          wp (charged g) (fun r _ => r.transactionHash = t.hash ∧ P r.gasUsed) s := by
        intro g s hg
        unfold charged
        extract_lets receipt
        have hreceipt : ∀ u s, wp (receipt u) (fun r _ => r.transactionHash = t.hash ∧ P r.gasUsed) s := by
          intro _ _
          unfold receipt
          simp only [wp_bind, wp_lift, wp_pure]
          exact fun c hc => ⟨rfl, herr g c hg hc⟩
        clear_value receipt
        rw [wp_ite]
        refine ⟨fun _ => ?_, fun _ => hreceipt _ _⟩
        simp only [wp_bind]
        exact wp_of_forall fun _ _ => wp_of_forall fun _ _ => wp_of_forall fun _ _ => hreceipt _ _
      clear_value charged
      split
      · simp only [wp_bind, wp_pure]
        exact hcharged _ _ (.inl rfl)
      · simp only [wp_bind, wp_pure]
        exact wp_of_forall fun b _ => hcharged _ _ (.inr (toNat_minU256_le_right b 100))

/-- Whatever `transact` does, the receipt is the transaction's and its
cumulative gas counts the block's gas before it. -/
theorem apply_receipt (E : Executive) (vm : Vm) (t : SignedTransaction)
    (tracing checkPermission checkQuota : Bool) (s : State) :
    wp (apply E vm t tracing checkPermission checkQuota)
      (fun r _ => Receipt.Cumulative t E.info.gasUsed r) s :=
  apply_receipt_of (transact_cumulativeGasUsed E vm t _) (fun _ _ _ hc => le_of_uintAdd_eq_ok hc) s

/-- `State::apply` charges at most the larger of the quota and 100: the
`Ok` path at most the quota, an `Err` at most 100 or the quota. -/
theorem apply_gasUsed_le (E : Executive) (vm : Vm) (t : SignedTransaction)
    (tracing checkPermission checkQuota : Bool) (s : State) :
    wp (apply E vm t tracing checkPermission checkQuota)
      (fun r _ => r.gasUsed.toNat ≤ E.info.gasUsed.toNat + max t.gas.toNat 100) s := by
  have hok : Ensures (transact E vm t ⟨tracing, false, checkPermission, checkQuota⟩)
      fun e => e.cumulativeGasUsed.toNat ≤ E.info.gasUsed.toNat + max t.gas.toNat 100 := by
    refine ensures_mono (transact_ensures_of_finalize fun nonce substate result output =>
      finalize_cumulativeGasUsed_le E t nonce substate result output) fun e he => ?_
    omega
  have herr : ∀ g c, (g = t.gas ∨ g.toNat ≤ 100) → (uintAdd E.info.gasUsed g : Outcome Empty U256) = .ok c →
      c.toNat ≤ E.info.gasUsed.toNat + max t.gas.toNat 100 := by
    intro g c hg hc
    have := toNat_of_uintAdd_eq_ok hc
    rcases hg with rfl | hg <;> omega
  exact wp_mono (apply_receipt_of hok herr s) fun _ _ h => h.2

/-- A `Vm` whose message calls fail without touching anything. -/
def Vm.inert : Vm where
  cryptHash _ := 0
  bloomed _ := 0
  contractAddress _ _ := 0
  create _ substate s := .ok ((.error .outOfGas, substate), s)
  call _ substate s := .ok ((.error .outOfGas, [], substate), s)

/-- An executive charging gas, in a block by author 2, with no permissions. -/
def Executive.charging : Executive :=
  ⟨⟨2, 0⟩, .charge, ⟨fun _ => none, [], none⟩⟩

/-- A trie in which account 1 holds 1000. -/
def Backend.funded : Backend :=
  ⟨fun a => if a = 1 then some ⟨0, 1000, hashNullRlp, [], []⟩ else none, fun _ _ => 0⟩

/-- A `Store` transaction of account 1 with quota 100 and one byte of data,
which costs 200 more. -/
def SignedTransaction.storeOneByte : SignedTransaction := ⟨1, 100, 0, [0], .store, 7⟩

theorem apply_store_short_quota_loses_balance :
    ((fun p => ((p.2.balance 1).1, (p.2.balance 2).1, p.1.error)) <$>
      (apply Executive.charging Vm.inert SignedTransaction.storeOneByte false false false).run
        (State.fromExisting Backend.funded 0)) = .ok (800, 100, some .notEnoughBaseGas) := by
  decide

theorem transact_store_error_charges_sender :
    (fun p => (p.1.map fun _ => (), (p.2.balance 1).1, (p.2.nonce 1).1)) <$>
      (transact Executive.charging Vm.inert SignedTransaction.storeOneByte ⟨false, false, false, false⟩).run.run
        (State.fromExisting Backend.funded 0) = .ok (.error (.notEnoughBaseGas 300 100), 900, 1) := by
  decide

end Executor

end Cita
