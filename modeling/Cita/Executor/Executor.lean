import Cita.Executor.Block
import Mathlib.Data.List.Find

/-!
# The configuration a block is executed under (`libexecutor/executor.rs`)

The `Executor` keeps the history of the system configuration
(`sys_configs`, newest first): each entry records the height it changed at
and the delay after which it is active. `execute_block` and
`execute_proposal` open the block under `get_sys_config(max_height)`,
which takes the permission tables, the permission and quota checks and the
account gas limits from it.

`get_sys_config` measures every entry by the newest entry's delay and is
asked about `max_height`, the highest height the executor has been sent,
not about the block's number. When every entry has the newest's delay, it
selects what is active at the height it is asked about
(`getSysConfig_eq_activeConfig`); but two executors with the same history
that have been sent different numbers of blocks execute the same block
under different configurations, and their receipts differ
(`executeBlock_depends_on_maxHeight`).
-/

namespace Cita
namespace Executor

/-- `GlobalSysConfig`, without the consensus nodes and the block interval,
which executing a block does not read. -/
structure GlobalSysConfig where
  blockGasLimit : Nat
  commonGasLimit : U256
  specificGasLimit : Address → Option U256
  delayActiveInterval : Nat
  changedHeight : Nat
  checkQuota : Bool
  checkPermission : Bool
  accountPermissions : Address → Option (List Resource)
  groupAccounts : List (Address × List Address)
  superAdminAccount : Option Address

/-- `GlobalSysConfig::new()`. -/
def GlobalSysConfig.new : GlobalSysConfig :=
  ⟨18446744073709551615, 0, fun _ => none, 1, 0, false, false, fun _ => none, [], none⟩

/-- `Executor::get_sys_config`: the first entry, newest first, whose
`changed_height` plus the newest entry's delay is at most `now_height`, or
else the newest entry. -/
def getSysConfig (confs : List GlobalSysConfig) (nowHeight : Nat) : GlobalSysConfig :=
  match confs with
  | [] => GlobalSysConfig.new
  | newest :: _ =>
      (confs.find? fun conf => conf.changedHeight + newest.delayActiveInterval ≤ nowHeight).getD newest

/-- The configuration the history prescribes for block `n`: the newest entry
that is active at `n`, each by its own delay. -/
def activeConfig (confs : List GlobalSysConfig) (n : Nat) : Option GlobalSysConfig :=
  confs.find? fun conf => conf.changedHeight + conf.delayActiveInterval ≤ n

/-- A block to execute: its number, proposer and transactions. -/
structure Block where
  number : Nat
  proposer : Address
  transactions : List SignedTransaction

/-- `OpenBlock::new`: the permission tables and the account gas limits of
the configuration, over the state at the parent's root. -/
def OpenBlock.new (conf : GlobalSysConfig) (block : Block) (state : State) : OpenBlock :=
  ⟨state, block.transactions, block.proposer,
    ⟨conf.accountPermissions, conf.groupAccounts, conf.superAdminAccount⟩, [], 0,
    conf.commonGasLimit, conf.specificGasLimit, 0⟩

/-- What `execute_block` and `execute_proposal` read of the `Executor`:
the configuration history, newest first, and the highest height it has
been sent. -/
structure ExecutorConfig where
  sysConfigs : List GlobalSysConfig
  maxHeight : Nat

/-- `Executor::execute_block` up to closing the block: the configuration is
`get_sys_config(self.get_max_height())`. -/
def ExecutorConfig.executeBlock (e : ExecutorConfig) (exec : BlockExecutor) (block : Block) (state : State) :
    Outcome Empty (Bool × OpenBlock) :=
  let conf := getSysConfig e.sysConfigs e.maxHeight
  (OpenBlock.new conf block state).applyTransactions exec conf.checkPermission conf.checkQuota

/-- The newest entry takes the same delay as each entry's own, so that
`get_sys_config` at `n` selects what is active at `n` when something is. -/
theorem getSysConfig_eq_activeConfig {confs : List GlobalSysConfig} {newest : GlobalSysConfig} {n : Nat}
    (hnewest : confs.head? = some newest)
    (hdelay : ∀ conf ∈ confs, conf.delayActiveInterval = newest.delayActiveInterval) :
    getSysConfig confs n = (activeConfig confs n).getD newest := by
  cases confs with
  | nil => cases hnewest
  | cons c rest =>
      cases hnewest
      simp only [getSysConfig, activeConfig]
      congr 1
      apply List.find?_congr
      intro conf hconf
      rw [hdelay conf hconf]

/-- The history of two configurations: from height 10, with a delay of 5,
the permission check is on; before, it was off. -/
def sysConfigsPermissionFrom10 : List GlobalSysConfig :=
  [{ GlobalSysConfig.new with changedHeight := 10, delayActiveInterval := 5, checkPermission := true },
   { GlobalSysConfig.new with delayActiveInterval := 5 }]

/-- Block 12, with one `Store` transaction of account 1. -/
def Block.twelve : Block := ⟨12, 2, [SignedTransaction.ofAction [] .store]⟩

theorem executeBlock_depends_on_maxHeight :
    (activeConfig sysConfigsPermissionFrom10 12).map (·.checkPermission) = some false ∧
    ((fun r => r.2.receipts.map Receipt.error) <$>
      (ExecutorConfig.mk sysConfigsPermissionFrom10 12).executeBlock BlockExecutor.unreachableService Block.twelve
        (State.fromExisting Backend.funded 0)) = .ok [none] ∧
    ((fun r => r.2.receipts.map Receipt.error) <$>
      (ExecutorConfig.mk sysConfigsPermissionFrom10 20).executeBlock BlockExecutor.unreachableService Block.twelve
        (State.fromExisting Backend.funded 0)) = .ok [some .noTransactionPermission] := by
  refine ⟨by decide, by decide +kernel, by decide +kernel⟩

end Executor
end Cita
