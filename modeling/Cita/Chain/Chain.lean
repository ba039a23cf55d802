import Cita.Chain.Types
import Cita.Lib.FunMap
import Cita.Lib.Outcome
import Mathlib.Data.List.Sort

/-!
# `Chain`: the committed blocks and the blocks waiting for their results

The chain commits a block when the executor's `ExecutedResult` for it
arrives (`set_executed_result`): it takes the queued block of that height
from `block_map`, checks the block against the current head, and writes
the header built from the executed info (`set_db_result`). The height
comes from the result, the proof and the body from the queued block.

The database columns and their caches are one map each. What no modelled
function reads is left out: the transaction addresses, `CurrentHash` and
`CurrentProof` (read at start-up), and the cache manager. `BloomGroupChain`
is taken, as the chain's callers assume, to answer for each block the bloom
stored for it (`blocksBlooms`, zero where none was inserted).
-/

namespace Cita

namespace Libchain

/-- `PollManager`: the installed filters by id. A filter's lifetime
(`POLL_LIFETIME`) is not modelled: every filter is polled within it. -/
structure PollManager where
  polls : Nat → Option PollFilter
  nextAvailableId : Nat

/-- `PollManager::default()`. -/
def PollManager.default : PollManager := ⟨fun _ => none, 0⟩

/-- `Chain`: the fields the modelled functions read and write. -/
structure Chain where
  currentHeader : Header
  currentHeight : Nat
  maxStoreHeight : Nat
  blockMap : Nat → Option BlockInQueue
  proofMap : Nat → Option Proof
  blockHeaders : Nat → Option Header
  blockBodies : Nat → Option BlockBody
  blockHashes : H256 → Option Nat
  blocksBlooms : Nat → LogBloom
  blockReceipts : H256 → Option (List Receipt)
  nodes : List Address
  blockInterval : Nat
  blockGasLimit : Nat
  accountGasLimit : AccountGasLimit
  checkQuota : Bool
  pollsFilter : PollManager
  prooftype : Nat

/-- The header `set_db_result` builds from an executed block and the proof
of the queued one. -/
def ExecutedInfo.toHeader (info : ExecutedInfo) (proof : Proof) : Header :=
  { Header.new with
    gasLimit := info.header.gasLimit
    gasUsed := info.header.gasUsed
    number := info.header.height
    parentHash := info.header.prevhash
    receiptsRoot := info.header.receiptsRoot
    stateRoot := info.header.stateRoot
    timestamp := info.header.timestamp
    transactionsRoot := info.header.transactionsRoot
    logBloom := info.header.logBloom
    proof := proof
    proposer := info.header.proposer }

@[simp] theorem ExecutedInfo.number_toHeader (info : ExecutedInfo) (proof : Proof) :
    (info.toHeader proof).number = info.header.height := rfl

@[simp] theorem ExecutedInfo.parentHash_toHeader (info : ExecutedInfo) (proof : Proof) :
    (info.toHeader proof).parentHash = info.header.prevhash := rfl

namespace Chain

/-- `init_chain` over an empty database. -/
def initChain (prooftype : Nat) : Chain :=
  ⟨Header.new, 0, 0, fun _ => none, fun _ => none, fun _ => none, fun _ => none, fun _ => none,
    fun _ => 0, fun _ => none, [], 3000, u64Max, ⟨0, []⟩, false, PollManager.default, prooftype⟩

/-! ## Reads -/

section Reads

variable (hash : Header → H256) (c : Chain)

def getCurrentHash : H256 := hash c.currentHeader

/-- `get_chain_prooftype`. -/
def getChainProoftype : Option ProofType :=
  match c.prooftype with
  | 0 => some .authorityRound
  | 1 => some .raft
  | 2 => some .bft
  | _ => none

/-- `validate_hash`: the block's parent is the current head. -/
def validateHash (blockHash : H256) : Bool := c.getCurrentHash hash == blockHash

/-- `validate_height`: the block is the next one. -/
def validateHeight (blockNumber : Nat) : Bool := c.currentHeight + 1 == blockNumber

/-- `block_header_by_height`: the current header, else the stored one. -/
def blockHeaderByHeight (idx : Nat) : Option Header :=
  if c.currentHeader.number = idx then some c.currentHeader else c.blockHeaders idx

def blockHashByHeight (height : Nat) : Option H256 := (c.blockHeaderByHeight height).map hash

def blockHeightByHash (h : H256) : Option Nat := c.blockHashes h

def blockBodyByHash (h : H256) : Option BlockBody := (c.blockHeightByHash h).bind c.blockBodies

/-- `block_number`: a `BlockId` resolved now; `Latest` is the current height. -/
def blockNumber : BlockId → Option Nat
  | .number n => some n
  | .hash h => c.blockHeightByHash h
  | .earliest => some 0
  | .latest => some c.currentHeight

end Reads

/-! ## Writes -/

section Writes

variable (hash : Header → H256) (c : Chain)

def setMaxStoreHeight (height : Nat) : Chain := { c with maxStoreHeight := height }

def setProofWithHeight (height : Nat) (proof : Proof) : Chain :=
  { c with proofMap := Function.update c.proofMap height (some proof) }

/-- `clean_proof_with_height`: the proofs below `height` go. -/
def cleanProofWithHeight (height : Nat) : Chain :=
  { c with proofMap := FunMap.splitOff c.proofMap height }

def setBlockBody (height : Nat) (block : Block) : Chain :=
  { c with blockBodies := Function.update c.blockBodies height (some block.body) }

/-- `clear_block_map`: the sync blocks go, the consensus blocks stay. -/
def clearBlockMap : Chain :=
  { c with blockMap := fun k => (c.blockMap k).filter fun
      | .syncBlock _ _ => false
      | .consensusBlock _ _ => true }

/-- `set_config`: the system configuration the executor reports. -/
def setConfig (ret : ExecutedResult) : Chain :=
  { c with
    checkQuota := ret.config.checkQuota
    blockGasLimit := ret.config.blockGasLimit
    accountGasLimit := ret.config.accountGasLimit
    nodes := ret.config.nodes
    blockInterval := ret.config.blockInterval }

/-- `set_db_result`: the header built from the executed info becomes the
head. The body is written only past `max_store_height` (or for the
genesis), since enqueueing a block writes it; receipts only when there are
some, a bloom only when it is not zero. -/
def setDbResult (ret : ExecutedResult) (block : Block) : Chain :=
  let info := ret.executedInfo
  let number := info.header.height
  let hdr := info.toHeader block.proof
  let h := hash hdr
  let mheight := c.maxStoreHeight
  { c with
    blockReceipts :=
      if info.receipts.isEmpty then c.blockReceipts
      else Function.update c.blockReceipts h (some info.receipts)
    blockHeaders := Function.update c.blockHeaders number (some hdr)
    blockBodies :=
      if mheight < number || (number == 0 && mheight == 0) then
        Function.update c.blockBodies number (some block.body)
      else c.blockBodies
    blockHashes := Function.update c.blockHashes h (some number)
    blocksBlooms :=
      if info.header.logBloom = 0 then c.blocksBlooms
      else Function.update c.blocksBlooms number info.header.logBloom
    currentHeader := hdr
    currentHeight := number
    proofMap := FunMap.splitOff c.proofMap number }

/-- The new-block branch of `set_executed_result`: the queued block of the
result's height is committed when it extends the head. A sync block that
does not clears the sync blocks. -/
def setQueuedResult (ret : ExecutedResult) : Chain :=
  let number := ret.height
  match c.blockMap number with
  | some (.consensusBlock block _) =>
      if c.validateHeight block.number && c.validateHash hash block.parentHash then
        c.setDbResult hash ret block
      else c
  | some (.syncBlock block _) =>
      if number = c.currentHeight + 1 then
        if c.validateHash hash block.parentHash then c.setDbResult hash ret block
        else c.clearBlockMap
      else c
  | none => c

/-- The end of `set_executed_result`: the queued blocks below the current
height go. -/
def discardBelowCurrent : Chain := { c with blockMap := FunMap.splitOff c.blockMap c.currentHeight }

/-- `set_executed_result`. A result for height zero is the genesis and is
committed whatever the head; a result for the current height is a duplicate. -/
def setExecutedResult (ret : ExecutedResult) : Chain :=
  let c := c.setConfig ret
  if ret.height = 0 then c.setDbResult hash ret Block.default
  else if ret.height = c.currentHeight then c
  else (c.setQueuedResult hash ret).discardBelowCurrent

/-! ### What each write does to the head and the queue -/

@[simp] theorem currentHeight_setConfig (ret : ExecutedResult) :
    (c.setConfig ret).currentHeight = c.currentHeight := rfl

@[simp] theorem currentHeader_setConfig (ret : ExecutedResult) :
    (c.setConfig ret).currentHeader = c.currentHeader := rfl

@[simp] theorem blockMap_setConfig (ret : ExecutedResult) :
    (c.setConfig ret).blockMap = c.blockMap := rfl

@[simp] theorem currentHeight_setDbResult (ret : ExecutedResult) (block : Block) :
    (c.setDbResult hash ret block).currentHeight = ret.height := rfl

@[simp] theorem currentHeader_setDbResult (ret : ExecutedResult) (block : Block) :
    (c.setDbResult hash ret block).currentHeader = ret.executedInfo.toHeader block.proof := rfl

@[simp] theorem blockMap_setDbResult (ret : ExecutedResult) (block : Block) :
    (c.setDbResult hash ret block).blockMap = c.blockMap := rfl

@[simp] theorem blockHeaders_setConfig (ret : ExecutedResult) :
    (c.setConfig ret).blockHeaders = c.blockHeaders := rfl

@[simp] theorem blockHeaders_setDbResult (ret : ExecutedResult) (block : Block) :
    (c.setDbResult hash ret block).blockHeaders =
      Function.update c.blockHeaders ret.height (some (ret.executedInfo.toHeader block.proof)) := rfl

@[simp] theorem currentHeight_clearBlockMap : c.clearBlockMap.currentHeight = c.currentHeight := rfl

@[simp] theorem currentHeader_clearBlockMap : c.clearBlockMap.currentHeader = c.currentHeader := rfl

theorem blockMap_clearBlockMap_eq_some {k : Nat} {q : BlockInQueue}
    (h : c.clearBlockMap.blockMap k = some q) : c.blockMap k = some q :=
  Option.eq_some_of_filter_eq_some h

@[simp] theorem currentHeight_discardBelowCurrent :
    c.discardBelowCurrent.currentHeight = c.currentHeight := rfl

@[simp] theorem currentHeader_discardBelowCurrent :
    c.discardBelowCurrent.currentHeader = c.currentHeader := rfl

@[simp] theorem blockHeaders_discardBelowCurrent :
    c.discardBelowCurrent.blockHeaders = c.blockHeaders := rfl

@[simp] theorem blockMap_discardBelowCurrent :
    c.discardBelowCurrent.blockMap = FunMap.splitOff c.blockMap c.currentHeight := rfl

@[simp] theorem currentHeight_setMaxStoreHeight (height : Nat) :
    (c.setMaxStoreHeight height).currentHeight = c.currentHeight := rfl

@[simp] theorem blockMap_setMaxStoreHeight (height : Nat) :
    (c.setMaxStoreHeight height).blockMap = c.blockMap := rfl

@[simp] theorem currentHeight_setProofWithHeight (height : Nat) (proof : Proof) :
    (c.setProofWithHeight height proof).currentHeight = c.currentHeight := rfl

@[simp] theorem blockMap_setProofWithHeight (height : Nat) (proof : Proof) :
    (c.setProofWithHeight height proof).blockMap = c.blockMap := rfl

@[simp] theorem currentHeight_setBlockBody (height : Nat) (block : Block) :
    (c.setBlockBody height block).currentHeight = c.currentHeight := rfl

@[simp] theorem blockMap_setBlockBody (height : Nat) (block : Block) :
    (c.setBlockBody height block).blockMap = c.blockMap := rfl

/-- What the new-block branch can do: nothing, drop the sync blocks, or
commit the block queued at the result's height, which extends the head. -/
theorem setQueuedResult_cases (ret : ExecutedResult) :
    c.setQueuedResult hash ret = c ∨ c.setQueuedResult hash ret = c.clearBlockMap ∨
      ∃ q, c.blockMap ret.height = some q ∧ c.validateHash hash q.block.parentHash = true ∧
        (q.block.number = c.currentHeight + 1 ∨ ret.height = c.currentHeight + 1) ∧
        c.setQueuedResult hash ret = c.setDbResult hash ret q.block := by
  unfold setQueuedResult
  dsimp only
  split
  · rename_i block proof hq
    split
    · rename_i hv
      simp only [Bool.and_eq_true, validateHeight, beq_iff_eq] at hv
      exact .inr (.inr ⟨_, hq, hv.2, .inl hv.1.symm, rfl⟩)
    · exact .inl rfl
  · rename_i block proof hq
    split
    · rename_i hn
      split
      · rename_i hv
        exact .inr (.inr ⟨_, hq, hv, .inr hn, rfl⟩)
      · exact .inr (.inl rfl)
    · exact .inl rfl
  · exact .inl rfl

end Writes

/-! ## The head after an executed result -/

/-- Every queued block waits at its own height. -/
def QueuedAtOwnHeight (c : Chain) : Prop :=
  ∀ k q, c.blockMap k = some q → q.block.number = k

section Result

variable (hash : Header → H256) {c : Chain} {ret : ExecutedResult}

/-- A result for height zero is committed, whatever the head was. -/
theorem setExecutedResult_of_genesis (h0 : ret.height = 0) :
    c.setExecutedResult hash ret = (c.setConfig ret).setDbResult hash ret Block.default := by
  unfold setExecutedResult
  rw [if_pos h0]

theorem setExecutedResult_of_duplicate (h0 : ret.height ≠ 0) (hd : ret.height = c.currentHeight) :
    c.setExecutedResult hash ret = c.setConfig ret := by
  unfold setExecutedResult
  rw [if_neg h0, currentHeight_setConfig, if_pos hd]

theorem setExecutedResult_of_new (h0 : ret.height ≠ 0) (hd : ret.height ≠ c.currentHeight) :
    c.setExecutedResult hash ret = ((c.setConfig ret).setQueuedResult hash ret).discardBelowCurrent := by
  unfold setExecutedResult
  rw [if_neg h0, currentHeight_setConfig, if_neg hd]

theorem currentHeight_setExecutedResult_genesis (h0 : ret.height = 0) :
    (c.setExecutedResult hash ret).currentHeight = 0 := by
  rw [setExecutedResult_of_genesis hash h0, currentHeight_setDbResult, h0]

/-- A result for the next height commits the consensus block queued there
when the block's parent is the head. -/
theorem setExecutedResult_of_consensusBlock {block : Block} {proof : Proof}
    (hn : ret.height = c.currentHeight + 1) (hq : c.blockMap ret.height = some (.consensusBlock block proof))
    (hb : block.number = ret.height) (hv : hash c.currentHeader = block.parentHash) :
    c.setExecutedResult hash ret = ((c.setConfig ret).setDbResult hash ret block).discardBelowCurrent := by
  rw [setExecutedResult_of_new hash (by omega) (by omega)]
  have hcheck : ((c.setConfig ret).validateHeight block.number &&
      (c.setConfig ret).validateHash hash block.parentHash) = true := by
    simp [validateHeight, validateHash, getCurrentHash, hb, hn, hv]
  have hcommit : (c.setConfig ret).setQueuedResult hash ret = (c.setConfig ret).setDbResult hash ret block := by
    unfold setQueuedResult
    dsimp only
    rw [blockMap_setConfig, hq]
    exact if_pos hcheck
  rw [hcommit]

/-- Any other result commits the next block or nothing. -/
theorem currentHeight_setExecutedResult (hq : c.QueuedAtOwnHeight) (h0 : ret.height ≠ 0) :
    (c.setExecutedResult hash ret).currentHeight = c.currentHeight ∨
      (c.setExecutedResult hash ret).currentHeight = c.currentHeight + 1 := by
  by_cases hd : ret.height = c.currentHeight
  · left
    rw [setExecutedResult_of_duplicate hash h0 hd, currentHeight_setConfig]
  rw [setExecutedResult_of_new hash h0 hd, currentHeight_discardBelowCurrent]
  rcases (c.setConfig ret).setQueuedResult_cases hash ret with h | h | ⟨q, hq', -, hn, h⟩
  · exact .inl (by rw [h]; rfl)
  · exact .inl (by rw [h]; rfl)
  · right
    have hown : q.block.number = ret.height := hq _ _ hq'
    rw [h, currentHeight_setDbResult]
    simp only [currentHeight_setConfig] at hn
    omega

/-- After a result that is neither the genesis nor a duplicate, no block
waits below the head. -/
theorem blockMap_setExecutedResult (h0 : ret.height ≠ 0) (hd : ret.height ≠ c.currentHeight)
    {k : Nat} (hk : k < (c.setExecutedResult hash ret).currentHeight) :
    (c.setExecutedResult hash ret).blockMap k = none := by
  rw [setExecutedResult_of_new hash h0 hd] at hk ⊢
  rw [currentHeight_discardBelowCurrent] at hk
  rw [blockMap_discardBelowCurrent, FunMap.splitOff_of_lt hk]

theorem queuedAtOwnHeight_setExecutedResult (hq : c.QueuedAtOwnHeight) :
    (c.setExecutedResult hash ret).QueuedAtOwnHeight := by
  intro k q hk
  by_cases h0 : ret.height = 0
  · rw [setExecutedResult_of_genesis hash h0, blockMap_setDbResult] at hk
    exact hq k q hk
  by_cases hd : ret.height = c.currentHeight
  · rw [setExecutedResult_of_duplicate hash h0 hd, blockMap_setConfig] at hk
    exact hq k q hk
  rw [setExecutedResult_of_new hash h0 hd, blockMap_discardBelowCurrent] at hk
  have hk' := (FunMap.splitOff_eq_some.mp hk).2
  rcases (c.setConfig ret).setQueuedResult_cases hash ret with h | h | ⟨_, -, -, -, h⟩
  · rw [h] at hk'
    exact hq k q hk'
  · rw [h] at hk'
    exact hq k q (blockMap_clearBlockMap_eq_some _ hk')
  · rw [h] at hk'
    exact hq k q hk'

/-- A result that moves the head commits the block queued at its height,
whose parent is the old head; the header written, though, takes its parent
hash from the result. -/
theorem setExecutedResult_commit (h0 : ret.height ≠ 0)
    (hc : (c.setExecutedResult hash ret).currentHeight ≠ c.currentHeight) :
    ∃ q, c.blockMap ret.height = some q ∧ hash c.currentHeader = q.block.parentHash ∧
      (c.setExecutedResult hash ret).currentHeader = ret.executedInfo.toHeader q.block.proof := by
  by_cases hd : ret.height = c.currentHeight
  · rw [setExecutedResult_of_duplicate hash h0 hd, currentHeight_setConfig] at hc
    exact absurd rfl hc
  rw [setExecutedResult_of_new hash h0 hd] at hc ⊢
  rw [currentHeight_discardBelowCurrent] at hc
  rw [currentHeader_discardBelowCurrent]
  rcases (c.setConfig ret).setQueuedResult_cases hash ret with h | h | ⟨q, hq, hv, -, h⟩
  · rw [h] at hc
    exact absurd rfl hc
  · rw [h] at hc
    exact absurd rfl hc
  · refine ⟨q, hq, ?_, by rw [h, currentHeader_setDbResult]⟩
    simpa [validateHash, getCurrentHash] using hv

end Result

/-! ## Logs -/

section Logs

variable (hash : Header → H256) (c : Chain)

/-- `blocks_with_bloom`: `with_bloom` over `from_block..to_block`, taken as
the blocks from `from_block` to `to_block` inclusive whose stored bloom
contains `bloom`. -/
def blocksWithBloom (bloom : LogBloom) (fromBlock toBlock : Nat) : List Nat :=
  (List.range' fromBlock (toBlock + 1 - fromBlock)).filter fun n =>
    (c.blocksBlooms n).containsBloom bloom

def blocksWithBloomById (bloom : LogBloom) (fromBlock toBlock : BlockId) : Option (List Nat) :=
  match c.blockNumber fromBlock, c.blockNumber toBlock with
  | some f, some t => some (c.blocksWithBloom bloom f t)
  | _, _ => none

/-- The logs of one block's receipts, taken last first: `index` receipts
and the logs numbered from `logIndex` down have been taken. -/
def localizeReceipts (number : Nat) (blockHash : H256) (receiptsLen : Nat) :
    Nat → Nat → List (List LogEntry × H256) → List LocalizedLogEntry
  | _, _, [] => []
  | index, logIndex, (logs, txHash) :: rest =>
      (logs.reverse.zipIdx.map fun (log, i) =>
          ⟨log, blockHash, number, txHash, receiptsLen - index - 1, logs.length - i - 1,
            logIndex - i - 1⟩) ++
        localizeReceipts number blockHash receiptsLen (index + 1) (logIndex - logs.length) rest

/-- The logs of a block, last first, as the closure in `logs` builds them. -/
def blockLogs (number : Nat) (blockHash : H256) (receipts : List Receipt) (hashes : List H256) :
    List LocalizedLogEntry :=
  localizeReceipts number blockHash receipts.length 0
    (receipts.foldl (fun sum r => sum + r.logs.length) 0)
    ((receipts.reverse.map Receipt.logs).zip hashes.reverse)

/-- The `filter` and `take(limit)` of `logs` over blocks taken last first.
The iterator is lazy: a block is read only while logs are still wanted, and
its receipts must match its transactions. -/
def takeLogs (isMatch : LogEntry → Bool) :
    Nat → List (Nat × H256 × List Receipt × List H256) → Outcome Empty (List LocalizedLogEntry)
  | 0, _ => .ok []
  | _, [] => .ok []
  | n + 1, (number, blockHash, receipts, hashes) :: rest =>
      if receipts.length ≠ hashes.length then .panic "assertion failed: false"
      else
        let found := (blockLogs number blockHash receipts hashes).filter fun l => isMatch l.entry
        if n + 1 ≤ found.length then .ok (found.take (n + 1))
        else (found ++ ·) <$> takeLogs isMatch (n + 1 - found.length) rest

/-- `logs`: the matching logs of the given blocks, the last `limit` of them,
first block first. -/
def logs (blocks : List Nat) (isMatch : LogEntry → Bool) (limit : Option Nat) :
    Outcome Empty (List LocalizedLogEntry) :=
  let found := (blocks.insertionSort fun a b => b ≤ a).filterMap fun number => do
    let blockHash ← c.blockHashByHeight hash number
    let receipts ← c.blockReceipts blockHash
    let body ← c.blockBodyByHash blockHash
    pure (number, blockHash, receipts, body.transactionHashes)
  List.reverse <$> takeLogs isMatch (limit.getD u64Max) found

/-- `get_logs`: the blocks whose bloom may hold a matching log, each once. -/
def getLogs (bloomed : Bytes → LogBloom) (filter : Filter) : Outcome Empty (List LocalizedLogEntry) :=
  let blocks := ((filter.bloomPossibilities bloomed).filterMap fun bloom =>
    c.blocksWithBloomById bloom filter.fromBlock filter.toBlock).flatten.eraseDups
  c.logs hash blocks filter.«matches» filter.limit

end Logs

end Chain

end Libchain

end Cita
