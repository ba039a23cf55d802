import Cita.Chain.Chain

/-!
# The chain service: the messages that move the head

`Forward` enqueues the blocks consensus finalizes and the blocks other
nodes send when this one syncs; the block processor commits a queued block
when the executor's result for its height arrives. Each message is handled
to its end before the next (`handle`), and a run is any sequence of
messages, in any order, repeated or stale (`Reachable`).

A queued block sits at its own height and none waits below the head
(`ChainInv`, kept by every message: `handle_inv`), so a result for a height
other than zero commits the next block or nothing, and over messages with
no such result the head climbs one block at a time (`run_currentHeight`).
A result for height zero, though, is the genesis, and is committed whatever
the head (`setExecutedResult_of_genesis`). The header a result commits
takes its parent hash from the result, while the check before it looks at
the queued block's (`setExecutedResult_commit`).
-/

namespace Cita

namespace Libchain

/-- The height of the BFT proof a block carries: block 1's proof is at
`usize::MAX`, read as 0. -/
def Block.bftProofHeight (b : Block) : Nat :=
  if b.proof.height = u64Max then 0 else b.proof.height

namespace Chain

variable (hash : Header → H256) (c : Chain)

/-- `consensus_block_enqueue`: the next block waits in `block_map` with its
proof, and its body is stored. -/
def consensusBlockEnqueue (block : Block) (proof : Proof) : Chain :=
  let blkHeight := block.number
  if blkHeight = c.currentHeight + 1 then
    let queued := Function.update c.blockMap blkHeight (some (.consensusBlock block proof))
    let c := { c with blockMap := queued }
    ((c.setProofWithHeight blkHeight proof).setBlockBody blkHeight block).setMaxStoreHeight blkHeight
  else c

/-- The sync block queued at `height`, if it has no proof yet, gets `proof`. -/
def fillSyncProof (height : Nat) (proof : Proof) : Chain :=
  let filled := match c.blockMap height with
    | some (.syncBlock block none) => some (.syncBlock block (some proof))
    | q => q
  { c with blockMap := Function.update c.blockMap height filled }

/-- A sync block whose proof is for the head, or for the last stored block,
completes that block's proof and is queued with its body stored. -/
def queueSyncBlock (block : Block) : Chain :=
  let proofHeight := block.bftProofHeight
  if proofHeight = c.currentHeight ∨ proofHeight = c.maxStoreHeight then
    let c := ((c.fillSyncProof proofHeight block.proof).setBlockBody block.number block).setMaxStoreHeight
      block.number
    let savedProof := c.proofMap block.number
    { c with blockMap := Function.update c.blockMap block.number (some (.syncBlock block savedProof)) }
  else c

/-- A proof-only block past the head completes the proof of the block it is
for, and is stored as that height's proof. -/
def addSyncProof (block : Block) : Chain :=
  let proofHeight := block.bftProofHeight
  if c.currentHeight < proofHeight then
    (c.fillSyncProof proofHeight block.proof).setProofWithHeight proofHeight block.proof
  else c

/-- `add_sync_block`: only BFT proofs are handled, and a block whose proof
type is not the chain's is dropped. -/
def addSyncBlock (block : Block) : Outcome Empty Chain :=
  if c.getChainProoftype ≠ block.header.proofType then .ok c
  else match block.header.proofType with
    | some .bft => if block.number ≠ u64Max then .ok (c.queueSyncBlock block) else .ok (c.addSyncProof block)
    | _ => .panic "not implemented"

/-- `deal_sync_blocks`: blocks below the head are skipped, and a block whose
transactions root is wrong (`check_hash`, a parameter) ends the batch. -/
def dealSyncBlocks (checkHash : Block → Bool) : Chain → List Block → Outcome Empty Chain
  | c, [] => .ok c
  | c, block :: rest =>
      if block.number < c.currentHeight then dealSyncBlocks checkHash c rest
      else if block.number ≠ u64Max ∧ checkHash block = false then .ok c
      else do
        let c ← c.addSyncBlock block
        dealSyncBlocks checkHash c rest

end Chain

/-- The messages that change the chain: the executor's result, a block from
consensus, a batch of blocks from the network, and the block processor's
wait for a result timing out. -/
inductive Message where
  | executedResult (ret : ExecutedResult)
  | blockWithProof (block : Block) (proof : Proof)
  | syncResponse (blocks : List Block)
  | timeout

namespace Chain

variable (hash : Header → H256) (checkHash : Block → Bool) (c : Chain)

/-- One message, handled as `dispatch_msg` and the block processor's loop
do. On a timeout the block processor calls `reset_max_store_height`. -/
def handle : Message → Outcome Empty Chain
  | .executedResult ret => .ok (c.setExecutedResult hash ret)
  | .blockWithProof block proof => .ok (c.consensusBlockEnqueue block proof)
  | .syncResponse blocks => dealSyncBlocks checkHash c blocks
  | .timeout => .ok (c.setMaxStoreHeight c.currentHeight)

/-- The chain after a sequence of messages. -/
def run : Chain → List Message → Outcome Empty Chain
  | c, [] => .ok c
  | c, m :: ms => c.handle hash checkHash m >>= fun c' => run c' ms

end Chain

/-- A result for height zero: the genesis. -/
def Message.isGenesisResult : Message → Bool
  | .executedResult ret => ret.height == 0
  | _ => false

/-! ## The queue between messages -/

/-- No block waits below the head. -/
def Chain.NoneBelowHead (c : Chain) : Prop :=
  ∀ k, k < c.currentHeight → c.blockMap k = none

/-- What holds of the chain between any two messages. -/
structure ChainInv (c : Chain) : Prop where
  queued : c.QueuedAtOwnHeight
  below : c.NoneBelowHead

/-- The invariant reads only the queue and the height. -/
theorem ChainInv.congr {c c' : Chain} (hi : ChainInv c) (hm : c'.blockMap = c.blockMap)
    (hh : c'.currentHeight = c.currentHeight) : ChainInv c' :=
  ⟨fun k q hk => hi.queued k q (hm ▸ hk), fun k hk => hm ▸ hi.below k (hh ▸ hk)⟩

namespace Chain

variable {hash : Header → H256} {checkHash : Block → Bool} {c c' : Chain}

/-- Queueing a block at its own height keeps every block at its own height. -/
theorem queuedAtOwnHeight_update (hq : c.QueuedAtOwnHeight) {k : Nat} {v : Option BlockInQueue}
    (hv : ∀ q, v = some q → q.block.number = k) :
    ∀ k' q, Function.update c.blockMap k v k' = some q → q.block.number = k' := by
  intro k' q hk
  by_cases hkk : k' = k
  · subst hkk
    rw [Function.update_self] at hk
    exact hv q hk
  · rw [Function.update_of_ne hkk] at hk
    exact hq k' q hk

/-- Queueing at the head or above keeps the queue clear below it. -/
theorem noneBelowHead_update (hb : c.NoneBelowHead) {k : Nat} {v : Option BlockInQueue}
    (hk : c.currentHeight ≤ k) :
    ∀ k', k' < c.currentHeight → Function.update c.blockMap k v k' = none := by
  intro k' hk'
  rw [Function.update_of_ne (by omega)]
  exact hb k' hk'

theorem currentHeight_consensusBlockEnqueue (block : Block) (proof : Proof) :
    (c.consensusBlockEnqueue block proof).currentHeight = c.currentHeight := by
  unfold consensusBlockEnqueue
  dsimp only
  split <;> rfl

theorem currentHeader_consensusBlockEnqueue (block : Block) (proof : Proof) :
    (c.consensusBlockEnqueue block proof).currentHeader = c.currentHeader := by
  unfold consensusBlockEnqueue
  dsimp only
  split <;> rfl

theorem blockHeaders_consensusBlockEnqueue (block : Block) (proof : Proof) :
    (c.consensusBlockEnqueue block proof).blockHeaders = c.blockHeaders := by
  unfold consensusBlockEnqueue
  dsimp only
  split <;> rfl

/-- The next block waits at its height with its proof. -/
theorem blockMap_consensusBlockEnqueue_self {block : Block} (proof : Proof)
    (hn : block.number = c.currentHeight + 1) :
    (c.consensusBlockEnqueue block proof).blockMap block.number = some (.consensusBlock block proof) := by
  unfold consensusBlockEnqueue
  dsimp only
  rw [if_pos hn]
  exact Function.update_self _ _ _

theorem chainInv_consensusBlockEnqueue (hi : ChainInv c) (block : Block) (proof : Proof) :
    ChainInv (c.consensusBlockEnqueue block proof) := by
  unfold consensusBlockEnqueue
  dsimp only
  split
  · rename_i hn
    exact ⟨queuedAtOwnHeight_update hi.queued fun q hq => by cases hq; rfl,
      noneBelowHead_update hi.below (by rw [hn]; omega)⟩
  · exact hi

@[simp] theorem currentHeight_fillSyncProof (height : Nat) (proof : Proof) :
    (c.fillSyncProof height proof).currentHeight = c.currentHeight := rfl

@[simp] theorem blockMap_fillSyncProof (height : Nat) (proof : Proof) :
    (c.fillSyncProof height proof).blockMap = Function.update c.blockMap height
      (match c.blockMap height with
        | some (.syncBlock block none) => some (.syncBlock block (some proof))
        | q => q) := rfl

/-- Filling in a proof changes no block and no height of the queue. -/
theorem chainInv_fillSyncProof (hi : ChainInv c) (height : Nat) (proof : Proof) :
    ChainInv (c.fillSyncProof height proof) := by
  constructor
  · refine queuedAtOwnHeight_update hi.queued fun q hq => ?_
    split at hq
    · rename_i heq
      cases hq
      have hown := hi.queued _ _ heq
      exact hown
    · exact hi.queued _ _ hq
  · intro k hk
    have hnone := hi.below k hk
    by_cases hkh : k = height
    · subst hkh
      simp [hnone]
    · rw [blockMap_fillSyncProof, Function.update_of_ne hkh, hnone]

/-- What `add_sync_block` can do: nothing, queue the block, or file its proof. -/
theorem addSyncBlock_eq_ok {block : Block} (h : c.addSyncBlock block = .ok c') :
    c' = c ∨ c' = c.queueSyncBlock block ∨ c' = c.addSyncProof block := by
  unfold addSyncBlock at h
  split at h
  · cases h
    exact .inl rfl
  · split at h
    · split at h
      · cases h
        exact .inr (.inl rfl)
      · cases h
        exact .inr (.inr rfl)
    · cases h

theorem currentHeight_queueSyncBlock (block : Block) :
    (c.queueSyncBlock block).currentHeight = c.currentHeight := by
  unfold queueSyncBlock
  dsimp only
  split <;> rfl

theorem currentHeight_addSyncProof (block : Block) :
    (c.addSyncProof block).currentHeight = c.currentHeight := by
  unfold addSyncProof
  dsimp only
  split <;> rfl

theorem currentHeight_of_addSyncBlock {block : Block} (h : c.addSyncBlock block = .ok c') :
    c'.currentHeight = c.currentHeight := by
  rcases addSyncBlock_eq_ok h with rfl | rfl | rfl
  · rfl
  · exact currentHeight_queueSyncBlock block
  · exact currentHeight_addSyncProof block

/-- A sync block at the head or above is queued at its own height. -/
theorem chainInv_queueSyncBlock (hi : ChainInv c) {block : Block} (hn : c.currentHeight ≤ block.number) :
    ChainInv (c.queueSyncBlock block) := by
  unfold queueSyncBlock
  dsimp only
  split
  · have hf := chainInv_fillSyncProof hi block.bftProofHeight block.proof
    exact ⟨queuedAtOwnHeight_update hf.queued fun q hq => by cases hq; rfl,
      noneBelowHead_update hf.below hn⟩
  · exact hi

theorem chainInv_addSyncProof (hi : ChainInv c) (block : Block) : ChainInv (c.addSyncProof block) := by
  unfold addSyncProof
  dsimp only
  split
  · exact (chainInv_fillSyncProof hi _ _).congr rfl rfl
  · exact hi

theorem chainInv_of_addSyncBlock {block : Block} (hi : ChainInv c)
    (hn : c.currentHeight ≤ block.number) (h : c.addSyncBlock block = .ok c') : ChainInv c' := by
  rcases addSyncBlock_eq_ok h with rfl | rfl | rfl
  · exact hi
  · exact chainInv_queueSyncBlock hi hn
  · exact chainInv_addSyncProof hi block

theorem dealSyncBlocks_inv {blocks : List Block} (hi : ChainInv c)
    (h : dealSyncBlocks checkHash c blocks = .ok c') :
    ChainInv c' ∧ c'.currentHeight = c.currentHeight := by
  induction blocks generalizing c with
  | nil =>
      cases h
      exact ⟨hi, rfl⟩
  | cons block rest ih =>
      unfold dealSyncBlocks at h
      split at h
      · exact ih hi h
      · split at h
        · cases h
          exact ⟨hi, rfl⟩
        · obtain ⟨c₁, hadd, hrest⟩ := Outcome.bind_eq_ok.mp h
          have hn : c.currentHeight ≤ block.number := by omega
          obtain ⟨hi', hh⟩ := ih (chainInv_of_addSyncBlock hi hn hadd) hrest
          exact ⟨hi', hh.trans (currentHeight_of_addSyncBlock hadd)⟩

theorem chainInv_setExecutedResult (hi : ChainInv c) (ret : ExecutedResult) :
    ChainInv (c.setExecutedResult hash ret) := by
  refine ⟨queuedAtOwnHeight_setExecutedResult hash hi.queued, fun k hk => ?_⟩
  by_cases h0 : ret.height = 0
  · rw [currentHeight_setExecutedResult_genesis hash h0] at hk
    omega
  by_cases hd : ret.height = c.currentHeight
  · rw [setExecutedResult_of_duplicate hash h0 hd] at hk ⊢
    exact hi.below k hk
  · exact blockMap_setExecutedResult hash h0 hd hk

/-- Every message keeps the invariant; any but a genesis result commits
the next block or nothing. -/
theorem handle_inv {m : Message} (hi : ChainInv c) (h : c.handle hash checkHash m = .ok c') :
    ChainInv c' ∧ (m.isGenesisResult = false →
      c'.currentHeight = c.currentHeight ∨ c'.currentHeight = c.currentHeight + 1) := by
  cases m with
  | executedResult ret =>
      cases h
      refine ⟨chainInv_setExecutedResult hi ret, fun h0 => ?_⟩
      simp only [Message.isGenesisResult, beq_eq_false_iff_ne] at h0
      exact currentHeight_setExecutedResult hash hi.queued h0
  | blockWithProof block proof =>
      cases h
      exact ⟨chainInv_consensusBlockEnqueue hi block proof,
        fun _ => .inl (currentHeight_consensusBlockEnqueue block proof)⟩
  | syncResponse blocks =>
      obtain ⟨hi', hh⟩ := dealSyncBlocks_inv hi h
      exact ⟨hi', fun _ => .inl hh⟩
  | timeout =>
      cases h
      exact ⟨hi.congr rfl rfl, fun _ => .inl rfl⟩

end Chain

/-- The chains a fresh node reaches by handling messages. -/
inductive Reachable (hash : Header → H256) (checkHash : Block → Bool) : Chain → Prop where
  | init (prooftype : Nat) : Reachable hash checkHash (Chain.initChain prooftype)
  | step {c c' : Chain} (m : Message) :
      Reachable hash checkHash c → c.handle hash checkHash m = .ok c' → Reachable hash checkHash c'

namespace Chain

theorem run_append {hash : Header → H256} {checkHash : Block → Bool} (c : Chain) (ms ms' : List Message) :
    c.run hash checkHash (ms ++ ms') = c.run hash checkHash ms >>= fun c' => c'.run hash checkHash ms' := by
  induction ms generalizing c with
  | nil => rfl
  | cons m ms ih =>
      simp only [List.cons_append, run]
      cases c.handle hash checkHash m with
      | ok c₁ => exact ih c₁
      | err e => exact e.elim
      | panic msg => rfl

/-- Over messages with no genesis result among them, the head only climbs,
at most one block a message. -/
theorem run_currentHeight {hash : Header → H256} {checkHash : Block → Bool} {c c' : Chain}
    {ms : List Message} (hi : ChainInv c)
    (hg : ∀ m ∈ ms, m.isGenesisResult = false) (h : c.run hash checkHash ms = .ok c') :
    c.currentHeight ≤ c'.currentHeight ∧ c'.currentHeight ≤ c.currentHeight + ms.length := by
  induction ms generalizing c with
  | nil =>
      cases h
      exact ⟨le_refl _, Nat.le_add_right _ _⟩
  | cons m ms ih =>
      obtain ⟨c₁, hm, hrest⟩ := Outcome.bind_eq_ok.mp h
      obtain ⟨hi₁, hstep⟩ := handle_inv hi hm
      have h₁ := hstep (hg m List.mem_cons_self)
      obtain ⟨hlo, hhi⟩ := ih hi₁ (fun m' hm' => hg m' (List.mem_cons_of_mem m hm')) hrest
      simp only [List.length_cons]
      omega

end Chain

theorem chainInv_initChain (prooftype : Nat) : ChainInv (Chain.initChain prooftype) :=
  ⟨fun _ _ h => (by cases h), fun k h => absurd h (Nat.not_lt_zero k)⟩

theorem Reachable.inv {hash : Header → H256} {checkHash : Block → Bool} {c : Chain}
    (h : Reachable hash checkHash c) : ChainInv c := by
  induction h with
  | init prooftype => exact chainInv_initChain prooftype
  | step m _ hs ih => exact (Chain.handle_inv ih hs).1

/-! ## A stale genesis result -/

/-- An executed result for `height` on `prevhash`, with no receipts. -/
def ExecutedResult.empty (height : Nat) (prevhash : H256) : ExecutedResult :=
  ⟨⟨[], 3000, false, u64Max, ⟨0, []⟩⟩, ⟨⟨prevhash, 0, height, 0, 0, 0, 0, 0, 0, 0⟩, []⟩⟩

/-- The genesis header the chain commits. -/
def genesisHeader : Header := (ExecutedResult.empty 0 0).executedInfo.toHeader Proof.new

/-- Block 1 on the genesis, as consensus finalizes it. -/
def blockOne (hash : Header → H256) : Block :=
  ⟨{ Header.new with parentHash := hash genesisHeader, number := 1, proof := ⟨.bft, 0⟩ }, ⟨[]⟩⟩

/-- The genesis result, block 1 from consensus, and a result for height 1
on `prevhash`. -/
def toBlockOne (hash : Header → H256) (prevhash : H256) : List Message :=
  [.executedResult (.empty 0 0), .blockWithProof (blockOne hash) ⟨.bft, 1⟩,
    .executedResult (.empty 1 prevhash)]

/-- These messages commit block 1, with the parent hash the result gives,
over the genesis header. -/
theorem run_toBlockOne (hash : Header → H256) (checkHash : Block → Bool) (prevhash : H256) :
    ∃ c, (Chain.initChain 2).run hash checkHash (toBlockOne hash prevhash) = .ok c ∧
      c.currentHeight = 1 ∧ c.currentHeader.parentHash = prevhash ∧
      c.blockHeaders 0 = some genesisHeader := by
  let c₁ := (Chain.initChain 2).setExecutedResult hash (.empty 0 0)
  let c₂ := c₁.consensusBlockEnqueue (blockOne hash) ⟨.bft, 1⟩
  have hc₁ : c₁ = ((Chain.initChain 2).setConfig (.empty 0 0)).setDbResult hash (.empty 0 0)
      Block.default := Chain.setExecutedResult_of_genesis hash rfl
  have hh₁ : c₁.currentHeight = 0 := by rw [hc₁]; rfl
  have hhd₁ : c₁.currentHeader = genesisHeader := by rw [hc₁]; rfl
  have hq₂ : c₂.blockMap 1 = some (.consensusBlock (blockOne hash) ⟨.bft, 1⟩) :=
    Chain.blockMap_consensusBlockEnqueue_self _ (by rw [hh₁]; rfl)
  have hh₂ : c₂.currentHeight = 0 := (Chain.currentHeight_consensusBlockEnqueue _ _).trans hh₁
  have hhd₂ : c₂.currentHeader = genesisHeader :=
    (Chain.currentHeader_consensusBlockEnqueue _ _).trans hhd₁
  -- the result for block 1 commits the queued block, whose parent is the genesis
  have hc₃ := @Chain.setExecutedResult_of_consensusBlock hash c₂ (.empty 1 prevhash) (blockOne hash)
    ⟨.bft, 1⟩ (by rw [hh₂]; rfl) hq₂ rfl (by rw [hhd₂]; rfl)
  refine ⟨c₂.setExecutedResult hash (.empty 1 prevhash), rfl, ?_, ?_, ?_⟩
  · rw [hc₃]
    rfl
  · rw [hc₃]
    rfl
  · rw [hc₃, Chain.blockHeaders_discardBelowCurrent, Chain.blockHeaders_setDbResult,
      Function.update_of_ne (by show (0 : Nat) ≠ 1; decide), Chain.blockHeaders_setConfig,
      Chain.blockHeaders_consensusBlockEnqueue, hc₁, Chain.blockHeaders_setDbResult]
    rfl

theorem genesis_result_lowers_committed_head (hash : Header → H256) (checkHash : Block → Bool) :
    ((·.currentHeight) <$> (Chain.initChain 2).run hash checkHash
        (toBlockOne hash (hash genesisHeader))) = .ok 1 ∧
    ((·.currentHeight) <$> (Chain.initChain 2).run hash checkHash
        (toBlockOne hash (hash genesisHeader) ++ [.executedResult (.empty 0 0)])) = .ok 0 ∧
    ((fun c => (c.currentHeight, (c.blockHeaders 0).map hash, c.currentHeader.parentHash)) <$>
        (Chain.initChain 2).run hash checkHash (toBlockOne hash (hash genesisHeader + 1))) =
      .ok (1, some (hash genesisHeader), hash genesisHeader + 1) ∧
    hash genesisHeader + 1 ≠ hash genesisHeader := by
  obtain ⟨c, hrun, hh, -, -⟩ := run_toBlockOne hash checkHash (hash genesisHeader)
  refine ⟨?_, ?_, ?_, ?_⟩
  · rw [hrun]
    exact congrArg Outcome.ok hh
  · -- the stale genesis result takes the head from block 1 back to 0
    rw [Chain.run_append, hrun]
    show Outcome.ok (c.setExecutedResult hash (.empty 0 0)).currentHeight = _
    rw [Chain.currentHeight_setExecutedResult_genesis hash rfl]
  · obtain ⟨c', hrun', hh', hp, h0⟩ := run_toBlockOne hash checkHash (hash genesisHeader + 1)
    rw [hrun']
    show Outcome.ok (c'.currentHeight, (c'.blockHeaders 0).map hash, c'.currentHeader.parentHash) = _
    rw [hh', hp, h0]
    rfl
  · intro h
    have := congrArg BitVec.toNat h
    simp [BitVec.toNat_add] at this
    omega

end Libchain

end Cita
