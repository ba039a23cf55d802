import Cita.Chain.Forward

/-!
# The two threads of `cita-executor`

`cita-executor` runs `ExecutorInstance` on two threads over one
`Arc<Executor>`. The message thread handles what consensus and the network
send (`consensus_block_enqueue`, `proposal_enqueue`, `deal_sync_blocks`):
it queues blocks and proposals in `block_map` and sends their heights down
a channel. The execution thread takes each height from the channel and runs
`execute_block`. A proposal is executed ahead of its block
(`execute_proposal`); when the block comes, the proposal's closed block is
finalized with the block's proof (`finalize_proposal`) instead of executing
the block again. The threads share `block_map`, `stage`, `max_height`, the
current header and the `is_interrupted` flag; the closed block is the
execution thread's own, since the message thread runs on a clone of
`ExecutorInstance` and so on a copy of its `RefCell`.

Each handler runs to its end before the other thread moves, except the
execution of a proposal: `receive` takes a height and starts the proposal
queued there, and `proposalExecuted` ends it, so that the message thread
can act while it runs (`Event`).

Every run finalizes one block after another on top of the current header
(`step_extends`, `run_extends`): no height is finalized twice, and every
finalized header names the one before it as its parent. The invariant
behind this (`Inv`) is that a queued proposal, the proposal being executed
and the closed block waiting in `WaitFinalized` are all for the next height,
on top of the current header.

What a proposal's closed block is finalized with is another matter. The
end of the proposal branch checks that the consensus block in the queue is
equivalent to it. The `WaitFinalized` branch does not: it relies on `consensus_block_enqueue` having raised
`is_interrupted` for a block that is not equivalent, and that handler
compares the block with the proposal now in the queue, which a newer
proposal may have replaced after the closed block was made.

The hash of a header, what executing a block computes, the
transactions-root check of a sync block and the check of a BFT proof
against the authorities are parameters.
-/

namespace Cita

namespace ExecutorInstance

open Libchain (Header Block Proof ProofType u64Max)

/-- `Block::is_equivalent`, on the headers: the same transactions root,
timestamp and proposer. -/
def isEquivalent (a b : Header) : Bool :=
  a.transactionsRoot == b.transactionsRoot && a.timestamp == b.timestamp && a.proposer == b.proposer

/-- What executing a block computes into its header: the roots and the bloom
that `OpenBlock::close` sets, and the gas `apply_transactions` counts. -/
structure Executed where
  stateRoot : H256
  receiptsRoot : H256
  logBloom : LogBloom
  gasUsed : U256
deriving DecidableEq, Repr

/-- `ClosedBlock`, by its header. -/
structure ClosedBlock where
  header : Header
deriving DecidableEq, Repr

/-- `OpenBlock::new` over the state of `parent`, `apply_transactions` and
`close`: the block's header with what `execute` computed. -/
def close (execute : Header → Block → Executed) (parent : Header) (b : Block) : ClosedBlock :=
  let r := execute parent b
  ⟨{ b.header with
      stateRoot := r.stateRoot, receiptsRoot := r.receiptsRoot, logBloom := r.logBloom,
      gasUsed := r.gasUsed }⟩

section Close

variable {execute : Header → Block → Executed} {parent : Header} {b : Block}

@[simp] theorem close_number : (close execute parent b).header.number = b.number := rfl

@[simp] theorem close_parentHash : (close execute parent b).header.parentHash = b.parentHash := rfl

/-- Execution leaves what `is_equivalent` compares. -/
@[simp] theorem isEquivalent_close_right {a : Header} :
    isEquivalent a (close execute parent b).header = isEquivalent a b.header := rfl

end Close

/-- The executor's `BlockInQueue`: a proposal waits in the queue too. -/
inductive BlockInQueue where
  | proposal (block : Block)
  | consensusBlock (block : Block) (proof : Proof)
  | syncBlock (block : Block) (proof : Option Proof)
deriving DecidableEq, Repr

/-- The queued block itself. -/
def BlockInQueue.block : BlockInQueue → Block
  | .proposal b => b
  | .consensusBlock b _ => b
  | .syncBlock b _ => b

/-- `Stage`. -/
inductive Stage where
  | executingBlock
  | executingProposal
  | waitFinalized
  | idle
deriving DecidableEq, Repr

/-- A call that commits a block: `finalize_block` of a block that
`Executor::execute_block` executed from scratch, or `finalize_proposal` of a
proposal's closed block with the block consensus committed. -/
inductive Finalization where
  | executeBlock (block : Block) (closed : ClosedBlock)
  | finalizeProposal (closed : ClosedBlock) (comming : Block)
deriving DecidableEq, Repr

/-- The header a finalization makes current: `finalize_proposal` gives the
closed block the coming block's proof. -/
def Finalization.header : Finalization → Header
  | .executeBlock _ closed => closed.header
  | .finalizeProposal closed comming => { closed.header with proof := comming.proof }

/-- What the two threads share: the fields of `Executor` that they read and
write, the channel of heights (`write_sender`), and the execution thread's
closed block and the proposal it is executing, with its height. -/
structure Instance where
  currentHeader : Header
  maxHeight : Nat
  blockMap : Nat → Option BlockInQueue
  stage : Stage
  isInterrupted : Bool
  isSync : Bool
  prooftype : Option ProofType
  closedBlock : Option ClosedBlock
  writeQueue : List Nat
  executing : Option (Nat × Block)

/-- `Executor::init_executor` on a stored header and `ExecutorInstance::new`. -/
def Instance.new (header : Header) (prooftype : Option ProofType) : Instance :=
  ⟨header, header.number, fun _ => none, .idle, false, false, prooftype, none, [], none⟩

namespace Instance

section Executor

variable (hash : Header → H256) (execute : Header → Block → Executed) (s : Instance)

/-- `get_current_height`. -/
def currentHeight : Nat := s.currentHeader.number

/-- `validate_height`: the block is the next one. -/
def validateHeight (blockNumber : Nat) : Bool := s.currentHeight + 1 == blockNumber

/-- `validate_hash`: the block's parent is the current header. -/
def validateHash (blockHash : H256) : Bool := hash s.currentHeader == blockHash

/-- `is_dup_block`. -/
def isDupBlock (inum : Nat) : Bool := decide (inum ≤ s.currentHeight)

/-- `finalize_block`: the closed block's header becomes the current one. -/
def finalizeBlock (closed : ClosedBlock) : Instance := { s with currentHeader := closed.header }

/-- `finalize_proposal`. -/
def finalizeProposal (closed : ClosedBlock) (comming : Block) : Instance × Finalization :=
  (s.finalizeBlock { closed with header := { closed.header with proof := comming.proof } },
    .finalizeProposal closed comming)

/-- `Executor::execute_block`: `apply_transactions` looks at the flag before
the block's first transaction and gives up if it is raised. -/
def extExecuteBlock (block : Block) : Instance × List Finalization :=
  if s.isInterrupted && !block.body.transactionHashes.isEmpty then (s, [])
  else
    let closed := close execute s.currentHeader block
    (s.finalizeBlock closed, [.executeBlock block closed])

/-- `execute_proposal`, once it returns: `none` when `apply_transactions`
found the flag raised at one of its checks, which `checked` says happened
after the flag went up. -/
def executeProposal (proposal : Block) (checked : Bool) : Option ClosedBlock :=
  if s.isInterrupted && checked && !proposal.body.transactionHashes.isEmpty then none
  else some (close execute s.currentHeader proposal)

end Executor

/-! ## The message thread -/

section Messages

variable (hash : Header → H256) (s : Instance)

/-- `send_block`. -/
def sendBlock (blkHeight : Nat) (block : Block) (proof : Proof) : Instance :=
  { s with blockMap := Function.update s.blockMap blkHeight (some (.consensusBlock block proof)),
           maxHeight := blkHeight, writeQueue := s.writeQueue ++ [blkHeight] }

/-- `send_proposal`. -/
def sendProposal (blkHeight : Nat) (block : Block) : Instance :=
  { s with blockMap := Function.update s.blockMap blkHeight (some (.proposal block)),
           writeQueue := s.writeQueue ++ [blkHeight] }

/-- `consensus_block_enqueue`. -/
def consensusBlockEnqueue (block : Block) (proof : Proof) : Instance :=
  let blkHeight := block.number
  if s.isDupBlock block.number then s
  else if s.validateHeight block.number && s.validateHash hash block.parentHash then
    match s.stage, s.blockMap blkHeight with
    -- against a running or waiting proposal, a block that is not equivalent
    -- raises the flag; both stages do the same
    | .executingProposal, some (.proposal value) | .waitFinalized, some (.proposal value) =>
        let s :=
          if isEquivalent value.header block.header then s else { s with isInterrupted := true }
        s.sendBlock blkHeight block proof
    | .idle, _ => s.sendBlock blkHeight block proof
    | _, _ => s
  else s

/-- `proposal_enqueue`. -/
def proposalEnqueue (block : Block) : Instance :=
  let blkHeight := block.number
  if s.validateHeight blkHeight && s.validateHash hash block.parentHash then
    match s.stage, s.blockMap blkHeight with
    | .executingProposal, some (.proposal value) =>
        if isEquivalent value.header block.header then s
        else { s with isInterrupted := true }.sendProposal blkHeight block
    | .waitFinalized, some (.proposal value) =>
        if isEquivalent value.header block.header then s else s.sendProposal blkHeight block
    | .idle, some (.consensusBlock _ _) | .idle, some (.syncBlock _ _) => s
    | .idle, _ => s.sendProposal blkHeight block
    | _, _ => s
  else s

/-- The sync block queued at `height`, if it has no proof yet, gets `proof`. -/
def fillSyncProof (height : Nat) (proof : Proof) : Instance :=
  match s.blockMap height with
  | some (.syncBlock block none) =>
      { s with
        blockMap := Function.update s.blockMap height (some (.syncBlock block (some proof))) }
  | _ => s

/-- `add_sync_block`: only BFT proofs are handled, and a block whose proof
type is not the executor's is dropped. -/
def addSyncBlock (block : Block) : Outcome Empty Instance :=
  if s.prooftype ≠ block.header.proofType then .ok s
  else match block.header.proofType with
    | some .bft =>
        let proofHeight := block.bftProofHeight
        if block.number ≠ u64Max then
          -- the block's proof is the proof of the last block queued
          if proofHeight = s.maxHeight then
            let s := { s.fillSyncProof proofHeight block.proof with maxHeight := block.number }
            .ok { s with
              blockMap := Function.update s.blockMap block.number (some (.syncBlock block none)) }
          else .ok s
        else if s.currentHeight < proofHeight then .ok (s.fillSyncProof proofHeight block.proof)
        else .ok s
    | _ => .panic "not implemented"

/-- The loop of `deal_sync_blocks`, and whether it ran to its end or to its
`break` (`true`) rather than `return`, as a block at or below the head makes
it. -/
def addSyncBlocks (checkHash : Block → Bool) :
    Instance → List Block → Outcome Empty (Instance × Bool)
  | s, [] => .ok (s, true)
  | s, block :: rest =>
      if block.number < s.maxHeight then addSyncBlocks checkHash s rest
      else if block.number ≠ u64Max ∧ checkHash block = false then .ok (s, true)
      else if s.isDupBlock block.number then .ok (s, false)
      else do
        let s ← s.addSyncBlock block
        addSyncBlocks checkHash s rest

/-- `deal_sync_blocks`: after the batch, the next height is sent to the
execution thread. Clearing the closed block there clears the message
thread's own copy, which nothing reads. -/
def dealSyncBlocks (checkHash : Block → Bool) (blocks : List Block) : Outcome Empty Instance := do
  let (s, ended) ← addSyncBlocks checkHash s blocks
  if ended && !s.isSync then pure { s with writeQueue := s.writeQueue ++ [s.currentHeight + 1] }
  else pure s

end Messages

/-! ## The execution thread -/

section Execution

variable (hash : Header → H256) (execute : Header → Block → Executed)
  (checkProof : Block → Proof → Bool) (s : Instance)

/-- `set_sync_block`: the next block on top of the current header, with a
proof that the authorities signed, is executed. -/
def setSyncBlock (block : Block) (proof : Proof) : Option (Instance × List Finalization) :=
  if s.validateHeight block.number && s.validateHash hash block.parentHash &&
      checkProof block proof then
    some (s.extExecuteBlock execute block)
  else none

/-- The loop of `sync_blocks` over the copy `queue` of `block_map` from
height `number`, and whether an invalid block ended it. Heights are `u64`,
so `fuel` from `number` to `u64::MAX` bounds it. -/
def syncFrom (queue : Nat → Option BlockInQueue) :
    Nat → Nat → Instance → Instance × List Finalization × Bool
  | 0, _, s => (s, [], false)
  | fuel + 1, number, s =>
      match queue number with
      | some (.syncBlock block (some proof)) =>
          match s.setSyncBlock hash execute checkProof block proof with
          | some (s, fs) =>
              let (s, fs', invalid) := syncFrom queue fuel (number + 1) s
              (s, fs ++ fs', invalid)
          | none => (s, [], true)
      | _ => (s, [], false)

/-- `sync_blocks`: an invalid block empties the queue. -/
def syncBlocks (number : Nat) : Instance × List Finalization :=
  let (s', fs, invalid) := syncFrom hash execute checkProof s.blockMap (u64Max + 1 - number) number
    { s with isSync := true }
  let s' :=
    if invalid then { s' with blockMap := fun _ => none, maxHeight := s'.currentHeight } else s'
  ({ s' with isSync := false }, fs)

/-- `block_map.split_off(current_height)`: the blocks below the head go. -/
def cleanMap : Instance := { s with blockMap := FunMap.splitOff s.blockMap s.currentHeight }

/-- The consensus-block branch of `execute_block`, for the next block. -/
def executeConsensusBlock (block : Block) : Instance × List Finalization :=
  if s.isInterrupted then
    { s with isInterrupted := false, stage := .executingBlock }.extExecuteBlock execute block
  else match s.stage, s.closedBlock with
    -- the proposal executed is taken to be this block's: nothing compares them
    | .waitFinalized, some closed =>
        let (s, f) :=
          { s with closedBlock := none, stage := .executingBlock }.finalizeProposal closed block
        (s, [f])
    | .waitFinalized, none | .idle, _ =>
        { s with stage := .executingBlock }.extExecuteBlock execute block
    | _, _ => (s, [])

/-- `ExecutorInstance::execute_block` on a height from the channel, up to
`execute_proposal` for a proposal, which it starts. -/
def executeBlock (number : Nat) : Instance × List Finalization :=
  match s.blockMap number with
  | some (.consensusBlock block _) =>
      if s.validateHeight block.number && s.validateHash hash block.parentHash then
        let (s, fs) := s.executeConsensusBlock execute block
        ({ s with stage := .idle }.cleanMap, fs)
      else (s, [])
  | some (.syncBlock _ (some _)) =>
      if number = s.currentHeight + 1 then
        let (s, fs) := { s with stage := .executingBlock }.syncBlocks hash execute checkProof number
        ({ s with stage := .idle }.cleanMap, fs)
      else (s, [])
  | some (.proposal proposal) =>
      ({ s with isInterrupted := false, stage := .executingProposal,
                executing := some (number, proposal) }, [])
  | _ => (s, [])

/-- The rest of the proposal branch of `execute_block`, once
`execute_proposal` returns: the closed block is finalized with an
equivalent consensus block that came meanwhile, or waits for one. -/
def proposalExecuted (checked : Bool) : Instance × List Finalization :=
  match s.executing with
  | none => (s, [])
  | some (number, proposal) =>
      let s := { s with executing := none }
      match s.executeProposal execute proposal checked with
      | none => (s, [])
      | some closed =>
          if s.isInterrupted then ({ s with isInterrupted := false, stage := .idle }, [])
          else match s.blockMap number with
            | some (.consensusBlock comming _) =>
                if isEquivalent comming.header closed.header then
                  let (s, f) := s.finalizeProposal closed comming
                  ({ s with stage := .idle }, [f])
                else (s, [])
            | some (.proposal _) =>
                ({ s with closedBlock := some closed, stage := .waitFinalized }, [])
            | _ => (s, [])

/-- The execution thread takes the next height from the channel, unless it
is executing a proposal. -/
def receive : Instance × List Finalization :=
  match s.executing, s.writeQueue with
  | none, number :: rest =>
      { s with writeQueue := rest }.executeBlock hash execute checkProof number
  | _, _ => (s, [])

end Execution

end Instance

/-- What moves the system: a message to the message thread (a consensus
block, a proposal from consensus or the network, a batch of sync blocks),
the execution thread taking a height, and the end of the proposal it
executes, with whether a check of the flag came after the flag went up. -/
inductive Event where
  | blockWithProof (block : Block) (proof : Proof)
  | signedProposal (block : Block)
  | syncResponse (blocks : List Block)
  | receive
  | proposalExecuted (checked : Bool)

namespace Instance

variable (hash : Header → H256) (execute : Header → Block → Executed)
  (checkHash : Block → Bool) (checkProof : Block → Proof → Bool)

/-- One event, and the finalizations it makes. While syncing, `distribute_msg`
drops proposals. -/
def step (s : Instance) : Event → Outcome Empty (Instance × List Finalization)
  | .blockWithProof block proof => .ok (s.consensusBlockEnqueue hash block proof, [])
  | .signedProposal block => .ok (if s.isSync then s else s.proposalEnqueue hash block, [])
  | .syncResponse blocks => (·, []) <$> s.dealSyncBlocks checkHash blocks
  | .receive => .ok (s.receive hash execute checkProof)
  | .proposalExecuted checked => .ok (s.proposalExecuted execute checked)

/-- A sequence of events, and the finalizations they make in order. -/
def run : Instance → List Event → Outcome Empty (Instance × List Finalization)
  | s, [] => .ok (s, [])
  | s, e :: es => do
      let (s, fs) ← s.step hash execute checkHash checkProof e
      let (s, fs') ← run s es
      pure (s, fs ++ fs')

end Instance

/-! ## One block on top of another -/

/-- `h` is the block after `parent`: one higher, with `parent`'s hash as its
parent hash. -/
def Follows (hash : Header → H256) (parent h : Header) : Prop :=
  h.number = parent.number + 1 ∧ h.parentHash = hash parent

/-- Finalizing the headers `hs` in order from `h`: each follows the one
before it, and the last is `h'`. -/
inductive Extends (hash : Header → H256) : Header → List Header → Header → Prop
  | nil (h : Header) : Extends hash h [] h
  | cons {h h' h'' : Header} {hs : List Header} :
      Follows hash h h' → Extends hash h' hs h'' → Extends hash h (h' :: hs) h''

namespace Extends

variable {hash : Header → H256} {h h' h'' : Header} {hs hs' : List Header}

theorem single (hf : Follows hash h h') : Extends hash h [h'] h' := .cons hf (.nil h')

theorem append (h₁ : Extends hash h hs h') (h₂ : Extends hash h' hs' h'') :
    Extends hash h (hs ++ hs') h'' := by
  induction h₁ with
  | nil => exact h₂
  | cons hf _ ih => exact .cons hf (ih h₂)

/-- The heights finalized are the ones after `h`, in order. -/
theorem numbers (he : Extends hash h hs h') :
    hs.map Header.number = List.range' (h.number + 1) hs.length := by
  induction he with
  | nil => rfl
  | cons hf _ ih =>
      rw [List.map_cons, ih, hf.1]
      rfl

/-- No height is finalized twice. -/
theorem nodup (he : Extends hash h hs h') : (hs.map Header.number).Nodup := by
  rw [he.numbers]
  exact List.nodup_range'

end Extends

namespace Instance

section Invariant

variable {hash : Header → H256} {execute : Header → Block → Executed}
  {checkHash : Block → Bool} {checkProof : Block → Proof → Bool} {s s' : Instance}

/-- `validate_height` and `validate_hash` together: the block follows the
current header. -/
theorem follows_of_validate {b : Block}
    (h : (s.validateHeight b.number && s.validateHash hash b.parentHash) = true) :
    Follows hash s.currentHeader b.header := by
  simp only [Bool.and_eq_true, validateHeight, validateHash, currentHeight, beq_iff_eq] at h
  exact ⟨h.1.symm, h.2.symm⟩

variable (hash) in
/-- What holds between any two events: each queued block sits at its own
height, and a queued proposal, the proposal being executed and the closed
block waiting in `WaitFinalized` follow the current header. -/
structure Inv (s : Instance) : Prop where
  keyed : ∀ n q, s.blockMap n = some q → q.block.number = n
  proposal : ∀ n p, s.blockMap n = some (.proposal p) → Follows hash s.currentHeader p.header
  executing : ∀ n p, s.executing = some (n, p) →
    p.number = n ∧ Follows hash s.currentHeader p.header
  closed : s.stage = .waitFinalized →
    ∃ c, s.closedBlock = some c ∧ Follows hash s.currentHeader c.header

theorem inv_new (header : Header) (prooftype : Option ProofType) :
    Inv hash (Instance.new header prooftype) where
  keyed _ _ h := by cases h
  proposal _ _ h := by cases h
  executing _ _ h := by cases h
  closed h := by cases h

/-- A queue with no proposal, in a state with no proposal running, is
invariant once the stage is `Idle`, whatever the current header. -/
theorem inv_idle (hkeyed : ∀ n q, s.blockMap n = some q → q.block.number = n)
    (hnone : ∀ n p, s.blockMap n ≠ some (.proposal p)) (he : s.executing = none) :
    Inv hash { s with stage := .idle } where
  keyed := hkeyed
  proposal n p hn := absurd hn (hnone n p)
  executing _ _ h := by simp [he] at h
  closed h := by cases h

/-- A proposal waits only at the next height, so a block of another kind
there means that no proposal waits. -/
theorem Inv.no_proposal (hi : Inv hash s) {k : Nat} {q : BlockInQueue} (hq : s.blockMap k = some q)
    (hk : k = s.currentHeight + 1) (hnp : ∀ p, q ≠ .proposal p) :
    ∀ n p, s.blockMap n ≠ some (.proposal p) := by
  intro n p hn
  have hkey : p.header.number = n := hi.keyed n _ hn
  have hnext : p.header.number = s.currentHeader.number + 1 := (hi.proposal n p hn).1
  have hnk : n = k := by
    rw [hk]
    unfold currentHeight
    omega
  rw [hnk, hq] at hn
  exact hnp p (Option.some.inj hn)

theorem Inv.cleanMap (hi : Inv hash s) : Inv hash s.cleanMap where
  keyed n q hn := hi.keyed n q (FunMap.splitOff_eq_some.mp hn).2
  proposal n p hn := hi.proposal n p (FunMap.splitOff_eq_some.mp hn).2
  executing := hi.executing
  closed := hi.closed

/-! ### The message thread -/

variable (hash) in
/-- What the message thread changes: blocks are queued at their own height,
proposals only if they follow the current header, and `max_height`, the
flag and the channel; the rest is the execution thread's. -/
structure Enqueues (s s' : Instance) : Prop where
  currentHeader : s'.currentHeader = s.currentHeader
  stage : s'.stage = s.stage
  closedBlock : s'.closedBlock = s.closedBlock
  executing : s'.executing = s.executing
  blockMap : ∀ n q, s'.blockMap n = some q →
    s.blockMap n = some q ∨
      (q.block.number = n ∧ ∀ p, q = .proposal p → Follows hash s.currentHeader p.header)

theorem Enqueues.refl (s : Instance) : Enqueues hash s s :=
  ⟨rfl, rfl, rfl, rfl, fun _ _ h => .inl h⟩

theorem Enqueues.trans {s'' : Instance} (h₁ : Enqueues hash s s') (h₂ : Enqueues hash s' s'') :
    Enqueues hash s s'' where
  currentHeader := h₂.currentHeader.trans h₁.currentHeader
  stage := h₂.stage.trans h₁.stage
  closedBlock := h₂.closedBlock.trans h₁.closedBlock
  executing := h₂.executing.trans h₁.executing
  blockMap n q hn := by
    rcases h₂.blockMap n q hn with hn | ⟨hk, hp⟩
    · exact h₁.blockMap n q hn
    · exact .inr ⟨hk, h₁.currentHeader ▸ hp⟩

/-- Queueing `q` at its own height; a proposal must follow the current
header. -/
theorem enqueues_update {k : Nat} {q : BlockInQueue} (hk : q.block.number = k)
    (hq : ∀ p, q = .proposal p → Follows hash s.currentHeader p.header)
    (hh : s'.currentHeader = s.currentHeader) (hst : s'.stage = s.stage)
    (hc : s'.closedBlock = s.closedBlock) (he : s'.executing = s.executing)
    (hm : s'.blockMap = Function.update s.blockMap k (some q)) :
    Enqueues hash s s' := by
  refine ⟨hh, hst, hc, he, fun n q' hn => ?_⟩
  rw [hm] at hn
  rcases eq_or_ne n k with rfl | hne
  · rw [Function.update_self] at hn
    cases hn
    exact .inr ⟨hk, hq⟩
  · rw [Function.update_of_ne hne] at hn
    exact .inl hn

/-- The flag, `max_height` and the channel are the message thread's. -/
theorem enqueues_of_eq (hh : s'.currentHeader = s.currentHeader) (hm : s'.blockMap = s.blockMap)
    (hst : s'.stage = s.stage) (hc : s'.closedBlock = s.closedBlock)
    (he : s'.executing = s.executing) :
    Enqueues hash s s' :=
  ⟨hh, hst, hc, he, fun _ _ hn => .inl (hm ▸ hn)⟩

theorem Inv.enqueues (hi : Inv hash s) (h : Enqueues hash s s') : Inv hash s' where
  keyed n q hn := by
    rcases h.blockMap n q hn with hn | ⟨hk, _⟩
    · exact hi.keyed n q hn
    · exact hk
  proposal n p hn := by
    rw [h.currentHeader]
    rcases h.blockMap n _ hn with hn | ⟨_, hp⟩
    · exact hi.proposal n p hn
    · exact hp p rfl
  executing n p hn := by
    rw [h.currentHeader]
    exact hi.executing n p (h.executing ▸ hn)
  closed hst := by
    rw [h.currentHeader, h.closedBlock]
    exact hi.closed (h.stage ▸ hst)

theorem enqueues_sendBlock (b : Bool) (block : Block) (proof : Proof) :
    Enqueues hash s ({ s with isInterrupted := b }.sendBlock block.number block proof) :=
  enqueues_update (q := .consensusBlock block proof) rfl (fun _ h => by cases h) rfl rfl rfl rfl rfl

theorem enqueues_sendProposal (b : Bool) {block : Block}
    (hf : Follows hash s.currentHeader block.header) :
    Enqueues hash s ({ s with isInterrupted := b }.sendProposal block.number block) :=
  enqueues_update (q := .proposal block) rfl (fun _ h => by cases h; exact hf) rfl rfl rfl rfl rfl

theorem enqueues_consensusBlockEnqueue (block : Block) (proof : Proof) :
    Enqueues hash s (s.consensusBlockEnqueue hash block proof) := by
  unfold consensusBlockEnqueue
  split
  · exact .refl s
  split
  · dsimp only
    split
    -- against a proposal the flag is raised or left, and the block queued
    · split
      · exact enqueues_sendBlock s.isInterrupted block proof
      · exact enqueues_sendBlock true block proof
    · split
      · exact enqueues_sendBlock s.isInterrupted block proof
      · exact enqueues_sendBlock true block proof
    · exact enqueues_sendBlock s.isInterrupted block proof
    · exact .refl s
  · exact .refl s

theorem enqueues_proposalEnqueue (block : Block) :
    Enqueues hash s (s.proposalEnqueue hash block) := by
  unfold proposalEnqueue
  dsimp only
  split
  · rename_i hv
    have hf := follows_of_validate hv
    split
    · split
      · exact .refl s
      · exact enqueues_sendProposal true hf
    · split
      · exact .refl s
      · exact enqueues_sendProposal s.isInterrupted hf
    · exact .refl s
    · exact .refl s
    · exact enqueues_sendProposal s.isInterrupted hf
    · exact .refl s
  · exact .refl s

theorem enqueues_fillSyncProof (hi : Inv hash s) (height : Nat) (proof : Proof) :
    Enqueues hash s (s.fillSyncProof height proof) := by
  unfold fillSyncProof
  split
  · rename_i block hq
    -- the proof completes a block already queued at `height`
    have hk : block.number = height := hi.keyed height _ hq
    exact enqueues_update (q := .syncBlock block (some proof)) hk (fun _ h => by cases h)
      rfl rfl rfl rfl rfl
  · exact .refl s

theorem enqueues_addSyncBlock (hi : Inv hash s) {block : Block}
    (h : s.addSyncBlock block = .ok s') :
    Enqueues hash s s' := by
  unfold addSyncBlock at h
  split at h
  · cases h
    exact .refl s
  · split at h
    · dsimp only at h
      split at h
      · split at h
        · cases h
          have hfill := enqueues_fillSyncProof hi block.bftProofHeight block.proof
          exact hfill.trans
            (enqueues_update (q := .syncBlock block none) rfl (fun _ h => by cases h)
              rfl rfl rfl rfl rfl)
        · cases h
          exact .refl s
      · split at h
        · cases h
          exact enqueues_fillSyncProof hi _ _
        · cases h
          exact .refl s
    · cases h

theorem enqueues_addSyncBlocks (blocks : List Block) {ended : Bool} (hi : Inv hash s)
    (h : addSyncBlocks checkHash s blocks = .ok (s', ended)) : Enqueues hash s s' := by
  induction blocks generalizing s with
  | nil =>
      cases h
      exact .refl _
  | cons block rest ih =>
      unfold addSyncBlocks at h
      split at h
      · exact ih hi h
      · split at h
        · cases h
          exact .refl _
        · split at h
          · cases h
            exact .refl _
          · obtain ⟨s₁, h₁, h⟩ := Outcome.bind_eq_ok.mp h
            have he₁ := enqueues_addSyncBlock hi h₁
            exact he₁.trans (ih (hi.enqueues he₁) h)

theorem enqueues_dealSyncBlocks (hi : Inv hash s) {blocks : List Block}
    (h : s.dealSyncBlocks checkHash blocks = .ok s') : Enqueues hash s s' := by
  unfold dealSyncBlocks at h
  obtain ⟨⟨s₁, ended⟩, h₁, h⟩ := Outcome.bind_eq_ok.mp h
  have he₁ := enqueues_addSyncBlocks blocks hi h₁
  dsimp only at h
  split at h
  · cases h
    exact he₁.trans (enqueues_of_eq rfl rfl rfl rfl rfl)
  · cases h
    exact he₁

/-! ### The execution thread -/

variable (hash) in
/-- `r` is `s` with blocks finalized one on top of another from its current
header, and nothing else changed. -/
def Commits (s : Instance) (r : Instance × List Finalization) : Prop :=
  ∃ h', r.1 = { s with currentHeader := h' } ∧
    Extends hash s.currentHeader (r.2.map Finalization.header) h'

theorem Commits.refl (s : Instance) : Commits hash s (s, []) := ⟨s.currentHeader, rfl, .nil _⟩

theorem Commits.append {s₁ s₂ : Instance} {fs fs' : List Finalization}
    (h₁ : Commits hash s (s₁, fs)) (h₂ : Commits hash s₁ (s₂, fs')) :
    Commits hash s (s₂, fs ++ fs') := by
  obtain ⟨h₁', hs₁ : s₁ = _, he₁⟩ := h₁
  obtain ⟨h₂', hs₂ : s₂ = _, he₂⟩ := h₂
  subst hs₁ hs₂
  refine ⟨h₂', rfl, ?_⟩
  rw [List.map_append]
  exact he₁.append he₂

/-- What a branch of `execute_block` leaves: the queue, the running
proposal, and blocks finalized on top of the current header. -/
theorem Commits.spec {r : Instance × List Finalization} (h : Commits hash s r) :
    r.1.blockMap = s.blockMap ∧ r.1.executing = s.executing ∧
      Extends hash s.currentHeader (r.2.map Finalization.header) r.1.currentHeader := by
  obtain ⟨h', hr, he⟩ := h
  rw [hr]
  exact ⟨rfl, rfl, he⟩

theorem follows_close {parent h : Header} {b : Block} (hf : Follows hash h b.header) :
    Follows hash h (close execute parent b).header :=
  ⟨hf.1, hf.2⟩

theorem commits_extExecuteBlock {block : Block} (hf : Follows hash s.currentHeader block.header) :
    Commits hash s (s.extExecuteBlock execute block) := by
  unfold extExecuteBlock
  split
  · exact .refl s
  · exact ⟨_, rfl, .single (follows_close hf)⟩

theorem commits_setSyncBlock {block : Block} {proof : Proof} {r : Instance × List Finalization}
    (h : s.setSyncBlock hash execute checkProof block proof = some r) : Commits hash s r := by
  unfold setSyncBlock at h
  split at h
  · rename_i hv
    cases h
    exact commits_extExecuteBlock (follows_of_validate ((Bool.and_eq_true _ _).mp hv).1)
  · cases h

theorem commits_syncFrom (queue : Nat → Option BlockInQueue) (fuel number : Nat) (s : Instance) :
    Commits hash s ((syncFrom hash execute checkProof queue fuel number s).1,
      (syncFrom hash execute checkProof queue fuel number s).2.1) := by
  induction fuel generalizing number s with
  | zero => exact .refl _
  | succ fuel ih =>
      unfold syncFrom
      split
      · split
        · rename_i s₁ fs hset
          exact (commits_setSyncBlock hset).append (ih (number + 1) s₁)
        · exact .refl _
      · exact .refl _

variable (hash execute checkProof) in
theorem syncBlocks_spec (number : Nat) :
    ((s.syncBlocks hash execute checkProof number).1.blockMap = s.blockMap ∨
        (s.syncBlocks hash execute checkProof number).1.blockMap = fun _ => none) ∧
      (s.syncBlocks hash execute checkProof number).1.executing = s.executing ∧
      Extends hash s.currentHeader
        ((s.syncBlocks hash execute checkProof number).2.map Finalization.header)
        (s.syncBlocks hash execute checkProof number).1.currentHeader := by
  obtain ⟨hm, hx, he⟩ :=
    (commits_syncFrom s.blockMap (u64Max + 1 - number) number { s with isSync := true }).spec
  unfold syncBlocks
  -- an invalid block empties the queue, which is all it changes
  split
  · rename_i invalid heq
    rw [heq] at hm hx he
    cases invalid
    · exact ⟨.inl hm, hx, he⟩
    · exact ⟨.inr rfl, hx, he⟩

variable (execute) in
theorem executeConsensusBlock_spec (hi : Inv hash s) {block : Block}
    (hf : Follows hash s.currentHeader block.header) :
    (s.executeConsensusBlock execute block).1.blockMap = s.blockMap ∧
      (s.executeConsensusBlock execute block).1.executing = s.executing ∧
      Extends hash s.currentHeader
        ((s.executeConsensusBlock execute block).2.map Finalization.header)
        (s.executeConsensusBlock execute block).1.currentHeader := by
  unfold executeConsensusBlock
  split
  · exact (commits_extExecuteBlock
      (s := { s with isInterrupted := false, stage := .executingBlock }) hf).spec
  · split
    · -- the closed block that waits follows the current header
      rename_i closed hst hc
      obtain ⟨c, hc', hfc⟩ := hi.closed hst
      rw [hc] at hc'
      cases hc'
      exact ⟨rfl, rfl, .single ⟨hfc.1, hfc.2⟩⟩
    · exact (commits_extExecuteBlock (s := { s with stage := .executingBlock }) hf).spec
    · exact (commits_extExecuteBlock (s := { s with stage := .executingBlock }) hf).spec
    · exact ⟨rfl, rfl, .nil _⟩

/-- After a consensus or sync block at the next height, whatever was
finalized, the stage is `Idle` and no proposal waits: the invariant holds. -/
theorem inv_after_block (hi : Inv hash s) {k : Nat} {q : BlockInQueue} (hq : s.blockMap k = some q)
    (hk : k = s.currentHeight + 1) (hnp : ∀ p, q ≠ .proposal p) (he : s.executing = none)
    (hm : s'.blockMap = s.blockMap ∨ s'.blockMap = fun _ => none)
    (hx : s'.executing = s.executing) :
    Inv hash { s' with stage := .idle }.cleanMap := by
  have hnone := hi.no_proposal hq hk hnp
  refine Inv.cleanMap (inv_idle ?_ ?_ (hx.trans he))
  · rcases hm with hm | hm <;> rw [hm]
    · exact hi.keyed
    · intro _ _ h
      cases h
  · rcases hm with hm | hm <;> rw [hm]
    · exact hnone
    · intro _ _ h
      cases h

theorem executeBlock_spec (hi : Inv hash s) (he : s.executing = none) (number : Nat) :
    Inv hash (s.executeBlock hash execute checkProof number).1 ∧
      Extends hash s.currentHeader
        ((s.executeBlock hash execute checkProof number).2.map Finalization.header)
        (s.executeBlock hash execute checkProof number).1.currentHeader := by
  unfold executeBlock
  split
  · rename_i block proof hq
    split
    · rename_i hv
      have hf := follows_of_validate hv
      have hk : number = s.currentHeight + 1 := (hi.keyed number _ hq).symm.trans hf.1
      obtain ⟨hm, hx, hext⟩ := executeConsensusBlock_spec execute hi hf
      exact ⟨inv_after_block hi hq hk (fun _ h => by cases h) he (.inl hm) hx, hext⟩
    · exact ⟨hi, .nil _⟩
  · rename_i block proof hq
    split
    · rename_i hk
      obtain ⟨hm, hx, hext⟩ :=
        syncBlocks_spec (s := { s with stage := .executingBlock }) hash execute checkProof number
      exact ⟨inv_after_block hi hq hk (fun _ h => by cases h) he hm hx, hext⟩
    · exact ⟨hi, .nil _⟩
  · -- the proposal starts: it is at its own height, on top of the current header
    rename_i proposal hq
    refine ⟨⟨hi.keyed, hi.proposal, fun n p hp => ?_, fun h => by cases h⟩, .nil _⟩
    cases hp
    exact ⟨hi.keyed number _ hq, hi.proposal number proposal hq⟩
  · exact ⟨hi, .nil _⟩

theorem proposalExecuted_spec (hi : Inv hash s) (checked : Bool) :
    Inv hash (s.proposalExecuted execute checked).1 ∧
      Extends hash s.currentHeader ((s.proposalExecuted execute checked).2.map Finalization.header)
        (s.proposalExecuted execute checked).1.currentHeader := by
  unfold proposalExecuted
  split
  · exact ⟨hi, .nil _⟩
  · rename_i number proposal hx
    obtain ⟨hkey, hf⟩ := hi.executing number proposal hx
    -- the proposal is done: nothing runs
    have hi₁ : Inv hash { s with executing := none } :=
      ⟨hi.keyed, hi.proposal, (fun _ _ h => by cases h), hi.closed⟩
    dsimp only
    split
    · exact ⟨hi₁, .nil _⟩
    · rename_i closed hclosed
      have hcl : close execute s.currentHeader proposal = closed := by
        unfold executeProposal at hclosed
        split at hclosed
        · cases hclosed
        · exact Option.some.inj hclosed
      subst hcl
      split
      · -- interrupted meanwhile: back to `Idle`, nothing kept
        refine ⟨⟨hi.keyed, hi.proposal, (fun _ _ h => by cases h), fun h => ?_⟩, .nil _⟩
        cases h
      · split
        · rename_i comming proof hq
          split
          · -- the consensus block sits at the proposal's height, the next one
            have hk : number = s.currentHeight + 1 := hkey.symm.trans hf.1
            have hnone := hi.no_proposal hq hk fun _ h => by cases h
            exact ⟨inv_idle hi.keyed hnone rfl, .single ⟨hf.1, hf.2⟩⟩
          · exact ⟨hi₁, .nil _⟩
        · -- the closed block waits for its consensus block
          refine ⟨⟨hi.keyed, hi.proposal, (fun _ _ h => by cases h), fun _ => ?_⟩, .nil _⟩
          exact ⟨_, rfl, follows_close hf⟩
        · exact ⟨hi₁, .nil _⟩

theorem receive_spec (hi : Inv hash s) :
    Inv hash (s.receive hash execute checkProof).1 ∧
      Extends hash s.currentHeader ((s.receive hash execute checkProof).2.map Finalization.header)
        (s.receive hash execute checkProof).1.currentHeader := by
  unfold receive
  split
  · rename_i number rest he _
    have hi' : Inv hash { s with writeQueue := rest } :=
      ⟨hi.keyed, hi.proposal, hi.executing, hi.closed⟩
    exact executeBlock_spec hi' he number
  · exact ⟨hi, .nil _⟩

/-- Every event keeps the invariant and finalizes blocks one on top of
another from the current header. -/
theorem step_spec (hi : Inv hash s) {e : Event} {fs : List Finalization}
    (h : s.step hash execute checkHash checkProof e = .ok (s', fs)) :
    Inv hash s' ∧ Extends hash s.currentHeader (fs.map Finalization.header) s'.currentHeader := by
  -- the message thread finalizes nothing and leaves the header
  have hmsg : ∀ {s''}, Enqueues hash s s'' → Inv hash s'' ∧
      Extends hash s.currentHeader (([] : List Finalization).map Finalization.header)
        s''.currentHeader :=
    fun he => ⟨hi.enqueues he, by rw [he.currentHeader]; exact .nil _⟩
  cases e with
  | blockWithProof block proof =>
      cases h
      exact hmsg (enqueues_consensusBlockEnqueue block proof)
  | signedProposal block =>
      cases h
      split
      · exact hmsg (.refl s)
      · exact hmsg (enqueues_proposalEnqueue block)
  | syncResponse blocks =>
      obtain ⟨s'', hdeal, hr⟩ := Outcome.map_eq_ok.mp h
      cases hr
      exact hmsg (enqueues_dealSyncBlocks hi hdeal)
  | receive =>
      obtain ⟨rfl, rfl⟩ := Prod.ext_iff.mp (Outcome.ok.inj h).symm
      exact receive_spec hi
  | proposalExecuted checked =>
      obtain ⟨rfl, rfl⟩ := Prod.ext_iff.mp (Outcome.ok.inj h).symm
      exact proposalExecuted_spec hi checked

theorem run_spec (hi : Inv hash s) {es : List Event} {fs : List Finalization}
    (h : s.run hash execute checkHash checkProof es = .ok (s', fs)) :
    Inv hash s' ∧ Extends hash s.currentHeader (fs.map Finalization.header) s'.currentHeader := by
  induction es generalizing s s' fs with
  | nil =>
      cases h
      exact ⟨hi, .nil _⟩
  | cons e es ih =>
      obtain ⟨⟨s₁, fs₁⟩, h₁, h⟩ := Outcome.bind_eq_ok.mp h
      obtain ⟨⟨s₂, fs₂⟩, h₂, h⟩ := Outcome.bind_eq_ok.mp h
      cases h
      obtain ⟨hi₁, he₁⟩ := step_spec hi h₁
      obtain ⟨hi₂, he₂⟩ := ih hi₁ h₂
      refine ⟨hi₂, ?_⟩
      rw [List.map_append]
      exact he₁.append he₂

/-- From a fresh executor, every run finalizes block after block on top of
its header: the next heights, each once, each finalized header naming the
one before it as its parent. -/
theorem run_extends {header : Header} {prooftype : Option ProofType} {es : List Event}
    {fs : List Finalization}
    (h : (Instance.new header prooftype).run hash execute checkHash checkProof es = .ok (s', fs)) :
    Extends hash header (fs.map Finalization.header) s'.currentHeader :=
  (run_spec (inv_new header prooftype) h).2

end Invariant

end Instance

/-! ## A closed block finalized with a block it is not equivalent to -/

/-- A proposal for block 1, on top of `Header.new`, with the timestamp
`timestamp`. -/
def proposalAt (hash : Header → H256) (timestamp : Nat) : Block :=
  ⟨{ Header.new with
      number := 1, parentHash := hash Header.new, timestamp := timestamp }, ⟨[]⟩⟩

/-- Proposal 1 is executed and waits; proposal 2 for the same height
replaces it in the queue, and consensus commits proposal 2 before the
execution thread takes the height again. -/
def replacedProposalRun (hash : Header → H256) : List Event :=
  [.signedProposal (proposalAt hash 1), .receive, .proposalExecuted false,
    .signedProposal (proposalAt hash 2), .blockWithProof (proposalAt hash 2) Proof.new, .receive]

theorem waitFinalized_finalizes_replaced_proposal (hash : Header → H256)
    (execute : Header → Block → Executed) (checkHash : Block → Bool)
    (checkProof : Block → Proof → Bool) :
    isEquivalent (proposalAt hash 1).header (proposalAt hash 2).header = false ∧
      ((fun r => (r.1.currentHeader.timestamp, r.2)) <$>
        (Instance.new Header.new (some .bft)).run hash execute checkHash checkProof
          (replacedProposalRun hash)) =
        .ok (1, [.finalizeProposal (close execute Header.new (proposalAt hash 1))
          (proposalAt hash 2)]) := by
  refine ⟨rfl, ?_⟩
  simp only [Instance.new, Libchain.Header.new, BitVec.ofNat_eq_ofNat, Libchain.Proof.new,
    replacedProposalRun, proposalAt, Instance.run, Instance.step, Bool.false_eq_true, ↓reduceIte,
    Instance.proposalEnqueue, Instance.validateHeight, Instance.currentHeight, zero_add,
    Libchain.Block.number, BEq.rfl, Instance.validateHash, Libchain.Block.parentHash, Bool.and_self,
    Instance.sendProposal, List.nil_append, Instance.receive, Instance.executeBlock,
    Bool.and_eq_true, beq_iff_eq, Instance.cleanMap, Instance.executeConsensusBlock,
    Instance.finalizeProposal, Instance.finalizeBlock, Instance.proposalExecuted,
    Instance.executeProposal, Bool.and_false, Bool.false_and, isEquivalent, close_parentHash,
    close_number, Nat.reduceBeqDiff, Instance.consensusBlockEnqueue, Instance.isDupBlock,
    Instance.sendBlock, Outcome.pure_eq, Outcome.ok_bind, List.append_nil, Prod.mk.eta,
    Function.update_self, and_self, OfNat.one_ne_ofNat, and_false, and_true, Function.update_idem,
    Nat.le_zero_eq, one_ne_zero, decide_false, List.cons_append]
  rfl

end ExecutorInstance

end Cita
