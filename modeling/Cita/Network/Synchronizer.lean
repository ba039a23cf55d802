import Mathlib.Data.List.GetD
import Cita.Chain.Types
import Cita.Lib.SortedMap

/-!
# The block synchronizer of `cita-network`

`Synchronizer` compares the height of the local chain (`Chain >> Status`)
with the heights other nodes announce (`Synchronizer >> Status`), asks them
for the blocks it lacks (`start_sync_req`, `sync_strategy`), and hands the
blocks they send back (`Synchronizer >> SyncResponse`) to the chain and the
executor in order (`submit_blocks`). Each message is handled to its end
before the next (`receive`); a run is any sequence of the three messages,
at any times and with any random choices (`run`).

Heights are `u64`. The `+` on them is checked, as a debug build checks it
(`addU64`): a peer announcing `u64::MAX` makes `sync_strategy` count past
it. The clock is the seconds of `Instant`, and `rand.gen_range(0, n)` is
the random number a message comes with, taken modulo `n`.
-/

namespace Cita
namespace Network

open Libchain (u64Max)
open Outcome (OkThen okThen_ok okThen_panic okThen_bind okThen_bind_of okThen_ite)

/-- `SYNC_STEP`: the most heights one request asks for. -/
def syncStep : Nat := 200

/-- `SYNC_TIME_OUT`, in seconds. -/
def syncTimeOut : Nat := 60

/-- `a + b` on `u64`: a debug build panics past `u64::MAX`. -/
def addU64 (a b : Nat) : Outcome Empty Nat :=
  if a + b ≤ u64Max then .ok (a + b) else .panic "attempt to add with overflow"

/-- `libproto::blockchain::Status`. -/
structure Status where
  hash : Bytes
  height : Nat
deriving DecidableEq, Repr

/-- `Status::new()`. -/
def Status.new : Status := ⟨[], 0⟩

/-- `BlockHeader`, of which the synchronizer reads the height. -/
structure BlockHeader where
  height : Nat
deriving DecidableEq, Repr

/-- `libproto::blockchain::Block`: a header, when it has one, and the rest,
which the synchronizer hands on unread. -/
structure Block (Body : Type) where
  header : Option BlockHeader
  body : Body
deriving DecidableEq, Repr

/-- `block.get_header().get_height()`: a missing header reads as the
default one, of height 0. -/
def Block.headerHeight {Body : Type} (b : Block Body) : Nat := (b.header.map BlockHeader.height).getD 0

/-- What the synchronizer sends: a request for heights to one node, its
chain's status to every node, blocks to the chain and the executor. -/
inductive Output (Body : Type) where
  | syncRequest (heights : List Nat) (origin : Nat)
  | status (status : Status)
  | syncResponse (blocks : List (Block Body))
deriving DecidableEq, Repr

/-- `Synchronizer`, with what it has sent so far in `outbox`. The time of
the last remote request is in seconds. -/
structure Synchronizer (Body : Type) where
  currentStatus : Status
  globalStatus : Status
  syncEndHeight : Nat
  isSynchronizing : Bool
  latestStatusLists : SortedMap Nat (List Nat)
  blockLists : SortedMap Nat (Block Body)
  remoteSyncTimeOut : Nat
  localSyncCount : Nat
  outbox : List (Output Body)

/-- The messages the synchronizer handles: the local chain's status, a
node's status with the node's id, and blocks a node sent. -/
inductive Message (Body : Type) where
  | chainStatus (status : Status)
  | syncStatus (status : Status) (origin : Nat)
  | syncResponse (blocks : List (Block Body))

namespace Synchronizer

variable {Body : Type}

/-- `Synchronizer::new` at time `now`: the last remote request is set a
timeout back, so that the first one is not held back. -/
def new (now : Nat) : Synchronizer Body :=
  ⟨Status.new, Status.new, 0, true, .empty, .empty, now - syncTimeOut, 0, []⟩

/-- `send_sync_req`: nothing for no heights. -/
def sendSyncReq (heights : List Nat) (origin : Nat) : List (Output Body) :=
  if heights.isEmpty then [] else [.syncRequest heights origin]

/-- The variables of `sync_strategy`'s loop. -/
structure SyncLoop (Body : Type) where
  startHeight : Nat
  stepSum : Nat
  heights : List Nat
  sent : List (Output Body)

/-- One iteration of `sync_strategy`'s loop: when `SYNC_STEP` heights are
gathered they are sent and a new batch begins; then `start_height` joins
the batch and moves on. -/
def syncStrategyBody (origin : Nat) (st : SyncLoop Body) : Outcome Empty (SyncLoop Body) := do
  let st := if st.stepSum = 0 then ⟨st.startHeight, syncStep, [], st.sent ++ sendSyncReq st.heights origin⟩
    else st
  let next ← addU64 st.startHeight 1
  pure ⟨next, st.stepSum - 1, st.heights ++ [st.startHeight], st.sent⟩

/-- `while start_height <= end_height { .. }`; `n` counts the iterations
left, one per height of `[start_height, end_height]`. -/
def syncStrategyLoop (endHeight origin : Nat) : Nat → SyncLoop Body → Outcome Empty (SyncLoop Body)
  | 0, st => .ok st
  | n + 1, st =>
    if st.startHeight ≤ endHeight then
      syncStrategyBody origin st >>= syncStrategyLoop endHeight origin n
    else .ok st

/-- `sync_strategy`: the requests it sends to `origin`. -/
def syncStrategy (s : Synchronizer Body) (startHeight endHeight origin : Nat) :
    Outcome Empty (List (Output Body)) :=
  if startHeight ≥ s.currentStatus.height ∧ startHeight ≤ endHeight then do
    let st ← syncStrategyLoop endHeight origin (endHeight + 1 - startHeight) ⟨startHeight, syncStep, [], []⟩
    pure (st.sent ++ sendSyncReq st.heights origin)
  else pure []

/-- `start_sync_req`: ask the node behind the greatest height announced, a
random one of those that announced it, from `start_height` to `end_height`,
or to one past that height when `end_height` is 0. -/
def startSyncReq (s : Synchronizer Body) (choice startHeight endHeight : Nat) :
    Outcome Empty (Synchronizer Body) :=
  match s.latestStatusLists.rfind fun origins => decide (origins.length > 0) with
  | some (height, _) =>
    match s.latestStatusLists.get? height with
    | some origins =>
      if height > s.currentStatus.height then do
        let origin := origins.getD (choice % origins.length) 0
        let endHeight ← if endHeight = 0 then addU64 height 1 else pure endHeight
        let sent ← s.syncStrategy startHeight endHeight origin
        pure { s with outbox := s.outbox ++ sent }
      else pure s
    | none => pure s
  | none => pure s

/-- `broadcast_status`. -/
def broadcastStatus (s : Synchronizer Body) : Synchronizer Body :=
  { s with outbox := s.outbox ++ [.status s.currentStatus] }

/-- `pub_blocks`: nothing for no blocks. -/
def pubBlocks (s : Synchronizer Body) (blocks : List (Block Body)) : Synchronizer Body :=
  if blocks.isEmpty then s else { s with outbox := s.outbox ++ [.syncResponse blocks] }

/-- The loop of `submit_blocks`: the blocks at `height`, `height + 1`, ...
up to `end_height`, until one is missing; `n` bounds the iterations. -/
def collectBlocks (blockLists : SortedMap Nat (Block Body)) (endHeight : Nat) :
    Nat → Nat → List (Block Body) → Outcome Empty (List (Block Body))
  | 0, _, blocks => .ok blocks
  | n + 1, height, blocks =>
    if height ≤ endHeight then
      match blockLists.get? height with
      | some block => do
        let next ← addU64 height 1
        collectBlocks blockLists endHeight n next (blocks ++ [block])
      | none => .ok blocks
    else .ok blocks

/-- The new `sync_end_height` after `blocks` were gathered: the height of
the last one's header, if it has one and it is higher. -/
def raiseSyncEnd (syncEndHeight : Nat) (blocks : List (Block Body)) : Nat :=
  match blocks.getLast? with
  | some block =>
    match block.header with
    | some header => if header.height > syncEndHeight then header.height else syncEndHeight
    | none => syncEndHeight
  | none => syncEndHeight

/-- `submit_blocks`: the blocks from one past the chain's height on, as far
as they run without a gap and at most `SYNC_STEP + 1` of them, then the
proof-only block at `u64::MAX`, which leaves the cache. -/
def submitBlocks (s : Synchronizer Body) : Outcome Empty (Synchronizer Body) := do
  let height ← addU64 s.currentStatus.height 1
  let endHeight ← addU64 height syncStep
  let blocks ← collectBlocks s.blockLists endHeight (syncStep + 1) height []
  let s := { s with syncEndHeight := raiseSyncEnd s.syncEndHeight blocks }
  let (blocks, blockLists) ← if s.blockLists.containsKey u64Max then
      match s.blockLists.remove u64Max with
      | (some block, rest) => pure (blocks ++ [block], rest)
      | (none, _) => Outcome.panic "called `Option::unwrap()` on a `None` value"
    else pure (blocks, s.blockLists)
  pure ({ s with blockLists := blockLists }.pubBlocks blocks)

/-- `add_latest_sync_lists`: `origin` joins the nodes that announced
`height`, once. -/
def addLatestSyncLists (s : Synchronizer Body) (height origin : Nat) : Synchronizer Body :=
  let origins := (s.latestStatusLists.get? height).getD []
  let origins := if origin ∈ origins then origins else origins ++ [origin]
  { s with latestStatusLists := s.latestStatusLists.insert height origins }

/-- `prune_block_list_cache`. -/
def pruneBlockListCache (s : Synchronizer Body) (height : Nat) : Synchronizer Body :=
  { s with blockLists := s.blockLists.splitOff height }

/-- `update_current_status`: the local chain reached `latestStatus`. The
three cases of the source: the chain went back (its database was reset),
it is still within what was synchronized, or it is past it. The source
computes `new_height + 1` three times; the first overflow check decides. -/
def updateCurrentStatus (s : Synchronizer Body) (now choice : Nat) (latestStatus : Status) :
    Outcome Empty (Synchronizer Body) := do
  let oldHeight := s.currentStatus.height
  let newHeight := latestStatus.height
  let localSyncCount :=
    if newHeight = oldHeight ∧ s.localSyncCount < 255 then s.localSyncCount + 1 else 0
  let next ← addU64 latestStatus.height 1
  let s := { s with
    localSyncCount := localSyncCount
    latestStatusLists := s.latestStatusLists.splitOff next
    currentStatus := latestStatus }
  let s := (s.broadcastStatus).pruneBlockListCache next
  if newHeight < oldHeight then
    let s := { s with isSynchronizing := true }
    if s.blockLists.containsKey next ∧ !s.blockLists.isEmpty then s.submitBlocks
    else s.startSyncReq choice next 0
  else if newHeight ≤ s.syncEndHeight then do
    let s ← if !s.blockLists.isEmpty ∧ newHeight < s.syncEndHeight then
        if s.localSyncCount ≥ 3 then do
          let s ← s.submitBlocks
          pure { s with localSyncCount := 0, blockLists := .empty }
        else pure s
      else s.startSyncReq choice next 0
    pure { s with remoteSyncTimeOut := now, isSynchronizing := true }
  else pure { s with syncEndHeight := s.currentStatus.height, isSynchronizing := false }

/-- `update_global_status`: node `origin` announced `status`. -/
def updateGlobalStatus (s : Synchronizer Body) (now choice : Nat) (status : Status) (origin : Nat) :
    Outcome Empty (Synchronizer Body) := do
  let currentHeight := s.currentStatus.height
  let oldGlobalStatus := s.globalStatus
  let s := if s.globalStatus.height < status.height then { s with globalStatus := status } else s
  let next ← addU64 currentHeight 1
  if status.height < next then pure { s with isSynchronizing := false }
  else if status.height = next then
    let s := s.addLatestSyncLists status.height origin
    if s.globalStatus.height > oldGlobalStatus.height ∧ s.isSynchronizing then
      s.startSyncReq choice status.height status.height
    else if s.globalStatus.height = oldGlobalStatus.height then
      if now - s.remoteSyncTimeOut > syncTimeOut then do
        let s ← { s with remoteSyncTimeOut := now }.startSyncReq choice next status.height
        pure { s with isSynchronizing := true }
      else pure s
    else pure { s with isSynchronizing := false }
  else do
    let s := s.addLatestSyncLists status.height origin
    let s ← if now - s.remoteSyncTimeOut > syncTimeOut ∨ !s.isSynchronizing then
        ({ s with remoteSyncTimeOut := now }).startSyncReq choice next status.height
      else if s.globalStatus.height > oldGlobalStatus.height ∧ s.isSynchronizing then
        s.startSyncReq choice status.height status.height
      else pure s
    pure { s with isSynchronizing := true }

/-- `process_sync`: the blocks join the cache at their headers' heights,
and what now follows the chain is submitted. -/
def processSync (s : Synchronizer Body) (blocks : List (Block Body)) : Outcome Empty (Synchronizer Body) :=
  { s with blockLists := blocks.foldl (fun m (b : Block Body) => m.insert b.headerHeight b) s.blockLists }.submitBlocks

/-- `receive`, at time `now` and with the random number `choice`. -/
def receive (s : Synchronizer Body) (now choice : Nat) : Message Body → Outcome Empty (Synchronizer Body)
  | .chainStatus status => s.updateCurrentStatus now choice status
  | .syncStatus status origin => s.updateGlobalStatus now choice status origin
  | .syncResponse blocks => s.processSync blocks

/-- The synchronizer after a sequence of messages, each with its time and
random number. -/
def run : Synchronizer Body → List (Nat × Nat × Message Body) → Outcome Empty (Synchronizer Body)
  | s, [] => .ok s
  | s, (now, choice, msg) :: rest => s.receive now choice msg >>= fun s' => run s' rest

/-! ## `u64` addition -/

@[simp] theorem addU64_eq_ok {a b c : Nat} : addU64 a b = .ok c ↔ a + b ≤ u64Max ∧ a + b = c := by
  unfold addU64
  split <;> simp [*]

theorem addU64_of_le {a b : Nat} (h : a + b ≤ u64Max) : addU64 a b = .ok (a + b) := if_pos h

theorem addU64_of_lt {a b : Nat} (h : u64Max < a + b) :
    addU64 a b = .panic "attempt to add with overflow" := if_neg (Nat.not_le.mpr h)

/-! ## `sync_strategy` cuts the range into requests -/

/-- `batches` cut `l`, in order, into pieces of `k`, the last one of 1 to `k`. -/
structure Batches {α : Type} (k : Nat) (l : List α) (batches : List (List α)) : Prop where
  flatten_eq : batches.flatten = l
  ne_nil : ∀ b ∈ batches, b ≠ []
  length_le : ∀ b ∈ batches, b.length ≤ k
  full : ∀ b ∈ batches.dropLast, b.length = k

theorem range'_succ_sub {start h : Nat} (hle : start ≤ h) :
    List.range' start (h + 1 - start) = List.range' start (h - start) ++ [h] := by
  rw [show h + 1 - start = (h - start) + 1 by omega, List.range'_concat]
  congr 2
  omega

/-- What the loop of `sync_strategy` keeps, from `start`: the batches sent,
each of `SYNC_STEP` heights, and then the open batch are the heights passed
so far; `step_sum` is the room left in the open batch, which is empty only
before anything was sent. -/
structure LoopInv (origin start : Nat) (st : SyncLoop Body) : Prop where
  sent : ∃ full : List (List Nat), st.sent = full.map (Output.syncRequest · origin) ∧
    (∀ b ∈ full, b.length = syncStep) ∧ full.flatten ++ st.heights = List.range' start (st.startHeight - start)
  room : st.heights.length + st.stepSum = syncStep
  open_ne_nil : st.heights = [] → st.sent = []
  start_le : start ≤ st.startHeight

theorem loopInv_start (origin start : Nat) :
    LoopInv origin start (⟨start, syncStep, [], []⟩ : SyncLoop Body) :=
  ⟨⟨[], rfl, by simp, by simp⟩, rfl, fun _ => rfl, Nat.le_refl start⟩

/-- One iteration below `u64::MAX` keeps the loop invariant and moves on. -/
theorem LoopInv.body {origin start : Nat} {st : SyncLoop Body} (hinv : LoopInv origin start st)
    (hlt : st.startHeight < u64Max) :
    ∃ st', syncStrategyBody origin st = .ok st' ∧ st'.startHeight = st.startHeight + 1 ∧
      LoopInv origin start st' := by
  obtain ⟨⟨full, hsent, hfull, hflat⟩, hroom, -, hle⟩ := hinv
  have hadd : addU64 st.startHeight 1 = .ok (st.startHeight + 1) := addU64_of_le (by omega)
  have hrange := range'_succ_sub hle
  by_cases h0 : st.stepSum = 0
  -- the open batch is full: it is sent, and the height opens the next one
  · have hlen : st.heights.length = syncStep := by omega
    have hne : st.heights ≠ [] := by
      intro h
      simp [h, syncStep] at hlen
    refine ⟨⟨st.startHeight + 1, syncStep - 1, [st.startHeight], st.sent ++ sendSyncReq st.heights origin⟩,
      by simp [syncStrategyBody, h0, hadd], rfl, ⟨⟨full ++ [st.heights], ?_, ?_, ?_⟩, by simp [syncStep],
        by simp, Nat.le_succ_of_le hle⟩⟩
    · simp [hsent, sendSyncReq, hne]
    · intro b hb
      rcases List.mem_append.mp hb with hb | hb
      · exact hfull b hb
      · rw [List.mem_singleton.mp hb, hlen]
    · dsimp only
      rw [hrange, ← hflat]
      simp
  · refine ⟨⟨st.startHeight + 1, st.stepSum - 1, st.heights ++ [st.startHeight], st.sent⟩,
      by simp [syncStrategyBody, h0, hadd], rfl, ⟨⟨full, hsent, hfull, ?_⟩, ?_, by simp,
        Nat.le_succ_of_le hle⟩⟩
    · dsimp only
      rw [hrange, ← hflat, List.append_assoc]
    · simp only [List.length_append, List.length_singleton]
      omega

/-- **Run rule of the loop.** With `n` iterations left to `end_height`, below
`u64::MAX`, the loop runs them all and keeps its invariant. -/
theorem LoopInv.loop {endHeight origin start : Nat} (hend : endHeight < u64Max) (n : Nat) :
    ∀ st : SyncLoop Body, LoopInv origin start st → st.startHeight + n = endHeight + 1 →
      ∃ st', syncStrategyLoop endHeight origin n st = .ok st' ∧ LoopInv origin start st' ∧
        st'.startHeight = endHeight + 1 := by
  induction n with
  | zero => exact fun st hinv hn => ⟨st, rfl, hinv, hn⟩
  | succ n ih =>
    intro st hinv hn
    obtain ⟨st', hbody, hnext, hinv'⟩ := hinv.body (by omega)
    obtain ⟨st'', hloop, hinv'', hend''⟩ := ih st' hinv' (by omega)
    refine ⟨st'', ?_, hinv'', hend''⟩
    rw [syncStrategyLoop, if_pos (by omega), hbody, Outcome.ok_bind, hloop]

/-- `sync_strategy` from `start_height` to `end_height` below `u64::MAX` asks
`origin` for exactly the heights of `[start_height, end_height]`, in order,
`SYNC_STEP` at a time. -/
theorem syncStrategy_batches (s : Synchronizer Body) {startHeight endHeight : Nat} (origin : Nat)
    (hstart : s.currentStatus.height ≤ startHeight) (hle : startHeight ≤ endHeight)
    (hend : endHeight < u64Max) :
    ∃ batches, s.syncStrategy startHeight endHeight origin = .ok (batches.map (Output.syncRequest · origin)) ∧
      Batches syncStep (List.range' startHeight (endHeight + 1 - startHeight)) batches := by
  obtain ⟨st, hloop, ⟨⟨full, hsent, hfull, hflat⟩, hroom, hopen, -⟩, hst⟩ :=
    LoopInv.loop hend (endHeight + 1 - startHeight) _
      (loopInv_start origin startHeight : LoopInv origin startHeight (⟨startHeight, syncStep, [], []⟩ : SyncLoop Body))
      (by dsimp only; omega)
  rw [hst] at hflat
  -- the loop ran at least once, so the open batch holds a height
  have hne : st.heights ≠ [] := by
    intro hnil
    have hnil' : full = [] := by simpa [hsent] using hopen hnil
    have : List.range' startHeight (endHeight + 1 - startHeight) = [] := by simp [← hflat, hnil, hnil']
    simp only [List.range'_eq_nil_iff] at this
    omega
  refine ⟨full ++ [st.heights], ?_, ⟨?_, ?_, ?_, ?_⟩⟩
  · simp [syncStrategy, hstart, hle, hloop, hsent, sendSyncReq, hne]
  · simpa using hflat
  · intro b hb
    rcases List.mem_append.mp hb with hb | hb
    · intro hnil
      have := hfull b hb
      simp [hnil, syncStep] at this
    · rwa [List.mem_singleton.mp hb]
  · intro b hb
    rcases List.mem_append.mp hb with hb | hb
    · exact Nat.le_of_eq (hfull b hb)
    · rw [List.mem_singleton.mp hb]
      omega
  · rw [List.dropLast_concat]
    exact hfull

theorem syncStrategy_batches_new :
    ∃ batches, (new 0 : Synchronizer Unit).syncStrategy 1 450 7 =
        .ok (batches.map (Output.syncRequest · 7)) ∧
      Batches syncStep (List.range' 1 (450 + 1 - 1)) batches :=
  syncStrategy_batches (new 0) 7 (by decide) (by decide) (by decide)

theorem syncStrategyBody_of_max (origin : Nat) {st : SyncLoop Body} (h : st.startHeight = u64Max) :
    syncStrategyBody origin st = .panic "attempt to add with overflow" := by
  have hpanic : addU64 u64Max 1 = .panic "attempt to add with overflow" := addU64_of_lt (by omega)
  unfold syncStrategyBody
  split <;> simp [h, hpanic]

theorem syncStrategyBody_of_lt (origin : Nat) {st : SyncLoop Body} (h : st.startHeight < u64Max) :
    ∃ st', syncStrategyBody origin st = .ok st' ∧ st'.startHeight = st.startHeight + 1 := by
  have hadd : addU64 st.startHeight 1 = .ok (st.startHeight + 1) := addU64_of_le (by omega)
  unfold syncStrategyBody
  split <;> simp [hadd]

/-- The loop to `u64::MAX` reaches it and panics on the increment after. -/
theorem syncStrategyLoop_of_max (origin : Nat) (n : Nat) :
    ∀ st : SyncLoop Body, st.startHeight + n = u64Max + 1 → 0 < n →
      syncStrategyLoop u64Max origin n st = .panic "attempt to add with overflow" := by
  induction n with
  | zero => exact fun _ _ hn => absurd hn (Nat.lt_irrefl 0)
  | succ n ih =>
    intro st hn _
    rw [syncStrategyLoop, if_pos (by omega)]
    by_cases hmax : st.startHeight = u64Max
    · rw [syncStrategyBody_of_max origin hmax, Outcome.panic_bind]
    · obtain ⟨st', hbody, hnext⟩ := syncStrategyBody_of_lt origin (show st.startHeight < u64Max by omega)
      rw [hbody, Outcome.ok_bind]
      exact ih st' (by omega) (by omega)

/-- `sync_strategy` to `u64::MAX`, the height a peer may announce, panics
(a release build wraps and loops for ever). -/
theorem syncStrategy_of_max (s : Synchronizer Body) {startHeight : Nat} (origin : Nat)
    (hstart : s.currentStatus.height ≤ startHeight) (hle : startHeight ≤ u64Max) :
    s.syncStrategy startHeight u64Max origin = .panic "attempt to add with overflow" := by
  rw [syncStrategy, if_pos ⟨hstart, hle⟩,
    syncStrategyLoop_of_max origin _ _ (by dsimp only; omega) (by omega), Outcome.panic_bind]

/-! ## What every message keeps -/

@[simp] theorem broadcastStatus_currentStatus (s : Synchronizer Body) :
    s.broadcastStatus.currentStatus = s.currentStatus := rfl

@[simp] theorem broadcastStatus_latestStatusLists (s : Synchronizer Body) :
    s.broadcastStatus.latestStatusLists = s.latestStatusLists := rfl

@[simp] theorem broadcastStatus_syncEndHeight (s : Synchronizer Body) :
    s.broadcastStatus.syncEndHeight = s.syncEndHeight := rfl

@[simp] theorem broadcastStatus_blockLists (s : Synchronizer Body) :
    s.broadcastStatus.blockLists = s.blockLists := rfl

theorem pubBlocks_eq (s : Synchronizer Body) (blocks : List (Block Body)) :
    s.pubBlocks blocks = { s with outbox := s.outbox ++ if blocks.isEmpty then [] else [.syncResponse blocks] } := by
  unfold pubBlocks
  split <;> simp [*]

@[simp] theorem addLatestSyncLists_get? (s : Synchronizer Body) (height origin h : Nat) :
    (s.addLatestSyncLists height origin).latestStatusLists.get? h =
      if h = height then
        some (if origin ∈ (s.latestStatusLists.get? height).getD [] then (s.latestStatusLists.get? height).getD []
          else (s.latestStatusLists.get? height).getD [] ++ [origin])
      else s.latestStatusLists.get? h := by
  simp [addLatestSyncLists]

@[simp] theorem addLatestSyncLists_currentStatus (s : Synchronizer Body) (height origin : Nat) :
    (s.addLatestSyncLists height origin).currentStatus = s.currentStatus := rfl

@[simp] theorem addLatestSyncLists_globalStatus (s : Synchronizer Body) (height origin : Nat) :
    (s.addLatestSyncLists height origin).globalStatus = s.globalStatus := rfl

@[simp] theorem addLatestSyncLists_isSynchronizing (s : Synchronizer Body) (height origin : Nat) :
    (s.addLatestSyncLists height origin).isSynchronizing = s.isSynchronizing := rfl

@[simp] theorem addLatestSyncLists_remoteSyncTimeOut (s : Synchronizer Body) (height origin : Nat) :
    (s.addLatestSyncLists height origin).remoteSyncTimeOut = s.remoteSyncTimeOut := rfl

theorem raiseSyncEnd_ge (syncEndHeight : Nat) (blocks : List (Block Body)) :
    syncEndHeight ≤ raiseSyncEnd syncEndHeight blocks := by
  unfold raiseSyncEnd
  split
  · split
    · split <;> omega
    · exact Nat.le_refl _
  · exact Nat.le_refl _

/-- What every reachable state satisfies: the chain is never past
`sync_end_height` (the source's own comment on the field), every height a
node announced is above the chain, the nodes behind a height are listed
once each, and every cached block sits at its header's height. -/
structure Inv (s : Synchronizer Body) : Prop where
  current_le : s.currentStatus.height ≤ s.syncEndHeight
  status_above : ∀ h origins, s.latestStatusLists.get? h = some origins → s.currentStatus.height < h
  origins_nodup : ∀ h origins, s.latestStatusLists.get? h = some origins → origins ≠ [] ∧ origins.Nodup
  block_at : ∀ h b, s.blockLists.get? h = some b → b.headerHeight = h

/-- `s'` keeps the chain's status and the nodes' heights of `s`, has not
lowered `sync_end_height`, and caches no block `s` did not: what
`start_sync_req` and `submit_blocks` do to the state. -/
structure Follows (s s' : Synchronizer Body) : Prop where
  currentStatus_eq : s'.currentStatus = s.currentStatus
  latestStatusLists_eq : s'.latestStatusLists = s.latestStatusLists
  syncEndHeight_le : s.syncEndHeight ≤ s'.syncEndHeight
  blockLists_sub : ∀ h b, s'.blockLists.get? h = some b → s.blockLists.get? h = some b

theorem Follows.refl (s : Synchronizer Body) : Follows s s :=
  ⟨rfl, rfl, Nat.le_refl _, fun _ _ h => h⟩

theorem Inv.follows {s s' : Synchronizer Body} (hinv : Inv s) (hf : Follows s s') : Inv s' where
  current_le := hf.currentStatus_eq ▸ Nat.le_trans hinv.current_le hf.syncEndHeight_le
  status_above h o ho := hf.currentStatus_eq ▸ hinv.status_above h o (hf.latestStatusLists_eq ▸ ho)
  origins_nodup h o ho := hinv.origins_nodup h o (hf.latestStatusLists_eq ▸ ho)
  block_at h b hb := hinv.block_at h b (hf.blockLists_sub h b hb)

/-- `start_sync_req` only sends. -/
theorem startSyncReq_follows (s : Synchronizer Body) (choice startHeight endHeight : Nat) :
    OkThen (s.startSyncReq choice startHeight endHeight) (Follows s) := by
  unfold startSyncReq
  split
  · split
    · split
      · dsimp only
        split <;>
        · refine okThen_bind fun _ => okThen_bind fun sent => okThen_ok.mpr ?_
          exact ⟨rfl, rfl, Nat.le_refl _, fun _ _ h => h⟩
      · exact okThen_ok.mpr (Follows.refl s)
    · exact okThen_ok.mpr (Follows.refl s)
  · exact okThen_ok.mpr (Follows.refl s)

theorem follows_pubBlocks {s : Synchronizer Body} {syncEndHeight : Nat} {blockLists : SortedMap Nat (Block Body)}
    (hle : s.syncEndHeight ≤ syncEndHeight)
    (hsub : ∀ h b, blockLists.get? h = some b → s.blockLists.get? h = some b) (blocks : List (Block Body)) :
    Follows s ({ s with syncEndHeight := syncEndHeight, blockLists := blockLists }.pubBlocks blocks) := by
  rw [pubBlocks_eq]
  exact ⟨rfl, rfl, hle, hsub⟩

/-- `submit_blocks` raises `sync_end_height` and takes the block at
`u64::MAX` out of the cache. -/
theorem submitBlocks_follows (s : Synchronizer Body) : OkThen s.submitBlocks (Follows s) := by
  unfold submitBlocks
  refine okThen_bind fun height => okThen_bind fun endHeight => okThen_bind fun blocks => ?_
  dsimp only
  split
  · split
    · rename_i block rest hrem
      refine okThen_ok.mpr (follows_pubBlocks (raiseSyncEnd_ge _ _) (fun h b hb => ?_) _)
      have hrest : rest = (s.blockLists.remove u64Max).2 := by rw [hrem]
      rw [hrest, SortedMap.get?_remove_snd] at hb
      split at hb
      · cases hb
      · exact hb
    · exact okThen_panic
  · exact okThen_ok.mpr (follows_pubBlocks (raiseSyncEnd_ge _ _) (fun _ _ h => h) _)

/-- A state that differs from `s` only in what `Inv` does not read. -/
theorem Inv.update {s s' : Synchronizer Body} (hinv : Inv s) (h1 : s'.currentStatus = s.currentStatus)
    (h2 : s'.latestStatusLists = s.latestStatusLists) (h3 : s'.syncEndHeight = s.syncEndHeight)
    (h4 : s'.blockLists = s.blockLists) : Inv s' :=
  hinv.follows ⟨h1, h2, Nat.le_of_eq h3.symm, fun _ _ h => h4 ▸ h⟩

/-- A node's height above the chain joins the lists, its node once. -/
theorem Inv.addLatestSyncLists {s : Synchronizer Body} (hinv : Inv s) {height : Nat} (origin : Nat)
    (hh : s.currentStatus.height < height) : Inv (s.addLatestSyncLists height origin) where
  current_le := hinv.current_le
  status_above h o ho := by
    rw [addLatestSyncLists_get?] at ho
    split at ho
    · rename_i heq
      rw [heq]
      exact hh
    · exact hinv.status_above h o ho
  origins_nodup h o ho := by
    rw [addLatestSyncLists_get?] at ho
    split at ho
    · cases ho
      cases hget : s.latestStatusLists.get? height with
      | none => simp
      | some os =>
        obtain ⟨hne, hnd⟩ := hinv.origins_nodup _ _ hget
        by_cases hmem : origin ∈ os
        · simpa [hmem] using ⟨hne, hnd⟩
        · simp only [Option.getD_some, hmem, if_false]
          refine ⟨by simp, List.nodup_append.mpr ⟨hnd, List.nodup_singleton origin, ?_⟩⟩
          rintro a ha b hb rfl
          rw [List.mem_singleton.mp hb] at ha
          exact hmem ha
    · exact hinv.origins_nodup h o ho
  block_at := hinv.block_at

theorem startSyncReq_inv {s : Synchronizer Body} (hinv : Inv s) (choice startHeight endHeight : Nat) :
    OkThen (s.startSyncReq choice startHeight endHeight) Inv :=
  (startSyncReq_follows s choice startHeight endHeight).mono fun _ => hinv.follows

/-- `update_global_status` keeps the invariant: a node's height joins the
lists only above the chain. -/
theorem updateGlobalStatus_inv {s : Synchronizer Body} (hinv : Inv s) (now choice : Nat) (status : Status)
    (origin : Nat) : OkThen (s.updateGlobalStatus now choice status origin) Inv := by
  unfold updateGlobalStatus
  -- the new global status is nothing the invariant reads
  have hinv0 : Inv (if s.globalStatus.height < status.height then { s with globalStatus := status } else s) := by
    split
    · exact hinv.update rfl rfl rfl rfl
    · exact hinv
  have hcur : (if s.globalStatus.height < status.height then { s with globalStatus := status } else s).currentStatus =
      s.currentStatus := by
    split <;> rfl
  generalize (if s.globalStatus.height < status.height then { s with globalStatus := status } else s) = s0 at hinv0 hcur
  have hheight : s0.currentStatus.height = s.currentStatus.height := by rw [hcur]
  refine okThen_bind_of (Q := fun next => next = s.currentStatus.height + 1)
    (fun n h => (addU64_eq_ok.mp h).2.symm) fun next hnext => ?_
  dsimp only
  have hend : ∀ t : Synchronizer Body, Inv t → OkThen (pure { t with isSynchronizing := true } : Outcome Empty _) Inv :=
    fun t ht => okThen_ok.mpr (ht.update rfl rfl rfl rfl : Inv { t with isSynchronizing := true })
  split
  · exact okThen_ok.mpr (hinv0.update rfl rfl rfl rfl)
  · have hadd : s0.currentStatus.height < status.height → Inv (s0.addLatestSyncLists status.height origin) :=
      hinv0.addLatestSyncLists origin
    split
    -- the node is one block ahead
    · have hinv1 := hadd (by omega)
      split
      · exact startSyncReq_inv hinv1 _ _ _
      · split
        · split
          · refine okThen_bind_of (startSyncReq_inv ?_ _ _ _) hend
            exact hinv1.update rfl rfl rfl rfl
          · exact okThen_ok.mpr hinv1
        · exact okThen_ok.mpr (hinv1.update rfl rfl rfl rfl)
    -- the node is further ahead
    · have hinv1 := hadd (by omega)
      split
      · refine okThen_bind_of (startSyncReq_inv ?_ _ _ _) hend
        exact hinv1.update rfl rfl rfl rfl
      · split
        · exact okThen_bind_of (startSyncReq_inv hinv1 _ _ _) hend
        · exact okThen_bind_of (okThen_ok.mpr hinv1) hend

theorem get?_foldl_insert (m : SortedMap Nat (Block Body)) (blocks : List (Block Body)) {h : Nat}
    {b : Block Body} (hb : (blocks.foldl (fun m (b : Block Body) => m.insert b.headerHeight b) m).get? h = some b) :
    b.headerHeight = h ∨ m.get? h = some b := by
  induction blocks generalizing m with
  | nil => exact .inr hb
  | cons b' blocks ih =>
    rcases ih _ hb with hh | hm
    · exact .inl hh
    · rw [SortedMap.get?_insert] at hm
      split at hm
      · rename_i heq
        cases hm
        exact .inl heq.symm
      · exact .inr hm

/-- `process_sync` keeps the invariant: a block is cached at its header's
height. -/
theorem processSync_inv {s : Synchronizer Body} (hinv : Inv s) (blocks : List (Block Body)) :
    OkThen (s.processSync blocks) Inv := by
  refine (submitBlocks_follows _).mono fun _ => Inv.follows ?_
  refine ⟨hinv.current_le, hinv.status_above, hinv.origins_nodup, fun h b hb => ?_⟩
  rcases get?_foldl_insert s.blockLists blocks hb with hh | hm
  · exact hh
  · exact hinv.block_at h b hm

/-- A state whose lists and cache are those of `s` above its chain's height
satisfies the invariant once its chain is not past `sync_end_height`. -/
theorem Inv.of_splitOff {s t : Synchronizer Body} (hinv : Inv s)
    (hcur : t.currentStatus.height ≤ t.syncEndHeight)
    (hlists : t.latestStatusLists = s.latestStatusLists.splitOff (t.currentStatus.height + 1))
    (hblocks : t.blockLists = s.blockLists.splitOff (t.currentStatus.height + 1)) : Inv t where
  current_le := hcur
  status_above h o ho := by
    rw [hlists, SortedMap.get?_splitOff] at ho
    split at ho
    · omega
    · cases ho
  origins_nodup h o ho := by
    rw [hlists, SortedMap.get?_splitOff] at ho
    split at ho
    · exact hinv.origins_nodup h o ho
    · cases ho
  block_at h b hb := by
    rw [hblocks, SortedMap.get?_splitOff] at hb
    split at hb
    · exact hinv.block_at h b hb
    · cases hb

/-- `update_current_status` keeps the invariant: the lists and the cache
keep only what is above the new height, and in each of the three cases the
chain is not past `sync_end_height`: it went back below it, it is within
it, or `sync_end_height` is moved up to it. -/
theorem updateCurrentStatus_inv {s : Synchronizer Body} (hinv : Inv s) (now choice : Nat)
    (latestStatus : Status) : OkThen (s.updateCurrentStatus now choice latestStatus) Inv := by
  unfold updateCurrentStatus
  refine okThen_bind_of (Q := fun next => next = latestStatus.height + 1)
    (fun n h => (addU64_eq_ok.mp h).2.symm) fun next hnext => ?_
  subst hnext
  dsimp only [broadcastStatus, pruneBlockListCache]
  generalize (if latestStatus.height = s.currentStatus.height ∧ s.localSyncCount < 255 then
    s.localSyncCount + 1 else 0) = count
  by_cases hback : latestStatus.height < s.currentStatus.height
  -- the chain went back, below `sync_end_height`
  · have hcur : latestStatus.height ≤ s.syncEndHeight := Nat.le_trans (Nat.le_of_lt hback) hinv.current_le
    rw [if_pos hback]
    refine okThen_ite (fun _ => ?_) (fun _ => ?_)
    · refine (submitBlocks_follows _).mono fun _ => Inv.follows ?_
      exact Inv.of_splitOff hinv hcur rfl rfl
    · refine startSyncReq_inv ?_ _ _ _
      exact Inv.of_splitOff hinv hcur rfl rfl
  · rw [if_neg hback]
    by_cases hwithin : latestStatus.height ≤ s.syncEndHeight
    -- the chain is within what was synchronized
    · rw [if_pos hwithin]
      have hend : ∀ t : Synchronizer Body, Inv t →
          OkThen (pure { t with remoteSyncTimeOut := now, isSynchronizing := true } : Outcome Empty _) Inv :=
        fun t ht => okThen_ok.mpr (ht.update rfl rfl rfl rfl :
          Inv { t with remoteSyncTimeOut := now, isSynchronizing := true })
      refine okThen_ite (fun _ => ?_) (fun _ => ?_)
      · refine okThen_ite (fun _ => ?_) (fun _ => ?_)
        · refine okThen_bind_of (submitBlocks_follows _) fun t ht => okThen_ok.mpr ?_
          have hinv1 := (Inv.of_splitOff hinv hwithin rfl rfl).follows ht
          exact ⟨hinv1.current_le, hinv1.status_above, hinv1.origins_nodup, fun _ _ h => by simp at h⟩
        · refine okThen_ok.mpr ?_
          exact Inv.of_splitOff hinv hwithin rfl rfl
      · refine okThen_bind_of (startSyncReq_inv ?_ _ _ _) hend
        exact Inv.of_splitOff hinv hwithin rfl rfl
    -- the chain is past it, and `sync_end_height` follows
    · rw [if_neg hwithin]
      refine okThen_ok.mpr (Inv.of_splitOff hinv ?_ ?_ ?_)
      · exact Nat.le_refl _
      · rfl
      · rfl

theorem inv_new (now : Nat) : Inv (new now : Synchronizer Body) where
  current_le := Nat.le_refl 0
  status_above _ _ h := by simp [new] at h
  origins_nodup _ _ h := by simp [new] at h
  block_at _ _ h := by simp [new] at h

theorem receive_inv {s : Synchronizer Body} (hinv : Inv s) (now choice : Nat) (msg : Message Body) :
    OkThen (s.receive now choice msg) Inv := by
  cases msg with
  | chainStatus status => exact updateCurrentStatus_inv hinv now choice status
  | syncStatus status origin => exact updateGlobalStatus_inv hinv now choice status origin
  | syncResponse blocks => exact processSync_inv hinv blocks

/-- **Run rule.** Every message keeps the invariant, so a run does. -/
theorem run_inv (msgs : List (Nat × Nat × Message Body)) :
    ∀ s : Synchronizer Body, Inv s → OkThen (s.run msgs) Inv := by
  induction msgs with
  | nil => exact fun s hinv => okThen_ok.mpr hinv
  | cons event rest ih =>
    intro s hinv
    obtain ⟨now, choice, msg⟩ := event
    exact okThen_bind_of (receive_inv hinv now choice msg) ih

/-- Over any run from `Synchronizer::new`, whatever the messages, their
order, times and random numbers: the chain is never past
`sync_end_height`, every height a node announced is above the chain, each
height's nodes are listed once each, and every cached block sits at its
header's height. -/
theorem run_new_inv (now : Nat) (msgs : List (Nat × Nat × Message Body)) {s : Synchronizer Body}
    (h : (new now).run msgs = .ok s) : Inv s :=
  run_inv msgs _ (inv_new now) s h

theorem run_new_inv_sample :
    ∃ s, (new 100 : Synchronizer Unit).run
        [(100, 0, .syncStatus ⟨[], 3⟩ 7), (101, 0, .syncResponse [⟨some ⟨1⟩, ()⟩, ⟨some ⟨2⟩, ()⟩]),
          (102, 0, .chainStatus ⟨[], 2⟩)] = .ok s ∧ s.Inv :=
  ⟨_, rfl, run_new_inv 100 [(100, 0, .syncStatus ⟨[], 3⟩ 7),
    (101, 0, .syncResponse [⟨some ⟨1⟩, ()⟩, ⟨some ⟨2⟩, ()⟩]), (102, 0, .chainStatus ⟨[], 2⟩)] rfl⟩

/-! ## `submit_blocks` hands on the blocks that follow the chain -/

/-- The loop of `submit_blocks` below `u64::MAX`, with `n` iterations left
to `end_height`: it gathers the blocks from `height` on as far as they run
without a gap, and stops at a gap or after `n` of them. -/
theorem collectBlocks_spec (m : SortedMap Nat (Block Body)) {endHeight : Nat} (hend : endHeight < u64Max)
    (n : Nat) : ∀ height acc, height + n = endHeight + 1 →
      ∃ more, collectBlocks m endHeight n height acc = .ok (acc ++ more) ∧ more.length ≤ n ∧
        (∀ i (hi : i < more.length), m.get? (height + i) = some more[i]) ∧
        (more.length < n → m.get? (height + more.length) = none) := by
  induction n with
  | zero => exact fun _ acc _ => ⟨[], by simp [collectBlocks], Nat.le_refl 0, by simp, by simp⟩
  | succ n ih =>
    intro height acc hn
    rw [collectBlocks, if_pos (by omega)]
    cases hget : m.get? height with
    | none => exact ⟨[], by simp, Nat.zero_le _, by simp, fun _ => hget⟩
    | some b =>
      obtain ⟨more, hloop, hlen, hat, hgap⟩ := ih (height + 1) (acc ++ [b]) (by omega)
      refine ⟨b :: more, ?_, by simpa using hlen, fun i hi => ?_, fun hlt => ?_⟩
      · simp [addU64_of_le (show height + 1 ≤ u64Max by omega), hloop]
      · cases i with
        | zero => simpa using hget
        | succ i =>
          rw [show height + (i + 1) = height + 1 + i by omega]
          exact hat i (by simpa using hi)
      · rw [List.length_cons, show height + (more.length + 1) = height + 1 + more.length by omega]
        exact hgap (by simpa using hlt)

/-- The last block of a gapless run from one past `c`, sitting at its own
height, raises `sync_end_height` to its height. -/
theorem raiseSyncEnd_of_run {m : SortedMap Nat (Block Body)}
    (hat : ∀ h b, m.get? h = some b → b.headerHeight = h) {c : Nat} {blocks : List (Block Body)}
    (hrun : ∀ i (hi : i < blocks.length), m.get? (c + 1 + i) = some blocks[i]) {syncEndHeight : Nat}
    (hc : c ≤ syncEndHeight) : raiseSyncEnd syncEndHeight blocks = max syncEndHeight (c + blocks.length) := by
  cases hb : blocks.getLast? with
  | none =>
    rw [List.getLast?_eq_none_iff] at hb
    subst hb
    simp [raiseSyncEnd, hc]
  | some last =>
    obtain ⟨hpos, hlast⟩ : 0 < blocks.length ∧ blocks[blocks.length - 1]? = some last := by
      rw [List.getLast?_eq_getElem?] at hb
      exact ⟨by cases blocks <;> simp_all, hb⟩
    have hidx : blocks[blocks.length - 1] = last := by
      rw [List.getElem?_eq_getElem (by omega)] at hlast
      exact Option.some.inj hlast
    -- the last block sits at `c + blocks.length`, so its header says so
    have hheight : last.headerHeight = c + blocks.length := by
      rw [hat _ last (hidx ▸ hrun (blocks.length - 1) (by omega))]
      omega
    obtain ⟨header, hheader⟩ : ∃ header, last.header = some header := by
      cases h : last.header with
      | none => simp [Block.headerHeight, h] at hheight; omega
      | some header => exact ⟨header, rfl⟩
    simp only [Block.headerHeight, hheader, Option.map_some, Option.getD_some] at hheight
    simp only [raiseSyncEnd, hb, hheader, hheight]
    split <;> omega

/-- `submit_blocks` from a reachable state, with the chain below
`u64::MAX - SYNC_STEP - 1`: it publishes, in order, the cached blocks at
one past the chain's height and on, as far as they run without a gap and
at most `SYNC_STEP + 1` of them, followed by the proof-only block at
`u64::MAX` if there is one, which alone leaves the cache; and it raises
`sync_end_height` to the last height of the run. -/
theorem submitBlocks_spec {s : Synchronizer Body} (hinv : Inv s)
    (hc : s.currentStatus.height + syncStep + 1 < u64Max) :
    ∃ blocks : List (Block Body), ∃ blockLists : SortedMap Nat (Block Body),
      blocks.length ≤ syncStep + 1 ∧
      (∀ i (hi : i < blocks.length), s.blockLists.get? (s.currentStatus.height + 1 + i) = some blocks[i]) ∧
      (blocks.length ≤ syncStep → s.blockLists.get? (s.currentStatus.height + 1 + blocks.length) = none) ∧
      (∀ h, blockLists.get? h = if h = u64Max then none else s.blockLists.get? h) ∧
      s.submitBlocks = .ok ({ s with
        syncEndHeight := max s.syncEndHeight (s.currentStatus.height + blocks.length)
        blockLists := blockLists }.pubBlocks (blocks ++ (s.blockLists.get? u64Max).toList)) := by
  obtain ⟨blocks, hcollect, hlen, hrun, hgap⟩ := collectBlocks_spec s.blockLists
    (show s.currentStatus.height + 1 + syncStep < u64Max by omega) (syncStep + 1)
    (s.currentStatus.height + 1) [] (by omega)
  rw [List.nil_append] at hcollect
  have hraise := raiseSyncEnd_of_run hinv.block_at hrun hinv.current_le
  have hadd1 := addU64_of_le (show s.currentStatus.height + 1 ≤ u64Max by omega)
  have hadd2 := addU64_of_le (show s.currentStatus.height + 1 + syncStep ≤ u64Max by omega)
  by_cases hmax : s.blockLists.containsKey u64Max = true
  · obtain ⟨b, hb⟩ : ∃ b, s.blockLists.get? u64Max = some b := Option.isSome_iff_exists.mp hmax
    refine ⟨blocks, (s.blockLists.remove u64Max).2, hlen, hrun, fun h => hgap (by omega),
      fun h => SortedMap.get?_remove_snd _ _ _, ?_⟩
    have hrem : s.blockLists.remove u64Max = (some b, (s.blockLists.remove u64Max).2) := by
      rw [Prod.ext_iff, SortedMap.remove_fst]
      exact ⟨hb, rfl⟩
    simp only [submitBlocks, hadd1, hadd2, Outcome.ok_bind, hcollect, hraise, hmax, if_true]
    rw [hrem]
    simp only [hb, Option.toList_some, Outcome.pure_eq, Outcome.ok_bind]
  · have hnone : s.blockLists.get? u64Max = none := by
      simpa using hmax
    refine ⟨blocks, s.blockLists, hlen, hrun, fun h => hgap (by omega), fun h => ?_, ?_⟩
    · split
      · rename_i heq
        rw [heq, hnone]
      · rfl
    · simp only [submitBlocks, hadd1, hadd2, Outcome.ok_bind, hcollect, hraise, hmax, Bool.false_eq_true,
        if_false, hnone, Option.toList_none, List.append_nil, Outcome.pure_eq]

/-- A cache holding blocks 1 and 2 and the proof-only block. -/
def cachedTwo : Synchronizer Unit :=
  { (new 0 : Synchronizer Unit) with
    blockLists := ((SortedMap.empty.insert 1 ⟨some ⟨1⟩, ()⟩).insert 2 ⟨some ⟨2⟩, ()⟩).insert u64Max
      ⟨some ⟨u64Max⟩, ()⟩ }

theorem submitBlocks_spec_cachedTwo :
    ∃ blocks : List (Block Unit), ∃ blockLists : SortedMap Nat (Block Unit),
      blocks.length ≤ syncStep + 1 ∧
      (∀ i (hi : i < blocks.length), cachedTwo.blockLists.get? (cachedTwo.currentStatus.height + 1 + i) =
        some blocks[i]) ∧
      (blocks.length ≤ syncStep → cachedTwo.blockLists.get? (cachedTwo.currentStatus.height + 1 + blocks.length) =
        none) ∧
      (∀ h, blockLists.get? h = if h = u64Max then none else cachedTwo.blockLists.get? h) ∧
      cachedTwo.submitBlocks = .ok ({ cachedTwo with
        syncEndHeight := max cachedTwo.syncEndHeight (cachedTwo.currentStatus.height + blocks.length)
        blockLists := blockLists }.pubBlocks (blocks ++ (cachedTwo.blockLists.get? u64Max).toList)) :=
  submitBlocks_spec ⟨Nat.le_refl 0, fun _ _ h => by simp [cachedTwo, new] at h,
    fun _ _ h => by simp [cachedTwo, new] at h,
    fun h b hb => by
      simp only [cachedTwo, SortedMap.get?_insert, SortedMap.get?_empty] at hb
      split at hb
      · cases hb
        rename_i heq
        exact heq.symm
      · split at hb
        · cases hb
          rename_i heq
          exact heq.symm
        · split at hb
          · cases hb
            rename_i heq
            exact heq.symm
          · cases hb⟩
    (by decide)

/-! ## A node announcing `u64::MAX` -/

theorem rfind_of_max {t : Synchronizer Body} {origins : List Nat}
    (hget : t.latestStatusLists.get? u64Max = some origins) (hne : origins ≠ [])
    (hbound : ∀ h o, t.latestStatusLists.get? h = some o → h ≤ u64Max) :
    t.latestStatusLists.rfind (fun origins => decide (origins.length > 0)) = some (u64Max, origins) :=
  SortedMap.rfind_eq_some_iff.mpr ⟨hget, by simpa [List.length_pos_iff] using hne,
    fun h o ho _ => hbound h o ho⟩

/-- Asked to sync to `u64::MAX` when a node announced it, `start_sync_req`
panics in `sync_strategy`. -/
theorem startSyncReq_of_max {t : Synchronizer Body} {origins : List Nat}
    (hget : t.latestStatusLists.get? u64Max = some origins) (hne : origins ≠ [])
    (hbound : ∀ h o, t.latestStatusLists.get? h = some o → h ≤ u64Max)
    (hcur : t.currentStatus.height < u64Max) {startHeight : Nat} (hstart : t.currentStatus.height ≤ startHeight)
    (hle : startHeight ≤ u64Max) (choice : Nat) :
    t.startSyncReq choice startHeight u64Max = .panic "attempt to add with overflow" := by
  have hmax : u64Max ≠ 0 := by decide
  rw [startSyncReq, rfind_of_max hget hne hbound]
  simp only [hget, gt_iff_lt, hcur, if_true, hmax, if_false, Outcome.pure_eq, Outcome.ok_bind,
    syncStrategy_of_max t _ hstart hle, Outcome.panic_bind]

/-- A node that announces the height `u64::MAX` makes `update_global_status`
panic, whatever the time and the state, as long as no node announced it
before and the chain is below it: the request runs to `u64::MAX` and counts
past it. (A release build wraps and loops for ever.) -/
theorem updateGlobalStatus_max_panics {s : Synchronizer Body}
    (hbound : ∀ h o, s.latestStatusLists.get? h = some o → h ≤ u64Max)
    (hglobal : s.globalStatus.height < u64Max) (hcur : s.currentStatus.height + 1 < u64Max)
    (now choice : Nat) (hash : Bytes) (origin : Nat) :
    s.updateGlobalStatus now choice ⟨hash, u64Max⟩ origin = .panic "attempt to add with overflow" := by
  have hbound' : ∀ h o, (s.addLatestSyncLists u64Max origin).latestStatusLists.get? h = some o → h ≤ u64Max := by
    intro h o ho
    rw [addLatestSyncLists_get?] at ho
    split at ho
    · omega
    · exact hbound h o ho
  obtain ⟨origins, hget, hne⟩ : ∃ origins, (s.addLatestSyncLists u64Max origin).latestStatusLists.get? u64Max =
      some origins ∧ origins ≠ [] := by
    refine ⟨_, by rw [addLatestSyncLists_get?, if_pos rfl], ?_⟩
    split
    · rename_i hmem
      exact List.ne_nil_of_mem hmem
    · simp
  have hadd : addU64 s.currentStatus.height 1 = .ok (s.currentStatus.height + 1) := addU64_of_le (by omega)
  simp only [updateGlobalStatus, hglobal, if_true, hadd, Outcome.ok_bind, addLatestSyncLists_globalStatus,
    addLatestSyncLists_isSynchronizing, addLatestSyncLists_remoteSyncTimeOut]
  rw [if_neg (show ¬u64Max < s.currentStatus.height + 1 by omega),
    if_neg (show ¬u64Max = s.currentStatus.height + 1 by omega)]
  by_cases hready : now - s.remoteSyncTimeOut > syncTimeOut ∨ (!s.isSynchronizing) = true
  -- a request from one past the chain to the node's height
  · rw [if_pos hready, startSyncReq_of_max ?_ hne ?_ ?_ ?_ ?_ choice, Outcome.panic_bind]
    · exact hget
    · exact hbound'
    · exact Nat.lt_of_succ_lt hcur
    · exact Nat.le_succ _
    · exact Nat.le_of_lt hcur
  -- the global height rose while synchronizing: a request for the node's height alone
  · have hsync : s.isSynchronizing = true := by
      simp only [gt_iff_lt, Bool.not_eq_true', not_or, Bool.not_eq_false] at hready
      exact hready.2
    rw [if_neg hready, if_pos ⟨trivial, hsync⟩, startSyncReq_of_max ?_ hne ?_ ?_ ?_ ?_ choice,
      Outcome.panic_bind]
    · exact hget
    · exact hbound'
    · exact Nat.lt_of_succ_lt hcur
    · exact Nat.le_of_lt (Nat.lt_of_succ_lt hcur)
    · exact Nat.le_refl _

theorem updateGlobalStatus_max_panics_new :
    (new 0 : Synchronizer Unit).updateGlobalStatus 5 0 ⟨[], u64Max⟩ 3 =
      .panic "attempt to add with overflow" :=
  updateGlobalStatus_max_panics (fun _ _ h => by simp [new] at h) (by decide) (by decide) 5 0 [] 3

end Synchronizer

end Network
end Cita
