import Cita.Auth.Quota
import Cita.Lib.Outcome

/-!
# Block verification and the history window of `cita-auth` (`handler.rs`)

`MsgHandler` keeps the heights of the last `BLOCKLIMIT` blocks
(`HistoryHeights`) and the transaction hashes of each
(`history_hashes`), which `deal_block_tx_hashes` fills as the chain
reports its blocks. A block proposal (`VerifyBlockReq`) for the next height
is accepted by `process_block_verify` when every request names its signer,
every signature checks (from the signature cache or afresh), every request
passes `verify_tx_req` (chain id, nonce and value sizes, a
`valid_until_block` within `[next_height, next_height + BLOCKLIMIT)`, a
hash absent from `history_hashes`, its quota), and the block passes
`verify_block_quota`.

`verify_tx_req` compares a request with the blocks before, never with the
other requests of the same proposal: a proposal that holds one transaction
twice is accepted (`processBlockVerify_accepts_duplicate`).

The signature check (`verify_tx_sig`) and `pubkey_to_address` are the
parameters `AuthEnv`; the signature cache is unbounded, and `while_some`
over the parallel verification stops at the first failure.
-/

namespace Cita

namespace Auth

/-- `util::BLOCKLIMIT`: how many heights a transaction can stay valid. -/
def blockLimit : Nat := 100

/-- `HistoryHeights`, without the time of the last request it sent. -/
structure HistoryHeights where
  heights : Nat → Bool
  maxHeight : Nat
  minHeight : Nat
  isInit : Bool

namespace HistoryHeights

/-- `HistoryHeights::new()`. -/
def new : HistoryHeights := ⟨fun _ => false, 0, 0, false⟩

/-- `next_height`. -/
def nextHeight (h : HistoryHeights) : Nat := h.maxHeight + 1

/-- Every height in `[lo, hi)` is known. -/
def allKnown (heights : Nat → Bool) (lo hi : Nat) : Bool :=
  (List.range' lo (hi - lo)).all heights

/-- `update_height`: a height below the window is ignored; a new maximum
moves the window, forgetting the heights that fall out of it. -/
def updateHeight (h : HistoryHeights) (height : Nat) : HistoryHeights :=
  if height < h.minHeight then h
  else
    let h := if height > h.maxHeight then
        let oldMinHeight := h.minHeight
        let minHeight := if height > blockLimit then height - blockLimit + 1 else 0
        -- `insert(height)`, then `remove(i)` for `i` in `old_min_height..min_height`
        let heights := fun i =>
          if oldMinHeight ≤ i ∧ i < minHeight then false else i == height || h.heights i
        { h with maxHeight := height, minHeight := minHeight, heights := heights }
      else { h with heights := fun i => i == height || h.heights i }
    { h with isInit := allKnown h.heights h.minHeight h.maxHeight }

end HistoryHeights

/-- `Ret`, the results the verification publishes. -/
inductive Ret where
  | ok
  | badSig
  | dup
  | invalidUntilBlock
  | badChainId
  | invalidNonce
  | invalidValue
  | quotaNotEnough
deriving Repr, DecidableEq

/-- The fields of `VerifyTxReq` the handler reads, with the transaction hash
as the `H256` it is read into; the signature fields are read by
`verify_tx_sig` only. -/
structure VerifyTxReq (H : Type) where
  txHash : H
  signer : List UInt8
  chainId : Nat
  nonce : String
  value : List UInt8
  validUntilBlock : Nat
  quota : Nat

/-- `VerifyBlockReq`: the request id, whose upper bits are the height. -/
structure VerifyBlockReq (H : Type) where
  id : Nat
  reqs : List (VerifyTxReq H)

/-- `BlockTxHashes`: a block's height and hashes, with the quota settings. -/
structure BlockTxHashes (A H : Type) where
  height : Nat
  txHashes : List H
  blockGasLimit : Nat
  commonGasLimit : Nat
  specificGasLimit : A → Option Nat
  checkQuota : Bool

/-- What the handler calls and this model does not describe: the signature
check, which recovers the signer's key, and `pubkey_to_address`. -/
structure AuthEnv (A H : Type) where
  verifyTxSig : VerifyTxReq H → Except Unit (List UInt8)
  pubkeyToAddress : List UInt8 → A

/-- The fields of `MsgHandler` that block verification reads and writes;
`history_hashes` is iterated, so it is a list of its entries, and the
transaction pool is the list of its hashes. -/
structure Handler (A H : Type) where
  cache : H → Option (Option (List UInt8))
  chainId : Option Nat
  historyHeights : HistoryHeights
  cacheBlockReq : Option (VerifyBlockReq H)
  historyHashes : List (Nat × List H)
  quota : QuotaConfig A
  isSnapshot : Bool
  pool : List H
  isNeedProposalNewBlock : Bool

namespace Handler

variable {A H : Type} [DecidableEq A] [DecidableEq H]

/-- `MsgHandler::new`: an empty cache and history, no chain id, and the
default quota settings (`AccountGasLimit::new()`, no quota check). -/
def new : Handler A H :=
  ⟨fun _ => none, none, HistoryHeights.new, none, [], ⟨0, 0, fun _ => none, false⟩, false, [], false⟩

/-- `is_ready`. -/
def isReady (h : Handler A H) : Bool :=
  h.historyHeights.isInit && h.chainId.isSome && !h.isSnapshot

/-- `save_ret_to_cache`. -/
def saveRetToCache (h : Handler A H) (txHash : H) (optionPubkey : Option (List UInt8)) :
    Handler A H :=
  { h with cache := Function.update h.cache txHash (some optionPubkey) }

/-- `update_cache_block_req`: the cache keeps the latest request that is
not behind the next height. -/
def updateCacheBlockReq (h : Handler A H) (blkReq : VerifyBlockReq H) : Handler A H :=
  let newRequestId := blkReq.id
  let nextRequestId := h.historyHeights.nextHeight <<< 16
  match h.cacheBlockReq with
  | some cacheReq =>
      if newRequestId > cacheReq.id ∧ newRequestId ≥ nextRequestId then
        { h with cacheBlockReq := some blkReq }
      else if nextRequestId > cacheReq.id then { h with cacheBlockReq := none }
      else h
  | none =>
      if newRequestId > nextRequestId then { h with cacheBlockReq := some blkReq } else h

/-- `verify_tx_req`; `self.chain_id.unwrap()` is reached only when the
handler is ready. -/
def verifyTxReq (env : AuthEnv A H) (h : Handler A H) (req : VerifyTxReq H) : Outcome Empty Ret := do
  let chainId ← Outcome.expect h.chainId "called `Option::unwrap()` on a `None` value"
  if req.chainId ≠ chainId then return .badChainId
  if req.nonce.utf8ByteSize > 128 then return .invalidNonce
  if req.value.length > 32 then return .invalidValue
  let nextHeight := h.historyHeights.nextHeight
  if req.validUntilBlock < nextHeight ∨ req.validUntilBlock ≥ nextHeight + blockLimit then
    return .invalidUntilBlock
  if h.historyHashes.any (fun p => p.2.contains req.txHash) then return .dup
  if !verifyTxQuota h.quota req.quota (env.pubkeyToAddress req.signer) then
    return .quotaNotEnough
  return .ok

omit [DecidableEq A] in
/-- `verify_tx_req` accepts a request exactly when it is on the chain, its
nonce and value fit, its `valid_until_block` is in the window, its hash is
in no block of the history and its quota fits. -/
theorem verifyTxReq_eq_ok_iff (env : AuthEnv A H) (h : Handler A H) (req : VerifyTxReq H) :
    h.verifyTxReq env req = .ok .ok ↔
      h.chainId = some req.chainId ∧ req.nonce.utf8ByteSize ≤ 128 ∧ req.value.length ≤ 32 ∧
      h.historyHeights.nextHeight ≤ req.validUntilBlock ∧
      req.validUntilBlock < h.historyHeights.nextHeight + blockLimit ∧
      (∀ p ∈ h.historyHashes, req.txHash ∉ p.2) ∧
      verifyTxQuota h.quota req.quota (env.pubkeyToAddress req.signer) = true := by
  unfold verifyTxReq
  cases hc : h.chainId with
  | none => simp [Outcome.expect]
  | some c =>
    simp only [Outcome.expect, Option.some.injEq]
    by_cases hid : req.chainId = c
    · subst hid
      -- each later check of the request returns its own `Ret`
      split_ifs <;> simp_all [List.any_eq_true] <;> intros <;> first | omega | grind
    · simp [hid, Ne.symm hid]

/-- The requests whose signature is not in the cache, or `none` when a
cached result is bad or names another signer. -/
def uncached (h : Handler A H) : List (VerifyTxReq H) → Option (List (VerifyTxReq H))
  | [] => some []
  | req :: reqs =>
      match h.cache req.txHash with
      | some (some pubkey) => if req.signer ≠ pubkey then none else h.uncached reqs
      | some none => none
      | none => (h.uncached reqs).map (req :: ·)

omit [DecidableEq A] in
/-- Saving signatures changes only the signature cache. -/
theorem foldl_saveRetToCache (h : Handler A H) (results : List (H × List UInt8)) :
    ∃ cache, results.foldl (fun h r => h.saveRetToCache r.1 (some r.2)) h = { h with cache := cache } := by
  induction results generalizing h with
  | nil => exact ⟨h.cache, rfl⟩
  | cons r results ih =>
      obtain ⟨cache, hc⟩ := ih (h.saveRetToCache r.1 (some r.2))
      exact ⟨cache, hc⟩

/-- The verification of the uncached requests, up to the first that fails
(`while_some`): each verified hash with its key. -/
def verifySignatures (env : AuthEnv A H) : List (VerifyTxReq H) → List (H × List UInt8)
  | [] => []
  | req :: reqs =>
      match env.verifyTxSig req with
      | .ok pubkey =>
          if req.signer ≠ pubkey then [] else (req.txHash, pubkey) :: verifySignatures env reqs
      | .error _ => []

/-- The first result of `verify_tx_req` over the requests that is not `Ok`. -/
def firstFailure (env : AuthEnv A H) (h : Handler A H) :
    List (VerifyTxReq H) → Outcome Empty (Option Ret)
  | [] => pure none
  | req :: reqs => do
      let ret ← h.verifyTxReq env req
      if ret ≠ .ok then pure (some ret) else h.firstFailure env reqs

omit [DecidableEq A] in
/-- `firstFailure` finds nothing exactly when every request is `Ok`. -/
theorem firstFailure_eq_none (env : AuthEnv A H) (h : Handler A H) (reqs : List (VerifyTxReq H)) :
    h.firstFailure env reqs = .ok none ↔ ∀ req ∈ reqs, h.verifyTxReq env req = .ok .ok := by
  induction reqs with
  | nil => simp [firstFailure]
  | cons req reqs ih =>
      simp only [firstFailure, List.mem_cons, forall_eq_or_imp]
      cases hv : h.verifyTxReq env req with
      | ok ret =>
          by_cases hret : ret = .ok
          · subst hret
            simp [ih]
          · simp [hret]
      | err e => exact e.elim
      | panic m => simp

omit [DecidableEq A] in
/-- What `firstFailure` finds is a failure. -/
theorem firstFailure_ne_ok {env : AuthEnv A H} {h : Handler A H} {reqs : List (VerifyTxReq H)} {ret : Ret}
    (hf : h.firstFailure env reqs = .ok (some ret)) : ret ≠ .ok := by
  induction reqs with
  | nil => simp [firstFailure] at hf
  | cons req reqs ih =>
      simp only [firstFailure] at hf
      obtain ⟨r, -, hf⟩ := Outcome.bind_eq_ok.mp hf
      split at hf
      · rename_i hr
        cases hf
        exact hr
      · exact ih hf

/-- `process_block_verify`: the result it publishes, if any, and the handler
after it. -/
def processBlockVerify (env : AuthEnv A H) (h : Handler A H) (blkReq : VerifyBlockReq H) :
    Outcome Empty (Option Ret × Handler A H) := do
  let height := blkReq.id >>> 16
  if h.historyHeights.nextHeight ≠ height then
    return (none, h.updateCacheBlockReq blkReq)
  -- for block verify, every request must include its signer
  match blkReq.reqs.find? (·.signer.isEmpty) with
  | some req => return (some .badSig, h.saveRetToCache req.txHash none)
  | none =>
      match h.uncached blkReq.reqs with
      | none => return (some .badSig, h)
      | some reqsNoCache =>
          let results := verifySignatures env reqsNoCache
          let h := results.foldl (fun h r => h.saveRetToCache r.1 (some r.2)) h
          if results.length ≠ reqsNoCache.length then return (some .badSig, h)
          -- valid_until_block and duplicates in the history
          match ← h.firstFailure env blkReq.reqs with
          | some ret => return (some ret, h)
          | none =>
              let signed := blkReq.reqs.map fun req => (env.pubkeyToAddress req.signer, req.quota)
              if !verifyBlockQuota h.quota signed then return (some .quotaNotEnough, h)
              return (some .ok, h)

/-- A block that `process_block_verify` accepts is at the next height,
every request of it passes `verify_tx_req`, it passes the block quota, and
only the signature cache changes. -/
theorem processBlockVerify_eq_ok {env : AuthEnv A H} {h h' : Handler A H} {blkReq : VerifyBlockReq H}
    (hp : h.processBlockVerify env blkReq = .ok (some .ok, h')) :
    blkReq.id >>> 16 = h.historyHeights.nextHeight ∧
    (∀ req ∈ blkReq.reqs, h.verifyTxReq env req = .ok .ok) ∧
    verifyBlockQuota h.quota (blkReq.reqs.map fun req => (env.pubkeyToAddress req.signer, req.quota)) = true ∧
    ∃ cache, h' = { h with cache := cache } := by
  unfold processBlockVerify at hp
  dsimp only at hp
  -- every early return publishes something other than `Ok`
  split_ifs at hp with hnext
  · cases hp
  · split at hp
    · cases hp
    · split at hp
      · cases hp
      · rename_i reqsNoCache _
        obtain ⟨cache, hcache⟩ := foldl_saveRetToCache h (verifySignatures env reqsNoCache)
        rw [hcache] at hp
        split_ifs at hp with hlen hquota
        · cases hp
        · -- the block quota fails: `QuotaNotEnough`, or a request failed before
          obtain ⟨found, hfound, hp⟩ := Outcome.bind_eq_ok.mp hp
          cases found with
          | some ret =>
              cases hp
              exact absurd rfl (firstFailure_ne_ok hfound)
          | none => cases hp
        · obtain ⟨found, hfound, hp⟩ := Outcome.bind_eq_ok.mp hp
          cases found with
          | some ret =>
              cases hp
              exact absurd rfl (firstFailure_ne_ok hfound)
          | none =>
              cases hp
              -- the requests were checked on the handler with the new cache,
              -- which `verify_tx_req` does not read
              have hreqs := (firstFailure_eq_none env { h with cache := cache } _).mp hfound
              refine ⟨(not_not.mp hnext).symm, hreqs, ?_, cache, rfl⟩
              simpa using hquota

/-- `deal_verify_block_req`. -/
def dealVerifyBlockReq (env : AuthEnv A H) (h : Handler A H) (blkReq : VerifyBlockReq H) :
    Outcome Empty (Option Ret × Handler A H) :=
  if blkReq.reqs.length = 0 then pure (none, h)
  else if !h.isReady then pure (none, h.updateCacheBlockReq blkReq)
  else h.processBlockVerify env blkReq

/-- `deal_block_tx_hashes`: a block at or beyond the next height brings the
quota settings; the window moves, the block's transactions leave the pool,
the hashes of heights that left the window are dropped and the block's are
kept unless its height is known. -/
def dealBlockTxHashes (h : Handler A H) (msg : BlockTxHashes A H) : Handler A H :=
  let height := msg.height
  let nextHeight := h.historyHeights.nextHeight
  let h := if height ≥ nextHeight ∨ (nextHeight = 1 ∧ height = 0) then
      { h with
        quota := ⟨msg.blockGasLimit, msg.commonGasLimit, msg.specificGasLimit, msg.checkQuota⟩
        isNeedProposalNewBlock := true }
    else h
  let oldMinHeight := h.historyHeights.minHeight
  let historyHeights := h.historyHeights.updateHeight height
  let pool := h.pool.filter fun hash => !msg.txHashes.contains hash
  let historyHashes := h.historyHashes.filter fun p =>
    !(oldMinHeight ≤ p.1 ∧ p.1 < historyHeights.minHeight)
  let historyHashes := if historyHashes.any (·.1 == height) then historyHashes
    else historyHashes ++ [(height, msg.txHashes)]
  { h with historyHeights := historyHeights, pool := pool, historyHashes := historyHashes }

end Handler

/-- Signatures that recover the signer itself; addresses are the keys' first byte. -/
def AuthEnv.echo : AuthEnv Nat Nat :=
  ⟨fun req => .ok req.signer, fun signer => (signer.headD 0).toNat⟩

/-- A handler on chain 1 that knows heights 0 to 5, with nothing in them. -/
def Handler.readyAt5 : Handler Nat Nat :=
  ⟨fun _ => none, some 1, ⟨fun i => decide (i ≤ 5), 5, 0, true⟩, none, [], ⟨1000, 100, fun _ => none, true⟩,
    false, [], false⟩

/-- A transaction of signer 1 with hash 42, valid until height 10. -/
def VerifyTxReq.tx42 : VerifyTxReq Nat := ⟨42, [1], 1, "", [], 10, 10⟩

theorem processBlockVerify_accepts_duplicate :
    Prod.fst <$> Handler.readyAt5.processBlockVerify AuthEnv.echo
      ⟨6 <<< 16, [VerifyTxReq.tx42, VerifyTxReq.tx42]⟩ = .ok (some .ok) := by
  decide

end Auth

end Cita
