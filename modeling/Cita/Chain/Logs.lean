import Cita.Chain.Filters
import Mathlib.Data.List.Sort

/-!
# Queries of logs

`get_logs` (`libchain/chain.rs`) asks the bloom index for the blocks whose
bloom contains one of `Filter::bloom_possibilities`, then `Chain::logs`
reads the receipts of those blocks and keeps the logs `Filter::matches`
accepts.

The prefilter is complete when no topic position names an empty list of
topics (`bloomPossibilities_complete`): a log the filter matches sets every
bit of one of the blooms. A position given as an empty list is a wildcard
for `matches` but leaves no bloom at all.

`Chain::logs` walks the blocks, receipts and logs backwards and counts the
log indices down; `logs_eq_limitLogs` says that it returns the last logs of
the forward walk `forwardLogs`, which numbers the logs of a receipt as
`localized_receipt` does (`localizedReceiptLogs_eq`).
-/

namespace Cita

namespace Libchain

/-! ## The bloom prefilter -/

section Bloom

variable (bloomed : Bytes → LogBloom)

theorem LogBloom.containsBloom_iff {l b : LogBloom} :
    l.containsBloom b = true ↔ ∀ i, b.getLsbD i = true → l.getLsbD i = true := by
  rw [LogBloom.containsBloom, beq_iff_eq]
  constructor
  · intro h i hb
    have := congrArg (fun x => x.getLsbD i) h
    simp only [BitVec.getLsbD_and] at this
    rw [hb, Bool.and_true] at this
    exact this
  · intro h
    ext i hi
    simp only [BitVec.getElem_and]
    cases hb : b[i]
    · simp
    · have := h i (by rw [BitVec.getLsbD_eq_getElem hi]; exact hb)
      rw [BitVec.getLsbD_eq_getElem hi] at this
      simp [this]

@[simp] theorem LogBloom.containsBloom_zero (l : LogBloom) : l.containsBloom 0 = true :=
  LogBloom.containsBloom_iff.mpr fun i h => by simp at h

@[simp] theorem LogBloom.containsBloom_or {l a b : LogBloom} :
    l.containsBloom (a ||| b) = true ↔ l.containsBloom a = true ∧ l.containsBloom b = true := by
  simp only [LogBloom.containsBloom_iff, BitVec.getLsbD_or, Bool.or_eq_true]
  constructor
  · intro h
    exact ⟨fun i hi => h i (.inl hi), fun i hi => h i (.inr hi)⟩
  · rintro ⟨ha, hb⟩ i (hi | hi)
    · exact ha i hi
    · exact hb i hi

theorem LogBloom.containsBloom_trans {l m b : LogBloom} (hm : l.containsBloom m = true)
    (hb : m.containsBloom b = true) : l.containsBloom b = true := by
  rw [LogBloom.containsBloom_iff] at hm hb ⊢
  exact fun i hi => hm i (hb i hi)

theorem LogBloom.containsBloom_self (l : LogBloom) : l.containsBloom l = true :=
  LogBloom.containsBloom_iff.mpr fun _ h => h

/-- What the fold of `LogEntry::bloom` adds to a bloom it keeps. -/
theorem containsBloom_foldl (topics : List H256) (b₀ : LogBloom) :
    (topics.foldl (fun b t => b ||| bloomed (u256ToBytes t)) b₀).containsBloom b₀ = true ∧
      ∀ t ∈ topics,
        (topics.foldl (fun b t => b ||| bloomed (u256ToBytes t)) b₀).containsBloom
          (bloomed (u256ToBytes t)) = true := by
  induction topics generalizing b₀ with
  | nil => exact ⟨LogBloom.containsBloom_self _, fun _ h => by cases h⟩
  | cons t ts ih =>
    obtain ⟨hkeep, htopics⟩ := ih (b₀ ||| bloomed (u256ToBytes t))
    rw [List.foldl_cons]
    have hor := LogBloom.containsBloom_or.mp hkeep
    refine ⟨hor.1, fun t' ht' => ?_⟩
    rcases List.mem_cons.mp ht' with rfl | ht'
    · exact hor.2
    · exact htopics t' ht'

theorem LogEntry.containsBloom_address (log : LogEntry) :
    (log.bloom bloomed).containsBloom (bloomed (Word.toBytes log.address.toNat 20)) = true :=
  (containsBloom_foldl bloomed log.topics _).1

theorem LogEntry.containsBloom_topic {log : LogEntry} {t : H256} (ht : t ∈ log.topics) :
    (log.bloom bloomed).containsBloom (bloomed (u256ToBytes t)) = true :=
  (containsBloom_foldl bloomed log.topics _).2 t ht

/-- `matches` at the topic positions from `k` on. -/
def TopicsMatch (log : LogEntry) (topics : List (Option (List H256))) (k : Nat) : Prop :=
  ∀ topic i, (topic, i) ∈ topics.zipIdx k → ∀ ts, topic = some ts → ts ≠ [] →
    ∃ t ∈ ts, log.topics[i]? = some t

/-- The fold of `bloom_possibilities` over the topic positions keeps a
bloom that the log's bloom contains, as long as no position names an
empty list. -/
theorem exists_foldl_topics {log : LogEntry} :
    ∀ (topics : List (Option (List H256))) (k : Nat) (bs : List LogBloom),
      (∀ ts, some ts ∈ topics → ts ≠ []) → TopicsMatch log topics k →
      (∃ b ∈ bs, (log.bloom bloomed).containsBloom b = true) →
      ∃ b ∈ topics.foldl (fun bs topic => match topic with
          | none => bs
          | some topics => bs.flatMap fun b => topics.map fun t => b ||| bloomed (u256ToBytes t)) bs,
        (log.bloom bloomed).containsBloom b = true
  | [], _, _, _, _, hb => hb
  | none :: topics, k, bs, hne, hm, hb => by
    rw [List.foldl_cons]
    exact exists_foldl_topics topics (k + 1) bs (fun ts h => hne ts (List.mem_cons_of_mem _ h))
      (fun topic i h => hm topic i (by rw [List.zipIdx_cons]; exact List.mem_cons_of_mem _ h)) hb
  | some ts :: topics, k, bs, hne, hm, ⟨b, hb, hcont⟩ => by
    rw [List.foldl_cons]
    -- the position names topics: the log has one of them at `k`
    obtain ⟨t, ht, hk⟩ := hm (some ts) k (by rw [List.zipIdx_cons]; exact List.mem_cons_self)
      ts rfl (hne ts List.mem_cons_self)
    have htopic : t ∈ log.topics := List.mem_of_getElem? hk
    refine exists_foldl_topics topics (k + 1) _ (fun ts h => hne ts (List.mem_cons_of_mem _ h))
      (fun topic i h => hm topic i (by rw [List.zipIdx_cons]; exact List.mem_cons_of_mem _ h))
      ⟨b ||| bloomed (u256ToBytes t), ?_, ?_⟩
    · exact List.mem_flatMap.mpr ⟨b, hb, List.mem_map.mpr ⟨t, ht, rfl⟩⟩
    · exact LogBloom.containsBloom_or.mpr ⟨hcont, LogEntry.containsBloom_topic bloomed htopic⟩

theorem topicsMatch_of_matches {f : Filter} {log : LogEntry} (hm : f.matches log = true) :
    TopicsMatch log f.topics 0 := by
  intro topic i hmem ts hts hne
  simp only [Filter.«matches», Bool.and_eq_true, List.all_eq_true] at hm
  have hpos := hm.2 (topic, i) hmem
  obtain ⟨t, ts', rfl⟩ := List.exists_cons_of_ne_nil hne
  subst hts
  simp only [List.any_eq_true, beq_iff_eq] at hpos
  exact hpos

/-- The bloom prefilter loses no log: a log the filter matches sets every
bit of one of its blooms, unless a topic position names no topic. -/
theorem bloomPossibilities_complete {f : Filter} {log : LogEntry}
    (hne : ∀ ts, some ts ∈ f.topics → ts ≠ []) (hm : f.matches log = true) :
    ∃ b ∈ f.bloomPossibilities bloomed, (log.bloom bloomed).containsBloom b = true := by
  have haddr := hm
  simp only [Filter.«matches», Bool.and_eq_true] at haddr
  unfold Filter.bloomPossibilities
  refine exists_foldl_topics bloomed f.topics 0 _ hne (topicsMatch_of_matches hm) ?_
  -- the blooms of the addresses: the log's own is one of them
  cases hf : f.address with
  | none => exact ⟨0, List.mem_singleton_self _, LogBloom.containsBloom_zero _⟩
  | some addresses =>
    cases addresses with
    | nil => exact ⟨0, List.mem_singleton_self _, LogBloom.containsBloom_zero _⟩
    | cons a as =>
      rw [hf] at haddr
      obtain ⟨a', ha', heq⟩ := List.any_eq_true.mp haddr.1
      rw [beq_iff_eq] at heq
      exact ⟨_, List.mem_map.mpr ⟨a', ha', rfl⟩, heq ▸ LogEntry.containsBloom_address bloomed log⟩

/-- The filter `From<RpcFilter>` builds from `{"topics": [[]]}`, whose
first topic position is an empty list: every log matches it, but it has no
bloom, so `get_logs` asks for no block and finds nothing, on every chain. -/
theorem getLogs_empty_topic_finds_nothing (hash : Header → H256) (c : Chain) :
    (Filter.ofRpc .earliest .latest none (some [.multiple []]) none).topics = [some [], none, none, none] ∧
      (∀ log, (Filter.ofRpc .earliest .latest none (some [.multiple []]) none).matches log = true) ∧
      (Filter.ofRpc .earliest .latest none (some [.multiple []]) none).bloomPossibilities bloomed = [] ∧
      c.getLogs hash bloomed (Filter.ofRpc .earliest .latest none (some [.multiple []]) none) = .ok [] := by
  refine ⟨rfl, fun log => ?_, rfl, rfl⟩
  simp [Filter.«matches», Filter.ofRpc, Filter.topicsOfRpc]

end Bloom

/-! ## The logs of blocks -/

section Forward

/-- The logs of one receipt, numbered forward: the receipt is the `index`th
of its block and `before` logs of the block come before it. -/
def receiptLogs (number : Nat) (blockHash txHash : H256) (index before : Nat)
    (logs : List LogEntry) : List LocalizedLogEntry :=
  logs.zipIdx.map fun (log, i) => ⟨log, blockHash, number, txHash, index, i, before + i⟩

/-- The logs of a block's receipts, each with the hash of its transaction,
walked forward. -/
def forwardLogs (number : Nat) (blockHash : H256) :
    Nat → Nat → List (List LogEntry × H256) → List LocalizedLogEntry
  | _, _, [] => []
  | index, before, (logs, txHash) :: rest =>
    receiptLogs number blockHash txHash index before logs ++
      forwardLogs number blockHash (index + 1) (before + logs.length) rest

/-- The `logs` of `localized_receipt` for the transaction `id` at `index`
of the block `blockHash` of height `number`, from the block's receipts. -/
def localizedReceiptLogs (number : Nat) (blockHash id : H256) (index : Nat)
    (receipts : List Receipt) : Outcome Empty (List LocalizedLogEntry) := do
  let receipts := receipts.take (index + 1)
  let lastReceipt ← Outcome.expect receipts.getLast? "Current receipt is provided; qed"
  let noOfLogs := receipts.dropLast.foldl (fun acc r => acc + r.logs.length) 0
  pure (lastReceipt.logs.zipIdx.map fun (log, i) =>
    ⟨log, blockHash, number, id, index, i, noOfLogs + i⟩)

/-- The number of logs of receipts. -/
def logCount (ps : List (List LogEntry × H256)) : Nat := (ps.map fun p => p.1.length).sum

@[simp] theorem logCount_nil : logCount [] = 0 := rfl

@[simp] theorem logCount_cons (p : List LogEntry × H256) (ps : List (List LogEntry × H256)) :
    logCount (p :: ps) = p.1.length + logCount ps := List.sum_cons

@[simp] theorem logCount_append (ps qs : List (List LogEntry × H256)) :
    logCount (ps ++ qs) = logCount ps + logCount qs := by
  simp [logCount]

@[simp] theorem logCount_reverse (ps : List (List LogEntry × H256)) :
    logCount ps.reverse = logCount ps := by
  simp [logCount]

/-- The logs of receipts paired with their transactions' hashes are the
receipts' logs. -/
theorem logCount_zip {receipts : List Receipt} {hashes : List H256}
    (h : receipts.length ≤ hashes.length) :
    logCount ((receipts.map Receipt.logs).zip hashes) = (receipts.map fun r => r.logs.length).sum := by
  rw [logCount, show (fun p : List LogEntry × H256 => p.1.length) = List.length ∘ Prod.fst from rfl,
    ← List.map_map, List.map_fst_zip (by simpa using h), List.map_map]
  rfl

theorem foldl_logs_length (rs : List Receipt) (a : Nat) :
    rs.foldl (fun acc r => acc + r.logs.length) a = a + (rs.map fun r => r.logs.length).sum := by
  induction rs generalizing a with
  | nil => simp
  | cons r rs ih =>
    rw [List.foldl_cons, ih, List.map_cons, List.sum_cons]
    omega

/-- `localized_receipt` numbers the logs of the receipt at `index` forward,
after the logs of the receipts before it. -/
theorem localizedReceiptLogs_eq {number : Nat} {blockHash id : H256} {index : Nat}
    {receipts : List Receipt} (h : index < receipts.length) :
    localizedReceiptLogs number blockHash id index receipts =
      .ok (receiptLogs number blockHash id index
        ((receipts.take index).map fun r => r.logs.length).sum receipts[index].logs) := by
  have htake : receipts.take (index + 1) = receipts.take index ++ [receipts[index]] :=
    List.take_succ_eq_append_getElem h
  simp only [localizedReceiptLogs, htake, List.getLast?_append, List.getLast?_singleton,
    Option.some_or, Outcome.expect_some, List.dropLast_concat, foldl_logs_length, Nat.zero_add,
    Outcome.ok_bind, Outcome.pure_eq, receiptLogs]

theorem reverse_zipIdx_map {α β : Type} (l : List α) (f : α × Nat → β) :
    (l.zipIdx.map f).reverse = l.reverse.zipIdx.map fun p => f (p.1, l.length - 1 - p.2) := by
  apply List.ext_getElem (by simp)
  intro i h₁ h₂
  simp [List.getElem_reverse, List.getElem_zipIdx]

theorem zip_reverse {α β : Type} {l₁ : List α} {l₂ : List β} (h : l₁.length = l₂.length) :
    l₁.reverse.zip l₂.reverse = (l₁.zip l₂).reverse := by
  induction l₁ generalizing l₂ with
  | nil => simp
  | cons a l₁ ih =>
    cases l₂ with
    | nil => simp at h
    | cons b l₂ =>
      have h' : l₁.length = l₂.length := by simpa using h
      rw [List.reverse_cons, List.reverse_cons, List.zip_append (by simpa using h'), ih h']
      simp

theorem forwardLogs_append (number : Nat) (blockHash : H256) :
    ∀ (ps qs : List (List LogEntry × H256)) (index before : Nat),
      forwardLogs number blockHash index before (ps ++ qs) =
        forwardLogs number blockHash index before ps ++
          forwardLogs number blockHash (index + ps.length) (before + logCount ps) qs
  | [], qs, index, before => by simp [forwardLogs]
  | (logs, txHash) :: ps, qs, index, before => by
    rw [List.cons_append, forwardLogs, forwardLogs, forwardLogs_append number blockHash ps qs,
      List.append_assoc]
    simp only [List.length_cons, logCount_cons]
    congr 3 <;> omega

theorem mem_receiptLogs {number index before : Nat} {blockHash txHash : H256}
    {logs : List LogEntry} {l : LocalizedLogEntry}
    (hl : l ∈ receiptLogs number blockHash txHash index before logs) :
    l.blockNumber = number ∧ l.blockHash = blockHash ∧ l.transactionHash = txHash ∧
      l.transactionIndex = index ∧ logs[l.transactionLogIndex]? = some l.entry ∧
      l.logIndex = before + l.transactionLogIndex := by
  obtain ⟨⟨log, i⟩, hi, rfl⟩ := List.mem_map.mp hl
  exact ⟨rfl, rfl, rfl, rfl, List.mem_zipIdx_iff_getElem?.mp hi, rfl⟩

/-- A log of the forward walk is a log of one receipt, numbered after the
logs of the receipts before it. -/
theorem mem_forwardLogs {number : Nat} {blockHash : H256} {l : LocalizedLogEntry} :
    ∀ (ps : List (List LogEntry × H256)) (index before : Nat),
      l ∈ forwardLogs number blockHash index before ps →
      ∃ j, ∃ hj : j < ps.length,
        l ∈ receiptLogs number blockHash ps[j].2 (index + j) (before + logCount (ps.take j)) ps[j].1
  | [], _, _, hl => by cases hl
  | (logs, txHash) :: ps, index, before, hl => by
    rw [forwardLogs, List.mem_append] at hl
    rcases hl with hl | hl
    · exact ⟨0, by simp, by simpa using hl⟩
    · obtain ⟨j, hj, hl⟩ := mem_forwardLogs ps (index + 1) (before + logs.length) hl
      refine ⟨j + 1, by simpa using hj, ?_⟩
      simp only [List.getElem_cons_succ, List.take_succ_cons, logCount_cons]
      rwa [show index + (j + 1) = index + 1 + j by omega,
        show before + (logs.length + logCount (ps.take j)) = before + logs.length + logCount (ps.take j)
          by omega]

end Forward

namespace Chain

section Backward

variable {number : Nat} {blockHash : H256}

theorem localizeReceipts_append (receiptsLen : Nat) :
    ∀ (ps qs : List (List LogEntry × H256)) (index logIndex : Nat),
      localizeReceipts number blockHash receiptsLen index logIndex (ps ++ qs) =
        localizeReceipts number blockHash receiptsLen index logIndex ps ++
          localizeReceipts number blockHash receiptsLen (index + ps.length)
            (logIndex - logCount ps) qs
  | [], qs, index, logIndex => by simp [localizeReceipts]
  | (logs, txHash) :: ps, qs, index, logIndex => by
    rw [List.cons_append, localizeReceipts, localizeReceipts,
      localizeReceipts_append receiptsLen ps qs, List.append_assoc]
    simp only [List.length_cons, logCount_cons, Nat.sub_sub]
    congr 3
    omega

/-- One receipt walked backwards is its forward logs reversed. -/
theorem localizeReceipts_singleton (receiptsLen index logIndex : Nat) (logs : List LogEntry)
    (txHash : H256) (hlog : logs.length ≤ logIndex) :
    localizeReceipts number blockHash receiptsLen index logIndex [(logs, txHash)] =
      (receiptLogs number blockHash txHash (receiptsLen - index - 1) (logIndex - logs.length)
        logs).reverse := by
  rw [receiptLogs, reverse_zipIdx_map, localizeReceipts, localizeReceipts, List.append_nil]
  refine List.map_congr_left fun p hp => ?_
  -- the `i`th log from the end is the `logs.length - 1 - i`th from the start
  have hi : p.2 < logs.length := by
    have := (List.mem_zipIdx_iff_getElem?.mp hp)
    simpa using (List.getElem?_eq_some_iff.mp this).1
  simp only [LocalizedLogEntry.mk.injEq, true_and]
  omega

/-- `logs` walks a block's receipts and their logs backwards, counting the
log index down from the block's number of logs: the forward walk reversed. -/
theorem localizeReceipts_reverse (receiptsLen : Nat) :
    ∀ (ps : List (List LogEntry × H256)) (index logIndex : Nat),
      index + ps.length ≤ receiptsLen → logCount ps ≤ logIndex →
      localizeReceipts number blockHash receiptsLen index logIndex ps.reverse =
        (forwardLogs number blockHash (receiptsLen - index - ps.length)
          (logIndex - logCount ps) ps).reverse
  | [], _, _, _, _ => rfl
  | (logs, txHash) :: ps, index, logIndex, hlen, hcount => by
    simp only [List.length_cons, logCount_cons] at hlen hcount
    rw [List.reverse_cons, localizeReceipts_append, List.length_reverse, logCount_reverse,
      localizeReceipts_reverse receiptsLen ps index logIndex (by omega) (by omega),
      localizeReceipts_singleton receiptsLen _ _ logs txHash (by omega),
      forwardLogs, List.reverse_append]
    simp only [List.length_cons, logCount_cons]
    -- the receipt's index and the logs before it, counted from both ends
    have hindex : receiptsLen - index - (ps.length + 1) + 1 = receiptsLen - index - ps.length := by
      omega
    have hbefore : logIndex - (logs.length + logCount ps) + logs.length = logIndex - logCount ps := by
      omega
    have hindex' : receiptsLen - (index + ps.length) - 1 = receiptsLen - index - (ps.length + 1) := by
      omega
    have hbefore' : logIndex - logCount ps - logs.length = logIndex - (logs.length + logCount ps) := by
      omega
    rw [hindex, hbefore, hindex', hbefore']

/-- The logs of a block as `logs` builds them: the forward walk, reversed. -/
theorem blockLogs_eq {receipts : List Receipt} {hashes : List H256}
    (h : receipts.length = hashes.length) :
    blockLogs number blockHash receipts hashes =
      (forwardLogs number blockHash 0 0 ((receipts.map Receipt.logs).zip hashes)).reverse := by
  have hzip : (receipts.reverse.map Receipt.logs).zip hashes.reverse =
      ((receipts.map Receipt.logs).zip hashes).reverse := by
    rw [List.map_reverse, zip_reverse (by simpa using h)]
  have hlen : ((receipts.map Receipt.logs).zip hashes).length = receipts.length := by
    simp [h]
  have hcount : logCount ((receipts.map Receipt.logs).zip hashes) =
      receipts.foldl (fun sum r => sum + r.logs.length) 0 := by
    rw [foldl_logs_length, Nat.zero_add, logCount_zip h.le]
  rw [blockLogs, hzip, localizeReceipts_reverse receipts.length _ 0 _ (by omega) hcount.le, hcount,
    Nat.sub_self, hlen]
  simp

/-- The lazy `take(limit)` of `logs` over the blocks: the first `n` logs of
all of them, when every block has a receipt for each transaction. -/
theorem takeLogs_eq (isMatch : LogEntry → Bool) :
    ∀ (n : Nat) (found : List (Nat × H256 × List Receipt × List H256)),
      (∀ x ∈ found, x.2.2.1.length = x.2.2.2.length) →
      takeLogs isMatch n found = .ok ((found.flatMap fun x =>
        (blockLogs x.1 x.2.1 x.2.2.1 x.2.2.2).filter fun l => isMatch l.entry).take n)
  | 0, _, _ => by rw [takeLogs, List.take_zero]
  | n + 1, [], _ => rfl
  | n + 1, (number, blockHash, receipts, hashes) :: rest, hlen => by
    have hx : receipts.length = hashes.length := hlen _ List.mem_cons_self
    have hrest := takeLogs_eq isMatch (n + 1 - ((blockLogs number blockHash receipts hashes).filter
      fun l => isMatch l.entry).length) rest fun x hx => hlen x (List.mem_cons_of_mem _ hx)
    rw [takeLogs, if_neg (not_not_intro hx), List.flatMap_cons]
    dsimp only
    by_cases hfit : n + 1 ≤ ((blockLogs number blockHash receipts hashes).filter
        fun l => isMatch l.entry).length
    · rw [if_pos hfit, List.take_append_of_le_length hfit]
    · -- the block has fewer logs than wanted: all of them, then those of the next blocks
      have hall : (((blockLogs number blockHash receipts hashes).filter
          fun l => isMatch l.entry).take (n + 1)) =
          (blockLogs number blockHash receipts hashes).filter fun l => isMatch l.entry :=
        List.take_of_length_le (by omega)
      rw [if_neg hfit, hrest, List.take_append, hall]
      rfl

end Backward

/-! ## `logs` -/

section Stored

variable (hash : Header → H256) (c : Chain)

/-- What `logs` reads of the block at a height: its hash, its receipts and
the hashes of its transactions, when all three are stored. -/
def storedBlock (number : Nat) : Option (Nat × H256 × List Receipt × List H256) := do
  let blockHash ← c.blockHashByHeight hash number
  let receipts ← c.blockReceipts blockHash
  let body ← c.blockBodyByHash blockHash
  pure (number, blockHash, receipts, body.transactionHashes)

theorem logs_eq (blocks : List Nat) (isMatch : LogEntry → Bool) (limit : Option Nat) :
    c.logs hash blocks isMatch limit = List.reverse <$> takeLogs isMatch (limit.getD u64Max)
      ((blocks.insertionSort fun a b => b ≤ a).filterMap (c.storedBlock hash)) :=
  rfl

/-- The matching logs of the stored blocks among `blocks`, lowest block
first, the logs of each block walked forward. -/
def matchingLogs (blocks : List Nat) (isMatch : LogEntry → Bool) : List LocalizedLogEntry :=
  ((blocks.insertionSort (· ≤ ·)).filterMap (c.storedBlock hash)).flatMap fun x =>
    (forwardLogs x.1 x.2.1 0 0 ((x.2.2.1.map Receipt.logs).zip x.2.2.2)).filter
      fun l => isMatch l.entry

end Stored

theorem insertionSort_ge_reverse (l : List Nat) :
    (l.insertionSort fun a b => b ≤ a).reverse = l.insertionSort (· ≤ ·) := by
  apply List.Perm.eq_of_pairwise' (r := (· ≤ ·))
  · rw [List.pairwise_reverse]
    exact List.pairwise_insertionSort _ l
  · exact List.pairwise_insertionSort _ l
  · exact (List.reverse_perm _).trans
      ((List.perm_insertionSort _ l).trans (List.perm_insertionSort _ l).symm)

section Stored

variable {hash : Header → H256} {c : Chain}

theorem storedBlock_fst {number : Nat} {x : Nat × H256 × List Receipt × List H256}
    (h : c.storedBlock hash number = some x) : x.1 = number := by
  simp only [storedBlock, Option.bind_eq_bind, Option.bind_eq_some_iff, Option.pure_def,
    Option.some.injEq] at h
  obtain ⟨_, -, _, -, _, -, rfl⟩ := h
  rfl

/-- `Chain::logs` returns the last `limit` matching logs of the stored
blocks, lowest block first and each block's logs in order, and numbers each
of them as `localized_receipt` does. -/
theorem logs_eq_limitLogs (blocks : List Nat) (isMatch : LogEntry → Bool) (limit : Option Nat)
    (hlen : ∀ n ∈ blocks, ∀ x ∈ c.storedBlock hash n, x.2.2.1.length = x.2.2.2.length) :
    c.logs hash blocks isMatch limit =
        .ok (limitLogs (c.matchingLogs hash blocks isMatch) (some (limit.getD u64Max))) ∧
      ∀ l ∈ c.matchingLogs hash blocks isMatch, isMatch l.entry = true ∧
        ∃ receipts hashes,
          c.storedBlock hash l.blockNumber = some (l.blockNumber, l.blockHash, receipts, hashes) ∧
          hashes[l.transactionIndex]? = some l.transactionHash ∧
          ∃ logs, localizedReceiptLogs l.blockNumber l.blockHash l.transactionHash
            l.transactionIndex receipts = .ok logs ∧ l ∈ logs := by
  set found := (blocks.insertionSort (· ≤ ·)).filterMap (c.storedBlock hash) with hfound
  -- the blocks found are stored blocks among `blocks`
  have hmem : ∀ x ∈ found, ∃ n ∈ blocks, c.storedBlock hash n = some x := by
    intro x hx
    obtain ⟨n, hn, hx⟩ := List.mem_filterMap.mp hx
    exact ⟨n, (List.mem_insertionSort _).mp hn, hx⟩
  have hlen' : ∀ x ∈ found, x.2.2.1.length = x.2.2.2.length := by
    intro x hx
    obtain ⟨n, hn, hx⟩ := hmem x hx
    exact hlen n hn x hx
  constructor
  · -- `logs` takes the blocks highest first and reverses what it found
    have hdesc : (blocks.insertionSort fun a b => b ≤ a).filterMap (c.storedBlock hash) =
        found.reverse := by
      rw [hfound, ← insertionSort_ge_reverse, List.filterMap_reverse, List.reverse_reverse]
    have hback : found.reverse.flatMap (fun x =>
        (blockLogs x.1 x.2.1 x.2.2.1 x.2.2.2).filter fun l => isMatch l.entry) =
        (c.matchingLogs hash blocks isMatch).reverse := by
      rw [List.flatMap_reverse, matchingLogs, ← hfound]
      congr 1
      refine List.flatMap_congr fun x hx => ?_
      rw [Function.comp_apply, blockLogs_eq (hlen' x hx), List.filter_reverse,
        List.reverse_reverse]
    rw [logs_eq, hdesc, takeLogs_eq isMatch _ _ (fun x hx => hlen' x (List.mem_reverse.mp hx)),
      hback, List.take_reverse]
    refine Outcome.map_eq_ok.mpr ⟨_, rfl, ?_⟩
    rw [List.reverse_reverse, limitLogs]
    split
    · rfl
    · rw [Nat.sub_eq_zero_of_le (by omega), List.drop_zero]
  · intro l hl
    obtain ⟨x, hx, hl⟩ := List.mem_flatMap.mp hl
    obtain ⟨hl, hm⟩ := List.mem_filter.mp hl
    obtain ⟨n, -, hstored⟩ := hmem x hx
    obtain ⟨number, blockHash, receipts, hashes⟩ := x
    have hrh : receipts.length = hashes.length := hlen' _ hx
    obtain ⟨j, hj, hl⟩ := mem_forwardLogs _ 0 0 hl
    have hjr : j < receipts.length := by simpa [hrh] using hj
    have hjh : j < hashes.length := by simpa [hrh] using hj
    obtain ⟨hnum, hbh, htx, hidx, -, -⟩ := mem_receiptLogs hl
    simp only [List.getElem_zip, List.getElem_map] at hnum hbh htx hidx hl
    refine ⟨hm, receipts, hashes, ?_, ?_, ?_⟩
    · have hn : number = n := storedBlock_fst hstored
      subst hn
      rw [hnum, hbh]
      exact hstored
    · rw [hidx, htx, Nat.zero_add, List.getElem?_eq_getElem hjh]
    · rw [hnum, hbh, htx, hidx, Nat.zero_add, localizedReceiptLogs_eq hjr]
      refine ⟨_, rfl, ?_⟩
      rw [List.zip_eq_zipWith, List.take_zipWith, ← List.zip_eq_zipWith, ← List.map_take,
        logCount_zip (by simp [hrh])] at hl
      simpa using hl

end Stored

/-- Blocks 0 and 1 of a chain whose block 1 has one transaction with three
logs, every log wanted, at most two of them: the last two are returned. -/
theorem logs_eq_limitLogs_threeLogs :
    (∀ n ∈ [0, 1], ∀ x ∈ (Chain.genesis.commitNext numberHash (.threeLogs 1) (.oneTransaction 1)).storedBlock
      numberHash n, x.2.2.1.length = x.2.2.2.length) ∧
    ((Chain.genesis.commitNext numberHash (.threeLogs 1) (.oneTransaction 1)).logs numberHash [0, 1]
        (fun _ => true) (some 2) =
        .ok (limitLogs ((Chain.genesis.commitNext numberHash (.threeLogs 1) (.oneTransaction 1)).matchingLogs
          numberHash [0, 1] fun _ => true) (some ((some 2).getD u64Max))) ∧
      ∀ l ∈ (Chain.genesis.commitNext numberHash (.threeLogs 1) (.oneTransaction 1)).matchingLogs
          numberHash [0, 1] (fun _ => true), true = true ∧
        ∃ receipts hashes,
          (Chain.genesis.commitNext numberHash (.threeLogs 1) (.oneTransaction 1)).storedBlock numberHash
            l.blockNumber = some (l.blockNumber, l.blockHash, receipts, hashes) ∧
          hashes[l.transactionIndex]? = some l.transactionHash ∧
          ∃ logs, localizedReceiptLogs l.blockNumber l.blockHash l.transactionHash
            l.transactionIndex receipts = .ok logs ∧ l ∈ logs) := by
  have hlen : ∀ n ∈ [0, 1], ∀ x ∈ (Chain.genesis.commitNext numberHash (.threeLogs 1) (.oneTransaction 1)).storedBlock numberHash n,
      x.2.2.1.length = x.2.2.2.length := by
    decide
  exact ⟨hlen, Chain.logs_eq_limitLogs [0, 1] (fun _ => true) (some 2) hlen⟩

end Chain

end Libchain

end Cita
