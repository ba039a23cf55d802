import Cita.Chain.Forward

/-!
# Polling filters

A filter installed through JSON-RPC (`new_filter`, `new_block_filter`)
keeps the number of the first block it has not reported, and each
`filter_changes` reports from there to the head and moves the number past
it. The poll manager is locked for the whole call, but the chain is not:
the block processor may commit blocks while a poll runs.

A block filter reads the head once, so what it reports, poll after poll,
is each block from its creation on, once and in order
(`blockFilter_reports_each_once`). A log filter reads the head when it
moves its number, and `get_logs` resolves `Latest` later, on the chain as
it is then (`filterChanges` takes both chains). A block committed between
the two reads is reported by this poll and again by the next one.

A run interleaves the filters' calls with the chain's growth one block at a
time (`set_db_result` of the next block, `commitNext`), and a poll carries
the blocks committed while it ran (`FilterEvent.poll`).
-/

namespace Cita

namespace Libchain

namespace PollManager

/-- `create_poll`: the next id. -/
def createPoll (pm : PollManager) (filter : PollFilter) : PollManager × Nat :=
  let id := pm.nextAvailableId
  (⟨Function.update pm.polls id (some filter), id + 1⟩, id)

/-- A write through `poll_mut`. -/
def setPoll (pm : PollManager) (id : Nat) (filter : PollFilter) : PollManager :=
  { pm with polls := Function.update pm.polls id (some filter) }

end PollManager

/-- `limit_logs`: the last `limit` logs. -/
def limitLogs {α : Type} (logs : List α) (limit : Option Nat) : List α :=
  match limit with
  | some limit => if limit ≤ logs.length then logs.drop (logs.length - limit) else logs
  | none => logs

namespace Chain

variable (hash : Header → H256) (bloomed : Bytes → LogBloom) (c : Chain)

/-- `new_filter`: logs from the current block on. -/
def newFilter (filter : Filter) : Chain × Nat :=
  let (pm, id) := c.pollsFilter.createPoll (.logs c.currentHeight filter)
  ({ c with pollsFilter := pm }, id)

/-- `new_block_filter`: block hashes from the current block on. -/
def newBlockFilter : Chain × Nat :=
  let (pm, id) := c.pollsFilter.createPoll (.block c.currentHeight)
  ({ c with pollsFilter := pm }, id)

/-- The hashes of the blocks from `blockNumber` up to, not including, `currentNumber`. -/
def blockHashesFrom (blockNumber currentNumber : Nat) : List H256 :=
  (List.range' blockNumber (currentNumber - blockNumber)).filterMap (c.blockHashByHeight hash)

/-- `filter_changes` on the chain `c` the call starts from; `latest` is the
chain `get_logs` reads, with the blocks committed meanwhile. -/
def filterChanges (latest : Chain) (index : Nat) :
    Outcome Empty (PollManager × FilterChanges) :=
  match c.pollsFilter.polls index with
  | none => .ok (c.pollsFilter, .empty)
  | some (.block blockNumber) =>
      -- + 1, to include the current block
      let currentNumber := c.currentHeight + 1
      .ok (c.pollsFilter.setPoll index (.block currentNumber),
        .hashes (c.blockHashesFrom hash blockNumber currentNumber))
  | some (.logs blockNumber filter) =>
      let currentNumber := c.currentHeight
      let query := { filter with fromBlock := .number blockNumber, toBlock := .latest }
      (fun logs => (c.pollsFilter.setPoll index (.logs (currentNumber + 1) filter),
          .logs (limitLogs logs filter.limit))) <$>
        latest.getLogs hash bloomed query

/-- The chain grows by the next block: `set_db_result` of a result for the
height after the head. Any other result is not a growth and changes nothing. -/
def commitNext (ret : ExecutedResult) (block : Block) : Chain :=
  if ret.height = c.currentHeight + 1 then c.setDbResult hash ret block else c

end Chain

/-- A call of the filter interface, or the chain's growth. A poll carries
the blocks the block processor commits while it runs. -/
inductive FilterEvent where
  | newFilter (filter : Filter)
  | newBlockFilter
  | commit (ret : ExecutedResult) (block : Block)
  | poll (index : Nat) (committed : List (ExecutedResult × Block))

namespace Chain

variable (hash : Header → H256) (bloomed : Bytes → LogBloom)

/-- The chain after the blocks committed during a poll. -/
def commitAll : Chain → List (ExecutedResult × Block) → Chain
  | c, [] => c
  | c, (ret, block) :: rest => commitAll (c.commitNext hash ret block) rest

/-- One event, with the changes a poll reports under its filter's id. -/
def stepFilters (c : Chain) : FilterEvent → Outcome Empty (Chain × List (Nat × FilterChanges))
  | .newFilter filter => .ok ((c.newFilter filter).1, [])
  | .newBlockFilter => .ok (c.newBlockFilter.1, [])
  | .commit ret block => .ok (c.commitNext hash ret block, [])
  | .poll index committed =>
      let latest := commitAll hash c committed
      (fun (pm, changes) => ({ latest with pollsFilter := pm }, [(index, changes)])) <$>
        c.filterChanges hash bloomed latest index

/-- The chain after a sequence of events, and every poll's changes. -/
def runFilters : Chain → List FilterEvent → Outcome Empty (Chain × List (Nat × FilterChanges))
  | c, [] => .ok (c, [])
  | c, e :: es => do
      let (c₁, out₁) ← c.stepFilters hash bloomed e
      let (c₂, out₂) ← c₁.runFilters es
      pure (c₂, out₁ ++ out₂)

end Chain

/-! ## Growth keeps what is below the head -/

namespace Chain

variable {hash : Header → H256} {bloomed : Bytes → LogBloom} {c c' : Chain}

/-- Every block up to the head has a header, and the head's is the one stored. -/
structure HeadStored (c : Chain) : Prop where
  number : c.currentHeader.number = c.currentHeight
  stored : c.blockHeaders c.currentHeight = some c.currentHeader
  below : ∀ n ≤ c.currentHeight, (c.blockHeaders n).isSome

theorem HeadStored.blockHeaderByHeight (hs : c.HeadStored) (n : Nat) :
    c.blockHeaderByHeight n = c.blockHeaders n := by
  unfold Chain.blockHeaderByHeight
  split
  · rename_i h
    rw [hs.number] at h
    rw [← h, hs.stored]
  · rfl

/-- The filters are not part of what is stored. -/
theorem HeadStored.withPolls (hs : c.HeadStored) (pm : PollManager) :
    ({ c with pollsFilter := pm } : Chain).HeadStored :=
  ⟨hs.number, hs.stored, hs.below⟩

/-- The hashes below the head, each block's own. -/
theorem HeadStored.blockHashesFrom (hs : c.HeadStored) (h b : Nat) :
    c.blockHashesFrom hash h b = (List.range' h (b - h)).filterMap fun n => (c.blockHeaders n).map hash := by
  unfold Chain.blockHashesFrom
  congr 1
  funext n
  rw [Chain.blockHashByHeight, hs.blockHeaderByHeight]

theorem headStored_setDbResult (hs : c.HeadStored) {ret : ExecutedResult} {block : Block}
    (hn : ret.height = c.currentHeight + 1) : (c.setDbResult hash ret block).HeadStored where
  number := rfl
  stored := by simp
  below n hle := by
    rw [currentHeight_setDbResult] at hle
    rw [blockHeaders_setDbResult]
    by_cases hnh : n = ret.height
    · simp [hnh]
    · rw [Function.update_of_ne hnh]
      exact hs.below n (by omega)

theorem blockHeaders_setDbResult_of_le {ret : ExecutedResult} {block : Block} {n : Nat}
    (hn : ret.height = c.currentHeight + 1) (hle : n ≤ c.currentHeight) :
    (c.setDbResult hash ret block).blockHeaders n = c.blockHeaders n := by
  rw [blockHeaders_setDbResult, Function.update_of_ne (by omega)]

/-- What a growth of the chain keeps: the head is stored, the height does
not go down, and the headers up to the old head stay. -/
structure Grows (c c' : Chain) : Prop where
  headStored : c'.HeadStored
  height : c.currentHeight ≤ c'.currentHeight
  headers : ∀ n ≤ c.currentHeight, c'.blockHeaders n = c.blockHeaders n

theorem Grows.refl (hs : c.HeadStored) : Grows c c := ⟨hs, le_refl _, fun _ _ => rfl⟩

theorem Grows.trans {c'' : Chain} (h₁ : Grows c c') (h₂ : Grows c' c'') : Grows c c'' :=
  ⟨h₂.headStored, h₁.height.trans h₂.height, fun n hn => (h₂.headers n (hn.trans h₁.height)).trans
    (h₁.headers n hn)⟩

@[simp] theorem pollsFilter_commitNext (ret : ExecutedResult) (block : Block) :
    (c.commitNext hash ret block).pollsFilter = c.pollsFilter := by
  unfold commitNext
  split <;> rfl

@[simp] theorem pollsFilter_commitAll (committed : List (ExecutedResult × Block)) :
    (commitAll hash c committed).pollsFilter = c.pollsFilter := by
  induction committed generalizing c with
  | nil => rfl
  | cons rb rest ih => exact ih.trans (pollsFilter_commitNext _ _)

theorem grows_commitNext (hs : c.HeadStored) (ret : ExecutedResult) (block : Block) :
    Grows c (c.commitNext hash ret block) := by
  unfold commitNext
  split
  · rename_i hn
    exact ⟨headStored_setDbResult hs hn, by simp [hn], fun n hle => blockHeaders_setDbResult_of_le hn hle⟩
  · exact Grows.refl hs

theorem grows_commitAll (hs : c.HeadStored) (committed : List (ExecutedResult × Block)) :
    Grows c (commitAll hash c committed) := by
  induction committed generalizing c with
  | nil => exact Grows.refl hs
  | cons rb rest ih =>
      obtain ⟨ret, block⟩ := rb
      have h₁ : Grows c (c.commitNext hash ret block) := grows_commitNext hs ret block
      exact h₁.trans (ih h₁.headStored)

/-- The hashes of blocks up to the old head are the same after a growth. -/
theorem Grows.blockHashesFrom (hg : Grows c c') (hs : c.HeadStored) {h b : Nat}
    (hb : b ≤ c.currentHeight + 1) : c'.blockHashesFrom hash h b = c.blockHashesFrom hash h b := by
  rw [hg.headStored.blockHashesFrom, hs.blockHashesFrom]
  refine List.filterMap_congr fun n hn => ?_
  rw [List.mem_range'_1] at hn
  rw [hg.headers n (by omega)]

theorem blockHashesFrom_append (c : Chain) {h b e : Nat} (hhb : h ≤ b) (hbe : b ≤ e) :
    c.blockHashesFrom hash h b ++ c.blockHashesFrom hash b e = c.blockHashesFrom hash h e := by
  obtain ⟨k, rfl⟩ := Nat.exists_eq_add_of_le hhb
  obtain ⟨l, rfl⟩ := Nat.exists_eq_add_of_le hbe
  unfold Chain.blockHashesFrom
  rw [← List.filterMap_append, show h + k - h = k by omega, show h + k + l - (h + k) = l by omega,
    show h + k + l - h = k + l by omega, List.range'_append_1]

/-- Below the head every block has a hash, so the list has one per block. -/
theorem HeadStored.length_blockHashesFrom (hs : c.HeadStored) {h b : Nat}
    (hb : b ≤ c.currentHeight + 1) : (c.blockHashesFrom hash h b).length = b - h := by
  rw [hs.blockHashesFrom, List.filterMap_length_eq_length.mpr, List.length_range']
  intro n hn
  rw [List.mem_range'_1] at hn
  rw [Option.isSome_map]
  exact hs.below n (by omega)

end Chain

/-! ## Block filters report each block once -/

/-- The hashes the polls of filter `id` reported. -/
def hashesReported (id : Nat) (outs : List (Nat × FilterChanges)) : List H256 :=
  outs.flatMap fun (i, changes) =>
    if i = id then (match changes with | .hashes hs => hs | _ => []) else []

theorem hashesReported_append (id : Nat) (outs outs' : List (Nat × FilterChanges)) :
    hashesReported id (outs ++ outs') = hashesReported id outs ++ hashesReported id outs' :=
  List.flatMap_append

namespace Chain

variable {hash : Header → H256} {bloomed : Bytes → LogBloom} {c c' : Chain}

/-- The block filter `id`, created at height `h`, has reported the hashes of
the blocks from `h` up to its number `b`, and `b` is at most past the head. -/
structure BlockFilterInv (hash : Header → H256) (c : Chain) (id h : Nat) (reported : List H256) :
    Prop where
  headStored : c.HeadStored
  fresh : id < c.pollsFilter.nextAvailableId
  cursor : ∃ b, c.pollsFilter.polls id = some (.block b) ∧ h ≤ b ∧ b ≤ c.currentHeight + 1 ∧
    reported = c.blockHashesFrom hash h b

/-- A poll leaves every other filter and the next id as they were. -/
theorem filterChanges_polls {latest : Chain} {index : Nat} {pm : PollManager} {changes : FilterChanges}
    (h : c.filterChanges hash bloomed latest index = .ok (pm, changes)) :
    pm.nextAvailableId = c.pollsFilter.nextAvailableId ∧
      ∀ k, k ≠ index → pm.polls k = c.pollsFilter.polls k := by
  unfold filterChanges at h
  split at h
  · cases h
    exact ⟨rfl, fun _ _ => rfl⟩
  · cases h
    exact ⟨rfl, fun k hk => Function.update_of_ne hk _ _⟩
  · obtain ⟨logs, -, hpm⟩ := Outcome.map_eq_ok.mp h
    cases hpm
    exact ⟨rfl, fun k hk => Function.update_of_ne hk _ _⟩

/-- The poll of a block filter reports from its number to the head, and
moves the number past the head. -/
theorem filterChanges_block {latest : Chain} {index b : Nat} {pm : PollManager}
    {changes : FilterChanges} (hb : c.pollsFilter.polls index = some (.block b))
    (h : c.filterChanges hash bloomed latest index = .ok (pm, changes)) :
    pm.polls index = some (.block (c.currentHeight + 1)) ∧
      changes = .hashes (c.blockHashesFrom hash b (c.currentHeight + 1)) := by
  unfold filterChanges at h
  rw [hb] at h
  cases h
  exact ⟨Function.update_self _ _ _, rfl⟩

/-- A new filter takes the next id, so the filter `id` keeps its number. -/
theorem blockFilterInv_createPoll {id h : Nat} {reported : List H256} (hi : BlockFilterInv hash c id h reported)
    (filter : PollFilter) : BlockFilterInv hash { c with pollsFilter := (c.pollsFilter.createPoll filter).1 } id h reported := by
  obtain ⟨b, hb, hhb, hbc, hrep⟩ := hi.cursor
  refine ⟨hi.headStored.withPolls _, Nat.lt_succ_of_lt hi.fresh, b, ?_, hhb, hbc, hrep⟩
  exact (Function.update_of_ne (Nat.ne_of_lt hi.fresh) _ _).trans hb

theorem blockFilterInv_step {id h : Nat} {reported : List H256} {e : FilterEvent}
    {out : List (Nat × FilterChanges)} (hi : BlockFilterInv hash c id h reported)
    (hstep : c.stepFilters hash bloomed e = .ok (c', out)) :
    BlockFilterInv hash c' id h (reported ++ hashesReported id out) := by
  obtain ⟨b, hb, hhb, hbc, hrep⟩ := hi.cursor
  cases e with
  | newFilter filter =>
      cases hstep
      rw [show hashesReported id [] = [] from rfl, List.append_nil]
      exact blockFilterInv_createPoll hi (.logs c.currentHeight filter)
  | newBlockFilter =>
      cases hstep
      rw [show hashesReported id [] = [] from rfl, List.append_nil]
      exact blockFilterInv_createPoll hi (.block c.currentHeight)
  | commit ret block =>
      cases hstep
      have hg : Grows c (c.commitNext hash ret block) := grows_commitNext hi.headStored ret block
      rw [show hashesReported id [] = [] from rfl, List.append_nil]
      refine ⟨hg.headStored, ?_, b, ?_, hhb, by have := hg.height; omega, ?_⟩
      · rw [pollsFilter_commitNext]
        exact hi.fresh
      · rw [pollsFilter_commitNext]
        exact hb
      · rw [hrep, hg.blockHashesFrom hi.headStored hbc]
  | poll index committed =>
      obtain ⟨⟨pm, changes⟩, hfc, hc'⟩ := Outcome.map_eq_ok.mp hstep
      cases hc'
      have hg : Grows c (commitAll hash c committed) := grows_commitAll hi.headStored committed
      obtain ⟨hnext, hother⟩ := filterChanges_polls hfc
      by_cases hid : index = id
      · -- the poll of this filter: from its number to the head, then past the head
        subst hid
        obtain ⟨hpm, hch⟩ := filterChanges_block hb hfc
        subst hch
        refine ⟨hg.headStored.withPolls _, hnext ▸ hi.fresh, c.currentHeight + 1, hpm, by omega,
          ?_, ?_⟩
        · show _ ≤ (commitAll hash c committed).currentHeight + 1
          have := hg.height
          omega
        rw [show hashesReported index [(index, .hashes (c.blockHashesFrom hash b (c.currentHeight + 1)))] =
          c.blockHashesFrom hash b (c.currentHeight + 1) by simp [hashesReported]]
        rw [hrep, blockHashesFrom_append c hhb hbc]
        exact (hg.blockHashesFrom hi.headStored (le_refl _)).symm
      · refine ⟨hg.headStored.withPolls _, hnext ▸ hi.fresh, b, (hother id (Ne.symm hid)).trans hb,
          hhb, ?_, ?_⟩
        · show _ ≤ (commitAll hash c committed).currentHeight + 1
          have := hg.height
          omega
        rw [show hashesReported id [(index, changes)] = [] by simp [hashesReported, hid],
          List.append_nil, hrep]
        exact (hg.blockHashesFrom hi.headStored hbc).symm

theorem blockFilterInv_run {id h : Nat} {reported : List H256} {es : List FilterEvent}
    {outs : List (Nat × FilterChanges)} (hi : BlockFilterInv hash c id h reported)
    (hrun : c.runFilters hash bloomed es = .ok (c', outs)) :
    BlockFilterInv hash c' id h (reported ++ hashesReported id outs) := by
  induction es generalizing c reported outs with
  | nil =>
      cases hrun
      simpa [hashesReported] using hi
  | cons e es ih =>
      obtain ⟨⟨c₁, out₁⟩, hstep, hrest⟩ := Outcome.bind_eq_ok.mp hrun
      obtain ⟨⟨c₂, out₂⟩, hrun', hout⟩ := Outcome.bind_eq_ok.mp hrest
      cases hout
      have := ih (blockFilterInv_step hi hstep) hrun'
      rwa [hashesReported_append, ← List.append_assoc]

/-- A block filter reports, poll after poll and whatever the chain commits
meanwhile, the hash of each block from the one it was created at up to its
number, one each and in order; the blocks from its number on are still to
come, and its number is at most one past the head. -/
theorem blockFilter_reports_each_once (hs : c.HeadStored) {es : List FilterEvent}
    {outs : List (Nat × FilterChanges)}
    (hrun : c.newBlockFilter.1.runFilters hash bloomed es = .ok (c', outs)) :
    ∃ b, c'.pollsFilter.polls c.pollsFilter.nextAvailableId = some (.block b) ∧
      c.currentHeight ≤ b ∧ b ≤ c'.currentHeight + 1 ∧
      hashesReported c.pollsFilter.nextAvailableId outs = c'.blockHashesFrom hash c.currentHeight b ∧
      (hashesReported c.pollsFilter.nextAvailableId outs).length = b - c.currentHeight := by
  have hi : BlockFilterInv hash c.newBlockFilter.1 c.pollsFilter.nextAvailableId c.currentHeight [] :=
    ⟨hs.withPolls _, Nat.lt_succ_self _, c.currentHeight, Function.update_self _ _ _, le_refl _,
      Nat.le_succ _, by simp [blockHashesFrom]⟩
  obtain ⟨hs', -, b, hb, hhb, hbc, hrep⟩ := blockFilterInv_run hi hrun
  rw [List.nil_append] at hrep
  exact ⟨b, hb, hhb, hbc, hrep, hrep ▸ hs'.length_blockHashesFrom hbc⟩

end Chain

/-! ## A log reported twice -/

/-- A header hash that tells apart the headers of different heights, as the
Keccak of their RLP does. -/
def numberHash (h : Header) : H256 := BitVec.ofNat 256 (h.number + 1)

/-- The result of a block with one transaction, whose receipt has one log. -/
def ExecutedResult.oneLog (height : Nat) : ExecutedResult :=
  ⟨⟨[], 3000, false, u64Max, ⟨0, []⟩⟩, ⟨⟨0, 0, height, 0, 0, 0, 1, 0, 0, 0⟩, [⟨none, 0, 0, [⟨7, [], []⟩], none, 0, 0⟩]⟩⟩

/-- The result of a block with one transaction, whose receipt has three
logs. -/
def ExecutedResult.threeLogs (height : Nat) : ExecutedResult :=
  ⟨⟨[], 3000, false, u64Max, ⟨0, []⟩⟩, ⟨⟨0, 0, height, 0, 0, 0, 1, 0, 0, 0⟩,
    [⟨none, 0, 0, [⟨7, [], []⟩, ⟨8, [], []⟩, ⟨9, [], []⟩], none, 0, 0⟩]⟩⟩

/-- A block with one transaction. -/
def Block.oneTransaction (height : Nat) : Block :=
  ⟨{ Header.new with number := height }, ⟨[BitVec.ofNat 256 height]⟩⟩

/-- The filter of every log: no address, no topic, no limit. -/
def Filter.allLogs : Filter := ⟨.earliest, .latest, none, [none, none, none, none], none⟩

/-- A chain that has committed its genesis. -/
def Chain.genesis : Chain := (Chain.initChain 2).setDbResult numberHash (.empty 0 0) Block.default

/-- A log filter at the genesis; block 1 is committed; a poll during which
block 2 is committed; another poll. -/
def logFilterRun : List FilterEvent :=
  [.newFilter .allLogs, .commit (.oneLog 1) (.oneTransaction 1),
    .poll 0 [(.oneLog 2, .oneTransaction 2)], .poll 0 []]

/-- Where each reported log was produced: block, transaction and log index. -/
def FilterChanges.logPositions : FilterChanges → List (Nat × Nat × Nat)
  | .logs ls => ls.map fun l => (l.blockNumber, l.transactionIndex, l.logIndex)
  | _ => []

theorem logFilter_reports_log_twice :
    ((fun r => r.2.map fun (x : Nat × FilterChanges) => (x.1, x.2.logPositions)) <$>
      Chain.genesis.runFilters numberHash (fun _ => 0) logFilterRun) =
      .ok [(0, [(1, 0, 0), (2, 0, 0)]), (0, [(2, 0, 0)])] := by
  decide +kernel

/-- A block filter at the genesis; block 1 is committed; a poll during
which block 2 is committed; another poll. -/
def blockFilterRun : List FilterEvent :=
  [.commit (.oneLog 1) (.oneTransaction 1), .poll 0 [(.oneLog 2, .oneTransaction 2)], .poll 0 []]

theorem blockFilter_reports_each_once_genesis :
    Chain.genesis.HeadStored ∧
      ∃ r, Chain.genesis.newBlockFilter.1.runFilters numberHash (fun _ => 0) blockFilterRun = .ok r ∧
        ∃ b, r.1.pollsFilter.polls Chain.genesis.pollsFilter.nextAvailableId = some (.block b) ∧
          Chain.genesis.currentHeight ≤ b ∧ b ≤ r.1.currentHeight + 1 ∧
          hashesReported Chain.genesis.pollsFilter.nextAvailableId r.2 =
            r.1.blockHashesFrom numberHash Chain.genesis.currentHeight b ∧
          (hashesReported Chain.genesis.pollsFilter.nextAvailableId r.2).length =
            b - Chain.genesis.currentHeight := by
  have hs : Chain.genesis.HeadStored := ⟨rfl, rfl, by decide⟩
  obtain ⟨r, hr⟩ : ∃ r, Chain.genesis.newBlockFilter.1.runFilters numberHash (fun _ => 0)
      blockFilterRun = .ok r := ⟨_, rfl⟩
  exact ⟨hs, r, hr, Chain.blockFilter_reports_each_once hs hr⟩

end Libchain

end Cita
