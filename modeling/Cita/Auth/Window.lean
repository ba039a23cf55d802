import Cita.Auth.Handler

/-!
# The history window of `cita-auth`

`HistoryHeights::update_height` keeps the heights of the last `BLOCKLIMIT`
blocks. Over any run of it from `HistoryHeights::new()`, with heights in any
order and repeated, the window holds (`updateHeight_run_window`): every known
height lies in `[min_height, max_height]`, `max_height` is the largest height
delivered, `min_height` is `windowMin max_height`, and after the first call
`is_init` says whether every height of `[min_height, max_height)` is known.
Each fact is a step lemma over the three cases of `update_height`
(`updateHeight_cases`) and an induction over the heights delivered.

`MsgHandler::deal_block_tx_hashes` moves the window with the height of each
block and prunes `history_hashes` of the heights that leave it. Keys never
exceed `max_height` (`dealBlockTxHashes_run_keys`), but a block below
`min_height` is inserted although `update_height` ignores it
(`historyHashes_dealBlockTxHashes_of_lt`), and pruning only removes the range
`[old_min_height, min_height)`, so such a key is never removed
(`mem_historyHashes_foldl_of_lt`).
-/

namespace Cita

namespace Auth

namespace HistoryHeights

/-- The least height of the window whose greatest is `maxHeight`. -/
def windowMin (maxHeight : Nat) : Nat :=
  if maxHeight > blockLimit then maxHeight - blockLimit + 1 else 0

theorem windowMin_le (maxHeight : Nat) : windowMin maxHeight ≤ maxHeight := by
  unfold windowMin blockLimit
  split <;> omega

theorem windowMin_mono {m m' : Nat} (hle : m ≤ m') : windowMin m ≤ windowMin m' := by
  unfold windowMin
  split <;> split <;> omega

/-- The `is_init` loop reads as: every height of `[lo, hi)` is known. -/
theorem allKnown_iff {heights : Nat → Bool} {lo hi : Nat} :
    allKnown heights lo hi = true ↔ ∀ i, lo ≤ i → i < hi → heights i = true := by
  simp only [allKnown, List.all_eq_true, List.mem_range'_1]
  constructor
  · intro h i hlo hhi
    exact h i ⟨hlo, by omega⟩
  · rintro h i ⟨hlo, hhi⟩
    exact h i hlo (by omega)

/-- What `update_height` keeps of a `HistoryHeights`: the known heights lie
in the window, and the window ends `BLOCKLIMIT` heights back. -/
structure Window (h : HistoryHeights) : Prop where
  heights_mem : ∀ i, h.heights i = true → h.minHeight ≤ i ∧ i ≤ h.maxHeight
  minHeight_eq : h.minHeight = windowMin h.maxHeight

/-- `is_init` is the result of its loop over the current window. -/
def InitExact (h : HistoryHeights) : Prop :=
  h.isInit = allKnown h.heights h.minHeight h.maxHeight

theorem window_new : new.Window where
  heights_mem := by simp [new]
  minHeight_eq := rfl

theorem Window.minHeight_le {h : HistoryHeights} (hw : h.Window) : h.minHeight ≤ h.maxHeight :=
  hw.minHeight_eq ▸ windowMin_le _

/-- Everything `update_height` can do: ignore a height below the window,
move the window to a new maximum (forgetting the heights that leave it), or
add a height inside the window. -/
theorem updateHeight_cases (h : HistoryHeights) (height : Nat) :
    (height < h.minHeight ∧ h.updateHeight height = h) ∨
    (h.minHeight ≤ height ∧ h.maxHeight < height ∧
      (h.updateHeight height).maxHeight = height ∧
      (h.updateHeight height).minHeight = windowMin height ∧
      ∀ i, (h.updateHeight height).heights i =
        if h.minHeight ≤ i ∧ i < windowMin height then false else (i == height || h.heights i)) ∨
    (h.minHeight ≤ height ∧ height ≤ h.maxHeight ∧
      (h.updateHeight height).maxHeight = h.maxHeight ∧
      (h.updateHeight height).minHeight = h.minHeight ∧
      ∀ i, (h.updateHeight height).heights i = (i == height || h.heights i)) := by
  by_cases hlt : height < h.minHeight
  · exact .inl ⟨hlt, if_pos hlt⟩
  · by_cases hgt : h.maxHeight < height
    · refine .inr (.inl ⟨Nat.le_of_not_lt hlt, hgt, ?_⟩)
      simp [updateHeight, hlt, hgt, windowMin]
    · refine .inr (.inr ⟨Nat.le_of_not_lt hlt, Nat.le_of_not_lt hgt, ?_⟩)
      simp [updateHeight, hlt, hgt]

/-- Past the guard, `is_init` is recomputed over the new window. -/
theorem initExact_updateHeight {h : HistoryHeights} {height : Nat} (hle : h.minHeight ≤ height) :
    (h.updateHeight height).InitExact := by
  have hlt : ¬height < h.minHeight := Nat.not_lt.mpr hle
  unfold InitExact updateHeight
  simp only [hlt, if_false]

theorem InitExact.updateHeight {h : HistoryHeights} (hi : h.InitExact) (height : Nat) :
    (h.updateHeight height).InitExact := by
  by_cases hlt : height < h.minHeight
  · rw [HistoryHeights.updateHeight, if_pos hlt]
    exact hi
  · exact initExact_updateHeight (Nat.le_of_not_lt hlt)

theorem Window.updateHeight {h : HistoryHeights} (hw : h.Window) (height : Nat) :
    (h.updateHeight height).Window := by
  rcases updateHeight_cases h height with ⟨-, heq⟩ | ⟨-, hgt, hmax, hmin, hheights⟩ |
    ⟨hle, hge, hmax, hmin, hheights⟩
  · rw [heq]
    exact hw
  -- a new maximum: `height` is the top, and an old height survives only above the new bottom
  · refine ⟨fun i hi => ?_, by rw [hmin, hmax]⟩
    rw [hheights i, hmin, hmax] at *
    split at hi
    · cases hi
    · rename_i hout
      rcases Bool.or_eq_true _ _ ▸ hi with heq | hold
      · have := beq_iff_eq.mp heq
        subst this
        exact ⟨windowMin_le i, Nat.le_refl i⟩
      · have := hw.heights_mem i hold
        omega
  · refine ⟨fun i hi => ?_, by rw [hmin, hmax]; exact hw.minHeight_eq⟩
    rw [hheights i] at hi
    rw [hmin, hmax]
    rcases Bool.or_eq_true _ _ ▸ hi with heq | hold
    · have := beq_iff_eq.mp heq
      subst this
      exact ⟨hle, hge⟩
    · exact hw.heights_mem i hold

theorem maxHeight_updateHeight {h : HistoryHeights} (hw : h.Window) (height : Nat) :
    (h.updateHeight height).maxHeight = max h.maxHeight height := by
  have hmin := hw.minHeight_le
  rcases updateHeight_cases h height with ⟨hlt, heq⟩ | ⟨-, hgt, hmax, -⟩ | ⟨-, hge, hmax, -⟩
  · rw [heq]
    omega
  · rw [hmax]
    omega
  · rw [hmax]
    omega

/-- The bottom of the window never moves down. -/
theorem minHeight_le_updateHeight {h : HistoryHeights} (hw : h.Window) (height : Nat) :
    h.minHeight ≤ (h.updateHeight height).minHeight := by
  rcases updateHeight_cases h height with ⟨-, heq⟩ | ⟨-, hgt, -, hmin, -⟩ | ⟨-, -, -, hmin, -⟩
  · exact Nat.le_of_eq (congrArg HistoryHeights.minHeight heq).symm
  · rw [hmin, hw.minHeight_eq]
    exact windowMin_mono (Nat.le_of_lt hgt)
  · exact Nat.le_of_eq hmin.symm

section Run

variable {h : HistoryHeights}

theorem Window.foldl (hw : h.Window) (heights : List Nat) :
    (heights.foldl HistoryHeights.updateHeight h).Window := by
  induction heights generalizing h with
  | nil => exact hw
  | cons height heights ih => exact ih (hw.updateHeight height)

theorem InitExact.foldl (hi : h.InitExact) (heights : List Nat) :
    (heights.foldl HistoryHeights.updateHeight h).InitExact := by
  induction heights generalizing h with
  | nil => exact hi
  | cons height heights ih => exact ih (hi.updateHeight height)

theorem maxHeight_foldl (hw : h.Window) (heights : List Nat) :
    (heights.foldl HistoryHeights.updateHeight h).maxHeight = heights.foldl max h.maxHeight := by
  induction heights generalizing h with
  | nil => rfl
  | cons height heights ih =>
    rw [List.foldl_cons, List.foldl_cons, ih (hw.updateHeight height), maxHeight_updateHeight hw]

end Run

/-- `update_height` from `HistoryHeights::new()`, over any heights in any
order and with repeats: the known heights lie in the window, `max_height` is
the largest height delivered (`0` if none), `min_height` ends the window
`BLOCKLIMIT` heights back, and once a height has been delivered `is_init`
holds exactly when every height of `[min_height, max_height)` is known. -/
theorem updateHeight_run_window (heights : List Nat) {h : HistoryHeights}
    (hrun : heights.foldl updateHeight new = h) :
    (∀ i, h.heights i = true → h.minHeight ≤ i ∧ i ≤ h.maxHeight) ∧
      h.maxHeight = heights.foldl max 0 ∧
      h.minHeight = (if h.maxHeight > blockLimit then h.maxHeight - blockLimit + 1 else 0) ∧
      (heights ≠ [] →
        (h.isInit = true ↔ ∀ i, h.minHeight ≤ i → i < h.maxHeight → h.heights i = true)) := by
  subst hrun
  have hw : (heights.foldl updateHeight new).Window := window_new.foldl heights
  refine ⟨hw.heights_mem, maxHeight_foldl window_new heights, hw.minHeight_eq, ?_⟩
  intro hne
  obtain ⟨first, rest, rfl⟩ := List.exists_cons_of_ne_nil hne
  -- the first height is never below `new`'s bottom, so it sets `is_init`
  have hi : ((first :: rest).foldl updateHeight new).InitExact :=
    (initExact_updateHeight (h := new) (Nat.zero_le first)).foldl rest
  rw [hi]
  exact allKnown_iff

/-- Heights 2, 0 and 1 leave no gap below the highest, so `is_init` is set. -/
theorem updateHeight_run_window_gapless :
    [2, 0, 1] ≠ [] ∧ ([2, 0, 1].foldl updateHeight new).isInit = true ∧
      ∀ i, ([2, 0, 1].foldl updateHeight new).minHeight ≤ i →
        i < ([2, 0, 1].foldl updateHeight new).maxHeight →
        ([2, 0, 1].foldl updateHeight new).heights i = true := by
  have hne : [2, 0, 1] ≠ [] := by decide
  have hinit : ([2, 0, 1].foldl updateHeight new).isInit = true := by decide
  exact ⟨hne, hinit, ((updateHeight_run_window [2, 0, 1] rfl).2.2.2 hne).mp hinit⟩

end HistoryHeights

namespace Handler

variable {A H : Type} [DecidableEq H]

open HistoryHeights

theorem historyHeights_dealBlockTxHashes (h : Handler A H) (msg : BlockTxHashes A H) :
    (h.dealBlockTxHashes msg).historyHeights = h.historyHeights.updateHeight msg.height := by
  unfold dealBlockTxHashes
  dsimp only
  split <;> rfl

theorem historyHashes_dealBlockTxHashes (h : Handler A H) (msg : BlockTxHashes A H) :
    (h.dealBlockTxHashes msg).historyHashes =
      let kept := h.historyHashes.filter fun p =>
        !(h.historyHeights.minHeight ≤ p.1 ∧ p.1 < (h.historyHeights.updateHeight msg.height).minHeight)
      if kept.any (·.1 == msg.height) then kept else kept ++ [(msg.height, msg.txHashes)] := by
  unfold dealBlockTxHashes
  dsimp only
  split <;> rfl

/-- An entry after `deal_block_tx_hashes` was there before and outside the
pruned range, or is the block's own. -/
theorem mem_historyHashes_dealBlockTxHashes {h : Handler A H} {msg : BlockTxHashes A H}
    {p : Nat × List H} (hp : p ∈ (h.dealBlockTxHashes msg).historyHashes) :
    (p ∈ h.historyHashes ∧
        ¬(h.historyHeights.minHeight ≤ p.1 ∧ p.1 < (h.historyHeights.updateHeight msg.height).minHeight)) ∨
      p = (msg.height, msg.txHashes) := by
  rw [historyHashes_dealBlockTxHashes] at hp
  dsimp only at hp
  -- a kept entry is one the filter let through
  have hkept : ∀ {p : Nat × List H}, p ∈ h.historyHashes.filter (fun p =>
      !(h.historyHeights.minHeight ≤ p.1 ∧ p.1 < (h.historyHeights.updateHeight msg.height).minHeight)) →
      p ∈ h.historyHashes ∧
        ¬(h.historyHeights.minHeight ≤ p.1 ∧ p.1 < (h.historyHeights.updateHeight msg.height).minHeight) :=
    fun hp => by simpa only [List.mem_filter, Bool.not_eq_true', decide_eq_false_iff_not] using hp
  split at hp
  · exact .inl (hkept hp)
  · rcases List.mem_append.mp hp with hp | hp
    · exact .inl (hkept hp)
    · exact .inr (List.mem_singleton.mp hp)

/-- An entry outside the pruned range survives `deal_block_tx_hashes`. -/
theorem mem_historyHashes_dealBlockTxHashes_of_mem {h : Handler A H} {msg : BlockTxHashes A H}
    {p : Nat × List H} (hp : p ∈ h.historyHashes)
    (hkeep : ¬(h.historyHeights.minHeight ≤ p.1 ∧
      p.1 < (h.historyHeights.updateHeight msg.height).minHeight)) :
    p ∈ (h.dealBlockTxHashes msg).historyHashes := by
  have hkept : p ∈ h.historyHashes.filter fun p =>
      !(h.historyHeights.minHeight ≤ p.1 ∧ p.1 < (h.historyHeights.updateHeight msg.height).minHeight) :=
    List.mem_filter.mpr ⟨hp, by simpa only [Bool.not_eq_true', decide_eq_false_iff_not] using hkeep⟩
  rw [historyHashes_dealBlockTxHashes]
  dsimp only
  split
  · exact hkept
  · exact List.mem_append_left _ hkept

/-- A block below the window leaves the window as it is, and its hashes are
inserted unless its height already has an entry: the early return of
`update_height` has no counterpart in `deal_block_tx_hashes`. -/
theorem historyHashes_dealBlockTxHashes_of_lt {h : Handler A H} {msg : BlockTxHashes A H}
    (hlt : msg.height < h.historyHeights.minHeight)
    (hnew : ∀ p ∈ h.historyHashes, p.1 ≠ msg.height) :
    (h.dealBlockTxHashes msg).historyHeights = h.historyHeights ∧
      (h.dealBlockTxHashes msg).historyHashes = h.historyHashes ++ [(msg.height, msg.txHashes)] := by
  have hsame : h.historyHeights.updateHeight msg.height = h.historyHeights := if_pos hlt
  refine ⟨by rw [historyHeights_dealBlockTxHashes, hsame], ?_⟩
  -- nothing is pruned: the range `[min_height, min_height)` is empty
  have hkept : (h.historyHashes.filter fun p =>
      !(h.historyHeights.minHeight ≤ p.1 ∧ p.1 < h.historyHeights.minHeight)) = h.historyHashes :=
    List.filter_eq_self.mpr fun p _ => by
      simp only [Bool.not_eq_true', decide_eq_false_iff_not]
      omega
  have hnone : (h.historyHashes.any (·.1 == msg.height)) = false := by
    simpa using hnew
  rw [historyHashes_dealBlockTxHashes, hsame]
  dsimp only
  rw [hkept, hnone, if_neg Bool.false_ne_true]

/-- Every key of `history_hashes` is at most `max_height`. -/
def KeysBelowMax (h : Handler A H) : Prop :=
  ∀ p ∈ h.historyHashes, p.1 ≤ h.historyHeights.maxHeight

theorem KeysBelowMax.dealBlockTxHashes {h : Handler A H} (hw : h.historyHeights.Window)
    (hk : h.KeysBelowMax) (msg : BlockTxHashes A H) : (h.dealBlockTxHashes msg).KeysBelowMax := by
  intro p hp
  rw [historyHeights_dealBlockTxHashes, maxHeight_updateHeight hw]
  rcases mem_historyHashes_dealBlockTxHashes hp with ⟨hold, -⟩ | rfl
  · exact Nat.le_trans (hk p hold) (Nat.le_max_left _ _)
  · exact Nat.le_max_right _ _

section Run

variable {h : Handler A H}

theorem KeysBelowMax.foldl (hw : h.historyHeights.Window) (hk : h.KeysBelowMax)
    (msgs : List (BlockTxHashes A H)) : (msgs.foldl Handler.dealBlockTxHashes h).KeysBelowMax := by
  induction msgs generalizing h with
  | nil => exact hk
  | cons msg msgs ih =>
    have hw' : (h.dealBlockTxHashes msg).historyHeights.Window := by
      rw [historyHeights_dealBlockTxHashes]
      exact hw.updateHeight msg.height
    exact ih hw' (hk.dealBlockTxHashes hw msg)

/-- An entry below the window is never pruned: pruning removes only heights
at or above the old bottom, and the bottom never moves down. -/
theorem mem_historyHashes_foldl_of_lt (hw : h.historyHeights.Window) {p : Nat × List H}
    (hp : p ∈ h.historyHashes) (hlt : p.1 < h.historyHeights.minHeight)
    (msgs : List (BlockTxHashes A H)) : p ∈ (msgs.foldl dealBlockTxHashes h).historyHashes := by
  induction msgs generalizing h with
  | nil => exact hp
  | cons msg msgs ih =>
    have hw' : (h.dealBlockTxHashes msg).historyHeights.Window := by
      rw [historyHeights_dealBlockTxHashes]
      exact hw.updateHeight msg.height
    have hlt' : p.1 < (h.dealBlockTxHashes msg).historyHeights.minHeight := by
      rw [historyHeights_dealBlockTxHashes]
      exact Nat.lt_of_lt_of_le hlt (minHeight_le_updateHeight hw msg.height)
    exact ih hw' (mem_historyHashes_dealBlockTxHashes_of_mem hp (by omega)) hlt'

end Run

end Handler

/-- A block at `height` whose only transaction hash is `height`, with no quota settings. -/
def BlockTxHashes.atHeight (height : Nat) : BlockTxHashes Nat Nat :=
  ⟨height, [height], 0, 0, fun _ => none, false⟩

theorem dealBlockTxHashes_keeps_stale_height :
    (([200, 5, 300].map BlockTxHashes.atHeight).foldl Handler.dealBlockTxHashes Handler.new).historyHashes =
        [(5, [5]), (300, [300])] ∧
      (([200, 5, 300].map BlockTxHashes.atHeight).foldl Handler.dealBlockTxHashes
        Handler.new).historyHeights.minHeight = 201 := by
  decide

end Auth

end Cita
