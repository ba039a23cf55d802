import Cita.Executor.StateStorage
import Cita.Executor.StateDb
import Cita.Lib.Journal

/-!
# Reverting storage to a checkpoint (`checkpoint`, `discard_checkpoint`, `revert_to_checkpoint`)

An execution reads and writes storage between checkpoints that it opens,
discards when a call returns and reverts to when a call fails. The state is
a journal (`Cita.Journal`): each checkpoint records the entries first
changed after it was opened, `discard_checkpoint` merges them into the
checkpoint below (`mergeTop`), and `revert_to_checkpoint` puts them back
through `AccountEntry::overwrite_with`.

`overwrite_with` does not put the recorded entry in place: it merges the
recorded account into the account present, keeping that account's storage
cache, and keeps holding no account where none is present. So a revert
restores what was recorded only if the account present reads its cache
from the trie the recorded one reads, and is there where the recorded one
was. While storage is only read and written both hold (`State.Journaled`):
every account held for an address has the storage root of the trie's
account there, with a cache that holds what that trie holds
(`Backend.Fits`); a checkpoint records only entries; and an address that a
checkpoint records with an account has one in what it is reverted over
(`Grows`). Every operation keeps the invariant, and each checkpoint then
restores the view of the state it saved (`State.savedViews`,
`view_revertToCheckpoint`).

So any run of storage reads and writes, with checkpoints opened, discarded
and reverted to between them (`runAccesses`), runs as the same accesses on
a stack of maps of words (`absAccesses`): it never fails, every read
returns what the stack's current map holds, and the storage the state ends
with is that map (`runAccesses_refines`). A state over a `StateDB` whose
shared cache answers nothing runs as `State` does
(`StateOnDb.runAccesses_of_noShared`), so the same holds of the state
`from_existing` opens over it (`StateOnDb.runAccesses_fromExisting`).
-/

namespace Cita

namespace Executor

/-- The storage root of the trie's account at `a`, or the empty root where
the trie holds none. -/
def Backend.rootOf (db : Backend) (a : Address) : H256 :=
  (db.accounts a).elim hashNullRlp BasicAccount.storageRoot

/-- The storage cache of an account holds what the trie at its root holds. -/
def Account.CacheSound (trie : H256 → H256 → H256) (acc : Account) : Prop :=
  ∀ k w, acc.storageCache k = some w → trie acc.storageRoot k = w

/-- What every account the state holds for `a` keeps while storage is only
read and written: no account only where the trie has none, and otherwise the
storage root of the trie's account (the empty root where the trie holds
none) with a cache that holds what the trie at that root holds. -/
def Backend.Fits (db : Backend) (a : Address) : Option Account → Prop
  | none => db.accounts a = none
  | some acc => acc.storageRoot = db.rootOf a ∧ acc.CacheSound db.storage

/-- What a checkpoint's record of an entry reads as: the data of its
account. Only `new_contract` and `kill_account` record no entry, and such a
record is not read here (`State.Journaled.recorded`). -/
def recordView (trie : H256 → H256 → H256) : Option AccountEntry → Option AccountData
  | some e => e.account.map (Account.data trie)
  | none => none

/-- The storage maps of a view, as `State.storageOf` reads them. -/
def storageOfView (view : Address → Option AccountData) : Address → H256 → H256 :=
  fun a k => (view a).elim 0 fun d => d.storage k

namespace State

/-- The views of the state that the open checkpoints restore, innermost
first. -/
def savedViews (s : State) : List (Address → Option AccountData) :=
  restoreAll (recordView s.db.storage) s.checkpoints s.view

/-- The invariant of a state whose storage is only read and written
between checkpoints. -/
structure Journaled (s : State) : Prop where
  cached : ∀ a e, s.cache a = some e → s.db.Fits a e.account
  recorded : ∀ c ∈ s.checkpoints, ∀ a r, c a = some r → ∃ e, r = some e ∧ s.db.Fits a e.account
  grows : Grows (recordView s.db.storage) s.checkpoints s.view

end State

/-! ## Accounts that fit the trie -/

namespace Account

variable {trie : H256 → H256 → H256}

/-- With a sound cache the data reads the changes over the trie. -/
theorem data_storage_of_sound {acc : Account} (hs : acc.CacheSound trie) (k : H256) :
    (acc.data trie).storage k = (acc.storageChanges k).getD (trie acc.storageRoot k) := by
  simp only [data, cachedStorageAt]
  cases hc : acc.storageChanges k with
  | some w => rfl
  | none =>
    cases hk : acc.storageCache k with
    | none => rfl
    | some w => simp [hs k w hk]

theorem cacheSound_cloneDirty (acc : Account) : acc.cloneDirty.CacheSound trie :=
  fun _ _ h => by simp [cloneDirty] at h

/-- `clone_dirty` drops a sound cache and so reads as the account. -/
theorem data_cloneDirty {acc : Account} (hs : acc.CacheSound trie) :
    acc.cloneDirty.data trie = acc.data trie := by
  have hstorage : (acc.cloneDirty.data trie).storage = (acc.data trie).storage := by
    funext k
    rw [data_storage_of_sound (cacheSound_cloneDirty acc), data_storage_of_sound hs]
    rfl
  -- the other fields are the account's own
  calc acc.cloneDirty.data trie
      = ⟨acc.balance, acc.nonce, acc.code, acc.abi, (acc.cloneDirty.data trie).storage⟩ := rfl
    _ = acc.data trie := by rw [hstorage]; rfl

/-- Two accounts with sound caches that differ in their caches alone read
the same. -/
theorem data_eq_of_cloneDirty_eq {acc acc' : Account} (h : acc.cloneDirty = acc'.cloneDirty)
    (hs : acc.CacheSound trie) (hs' : acc'.CacheSound trie) : acc.data trie = acc'.data trie := by
  rw [← data_cloneDirty hs, ← data_cloneDirty hs', h]

theorem storageRoot_storageAt (acc : Account) (k : H256) :
    (acc.storageAt trie k).2.storageRoot = acc.storageRoot := by
  unfold storageAt
  split <;> rfl

/-- Filling the cache from the trie keeps it sound. -/
theorem CacheSound.storageAt {acc : Account} (h : acc.CacheSound trie) (k : H256) :
    (acc.storageAt trie k).2.CacheSound trie := by
  unfold Account.storageAt
  split
  · exact h
  · intro k' w hk'
    by_cases hk : k' = k
    · subst hk
      simpa using hk'
    · exact h k' w (by simpa [Function.update_of_ne hk] using hk')

theorem CacheSound.overwriteWith {ours acc : Account} (h : ours.CacheSound trie)
    (h' : acc.CacheSound trie) (hroot : ours.storageRoot = acc.storageRoot) :
    (ours.overwriteWith acc).CacheSound trie := by
  intro k w hk
  simp only [Account.overwriteWith] at hk ⊢
  -- a value cached by `acc` wins; one cached by ours reads the same trie
  cases hc : acc.storageCache k with
  | some w' =>
    rw [hc, Option.some_or] at hk
    exact h' k w (hc.trans hk)
  | none =>
    rw [hc, Option.none_or] at hk
    rw [← hroot]
    exact h k w hk

/-- `overwrite_with` over an account of the same trie reads as the account
merged in. -/
theorem data_overwriteWith {ours acc : Account} (h : ours.CacheSound trie) (h' : acc.CacheSound trie)
    (hroot : ours.storageRoot = acc.storageRoot) : (ours.overwriteWith acc).data trie = acc.data trie :=
  data_eq_of_cloneDirty_eq rfl (h.overwriteWith h' hroot) h'

end Account

namespace Backend

variable {db : Backend} {a : Address}

theorem Fits.map_cloneDirty {o : Option Account} (h : db.Fits a o) :
    db.Fits a (o.map Account.cloneDirty) := by
  cases o with
  | none => exact h
  | some acc => exact ⟨h.1, Account.cacheSound_cloneDirty acc⟩

/-- Filling the cache from the trie keeps an account fitting. -/
theorem Fits.map_storageAt {o : Option Account} (h : db.Fits a o) (k : H256) :
    db.Fits a (o.map fun acc => (acc.storageAt db.storage k).2) := by
  cases o with
  | none => exact h
  | some acc =>
    rw [Option.map_some]
    exact ⟨(acc.storageRoot_storageAt k).trans h.1, h.2.storageAt k⟩

/-- `require` changes the account seen, or a new basic account where none
is seen, and both fit. -/
theorem Fits.require {o : Option Account} (h : db.Fits a o) (nonce k v : H256) :
    db.Fits a (some (((o.getD (Account.newBasic 0 nonce))).setStorage k v)) := by
  cases o with
  | none =>
    refine ⟨by simp [Account.newBasic, Account.setStorage, rootOf, show db.accounts a = none from h], ?_⟩
    exact fun _ _ hk => by simp [Account.newBasic, Account.setStorage] at hk
  | some acc => exact ⟨h.1, h.2⟩

theorem Fits.overwriteWith {e v : AccountEntry} (he : db.Fits a e.account) (hv : db.Fits a v.account) :
    db.Fits a (e.overwriteWith v).account := by
  cases hva : v.account with
  | none => simpa [AccountEntry.overwriteWith, hva] using hv
  | some acc =>
    rw [hva] at hv
    cases hea : e.account with
    | none => simpa [AccountEntry.overwriteWith, hva, hea] using he
    | some ours =>
      rw [hea] at he
      simp only [AccountEntry.overwriteWith, hva, hea, Option.map_some]
      exact ⟨hv.1, he.2.overwriteWith hv.2 (he.1.trans hv.1.symm)⟩

end Backend

/-! ## Every operation keeps the invariant and what the checkpoints restore -/

namespace State

variable {ε : Type} {s : State}

theorem Journaled.fits_lookup (hj : s.Journaled) (a : Address) : s.db.Fits a (s.lookup a) := by
  cases hc : s.cache a with
  | some e => simpa [lookup, hc] using hj.cached a e hc
  | none =>
    -- the trie's account, as it loads
    cases hacc : s.db.accounts a with
    | none =>
      have hl : s.lookup a = none := by simp [lookup, loadAccount, hc, hacc]
      rw [hl]
      exact hacc
    | some b =>
      simp only [lookup, loadAccount, hc, hacc, Option.map_some]
      exact ⟨by simp [Account.ofBasic, Backend.rootOf, hacc], fun _ _ hk => by simp [Account.ofBasic] at hk⟩

theorem checkpoints_storageAt (s : State) (a : Address) (k : H256) :
    (s.storageAt a k).2.checkpoints = s.checkpoints := by
  obtain ⟨-, hs | ⟨e, hs, -⟩⟩ := s.storageAt_spec a k <;> rw [hs]

theorem Journaled.storageAt (hj : s.Journaled) (a : Address) (k : H256) :
    (s.storageAt a k).2.Journaled := by
  obtain ⟨-, hview, hdb⟩ := s.storageAt_eq a k
  have hcps := s.checkpoints_storageAt a k
  refine ⟨fun b e' hb => ?_, by rw [hcps, hdb]; exact hj.recorded, by
    rw [hcps, hdb, hview]; exact hj.grows⟩
  rw [hdb]
  obtain ⟨-, hs | ⟨e, hs, he⟩⟩ := s.storageAt_spec a k
  · rw [hs] at hb
    exact hj.cached b e' hb
  · rw [hs] at hb
    dsimp only at hb
    by_cases hba : b = a
    · -- the account read, with its cache filled
      subst hba
      simp only [Function.update_self, Option.some.injEq] at hb
      subst hb
      rw [he]
      exact (hj.fits_lookup b).map_storageAt k
    · rw [Function.update_of_ne hba] at hb
      exact hj.cached b e' hb

theorem savedViews_storageAt (s : State) (a : Address) (k : H256) :
    (s.storageAt a k).2.savedViews = s.savedViews := by
  obtain ⟨-, hview, hdb⟩ := s.storageAt_eq a k
  rw [savedViews, savedViews, s.checkpoints_storageAt a k, hview, hdb]

/-- A change through `require`: the entry at `a` holds a fitting account,
dirty, and the innermost checkpoint records the entry as it was, unless it
has recorded `a` already. The invariant holds after it, and the checkpoints
restore what they restored. -/
theorem Journaled.writeEntry (hj : s.Journaled) {t : State} {a : Address} {e : AccountEntry}
    {acc : Account} (hdb : t.db = s.db) (he : e.account = s.lookup a)
    (hc : t.cache = Function.update s.cache a (some ⟨some acc, .dirty⟩))
    (hcps : t.checkpoints = s.checkpoints.modifyHead fun c => FunMap.orInsert c a (some e.cloneDirty))
    (hfits : s.db.Fits a (some acc)) : t.Journaled ∧ t.savedViews = s.savedViews := by
  have hview := view_of_cache_eq hdb hc
  have hoff : ∀ b, b ≠ a → t.view b = s.view b := fun b hb => by
    rw [hview, Function.update_of_ne hb]
  -- the record reads as the account seen before the change
  have hrec : recordView s.db.storage (some e.cloneDirty) = s.view a := by
    have hfl := hj.fits_lookup a
    simp only [recordView, AccountEntry.cloneDirty, he, view, Option.map_map]
    cases hl : s.lookup a with
    | none => rfl
    | some acc₀ =>
      rw [hl] at hfl
      simp [Account.data_cloneDirty hfl.2]
  refine ⟨⟨fun b e' hb => ?_, ?_, ?_⟩, ?_⟩
  · rw [hdb]
    rw [hc] at hb
    by_cases hba : b = a
    · subst hba
      simp only [Function.update_self, Option.some.injEq] at hb
      subst hb
      exact hfits
    · rw [Function.update_of_ne hba] at hb
      exact hj.cached b e' hb
  · rw [hcps, hdb]
    cases hcs : s.checkpoints with
    | nil => simp
    | cons c cs =>
      have hrc := hj.recorded
      rw [hcs] at hrc
      intro c' hc' b r hb
      rcases List.mem_cons.mp hc' with rfl | hc'
      · -- the record of `a` is the old one, or the entry as it was
        dsimp only at hb
        by_cases hba : b = a
        · subst hba
          rw [FunMap.orInsert_self] at hb
          cases hcb : c b with
          | some r' =>
            rw [hcb, Option.some_or] at hb
            exact hrc c (by simp) b r (hcb.trans hb)
          | none =>
            rw [hcb, Option.none_or, Option.some.injEq] at hb
            subst hb
            exact ⟨_, rfl, by simpa [AccountEntry.cloneDirty, he] using (hj.fits_lookup b).map_cloneDirty⟩
        · rw [FunMap.orInsert_ne _ hba] at hb
          exact hrc c (by simp) b r hb
      · exact hrc c' (by simp [hc']) b r hb
  · rw [hcps, hdb]
    exact hj.grows.orInsert hoff (by simp [hview]) hrec
  · rw [savedViews, savedViews, hcps, hdb]
    exact restoreAll_orInsert s.checkpoints hoff hrec

/-- `set_storage` keeps the invariant and what the checkpoints restore. -/
theorem Journaled.setStorage (hj : s.Journaled) {a : Address} {k v : H256} {s' : State}
    (h : (s.setStorage a k v : Outcome ε State) = .ok s') : s'.Journaled ∧ s'.savedViews = s.savedViews := by
  have hj₁ := hj.storageAt a k
  have hsv₁ := s.savedViews_storageAt a k
  unfold State.setStorage at h
  generalize hr : s.storageAt a k = r at h hj₁ hsv₁
  obtain ⟨current, s₁⟩ := r
  dsimp only at h hj₁ hsv₁
  split_ifs at h
  · -- a different word: `require` changes the account
    obtain ⟨e, he, hreq⟩ := requireOrFrom_pure (ε := ε) s₁ a
      (Account.newBasic 0 s₁.accountStartNonce) (·.setStorage k v)
    rw [require, hreq, Outcome.ok.injEq] at h
    subst h
    refine And.imp id (fun h => h.trans hsv₁)
      (hj₁.writeEntry ?_ he ?_ ?_ ((hj₁.fits_lookup a).require s₁.accountStartNonce k v))
    all_goals rfl
  · cases h
    exact ⟨hj₁, hsv₁⟩

theorem Journaled.checkpoint (hj : s.Journaled) : s.checkpoint.Journaled := by
  refine ⟨hj.cached, fun c hc => ?_, hj.grows.checkpoint⟩
  rcases List.mem_cons.mp hc with rfl | hc
  · exact fun _ _ h => absurd h (by simp)
  · exact hj.recorded c hc

theorem savedViews_checkpoint (s : State) : s.checkpoint.savedViews = s.view :: s.savedViews := rfl

theorem discardCheckpoint_db (s : State) : s.discardCheckpoint.db = s.db := by
  unfold discardCheckpoint
  split <;> rfl

theorem discardCheckpoint_cache (s : State) : s.discardCheckpoint.cache = s.cache := by
  unfold discardCheckpoint
  split <;> rfl

theorem checkpoints_discardCheckpoint (s : State) :
    s.discardCheckpoint.checkpoints = mergeTop s.checkpoints := by
  unfold discardCheckpoint
  split <;> rename_i hcps <;> simp [hcps, mergeTop]

theorem Journaled.discardCheckpoint (hj : s.Journaled) : s.discardCheckpoint.Journaled := by
  refine ⟨?_, fun c hc a r hr => ?_, ?_⟩
  · rw [discardCheckpoint_db, discardCheckpoint_cache]
    exact hj.cached
  · rw [checkpoints_discardCheckpoint] at hc
    obtain ⟨c₀, hc₀, hr₀⟩ := exists_of_mem_mergeTop hc hr
    rw [discardCheckpoint_db]
    exact hj.recorded c₀ hc₀ a r hr₀
  · rw [checkpoints_discardCheckpoint, discardCheckpoint_db, view_discardCheckpoint]
    exact hj.grows.mergeTop

theorem savedViews_discardCheckpoint (s : State) :
    s.discardCheckpoint.savedViews = s.savedViews.tail := by
  rw [savedViews, savedViews, checkpoints_discardCheckpoint, discardCheckpoint_db,
    view_discardCheckpoint, restoreAll_mergeTop]

theorem revertToCheckpoint_db (s : State) : s.revertToCheckpoint.db = s.db := by
  unfold revertToCheckpoint
  split <;> rfl

theorem checkpoints_revertToCheckpoint (s : State) :
    s.revertToCheckpoint.checkpoints = s.checkpoints.tail := by
  unfold revertToCheckpoint
  split <;> rename_i hcps <;> simp [hcps]

theorem revertToCheckpoint_of_cons {c : Checkpoint} {cs : List Checkpoint} (hcps : s.checkpoints = c :: cs) :
    s.revertToCheckpoint =
      { s with cache := fun a => revertEntry (c a) (s.cache a), checkpoints := cs } := by
  simp [revertToCheckpoint, hcps]

/-- An entry put back by a revert fits. -/
theorem Journaled.fits_revertEntry (hj : s.Journaled) {c : Checkpoint} (hc : c ∈ s.checkpoints)
    {a : Address} {e : AccountEntry} (he : revertEntry (c a) (s.cache a) = some e) :
    s.db.Fits a e.account := by
  cases hca : c a with
  | none =>
    rw [hca] at he
    exact hj.cached a e he
  | some r =>
    obtain ⟨v, rfl, hv⟩ := hj.recorded c hc a r hca
    rw [hca] at he
    cases hsa : s.cache a with
    | none =>
      rw [hsa] at he
      cases he
      exact hv
    | some e₀ =>
      rw [hsa] at he
      cases he
      exact (hj.cached a e₀ hsa).overwriteWith hv

/-- **Reverting restores the view the checkpoint saved.** Each address
recorded reads its record again: `overwrite_with` finds an account to merge
into where the record has one, and the account it merges into reads the
same trie. -/
theorem view_revertToCheckpoint (hj : s.Journaled) :
    s.revertToCheckpoint.view = s.savedViews.headD s.view := by
  cases hcps : s.checkpoints with
  | nil => simp [revertToCheckpoint, savedViews, hcps]
  | cons c cs =>
    have hg := hj.grows
    rw [hcps] at hg
    rw [revertToCheckpoint_of_cons hcps, savedViews, hcps, restoreAll, List.headD_cons]
    funext a
    simp only [view, lookup, loadAccount]
    cases hca : c a with
    | none => simp [restore, revertEntry, hca, view, lookup, loadAccount]
    | some r =>
      obtain ⟨v, rfl, hv⟩ := hj.recorded c (by simp [hcps]) a r hca
      rw [restore_of_some _ hca]
      cases hsa : s.cache a with
      | none => simp [revertEntry, recordView]
      | some e =>
        cases hva : v.account with
        | none => simp [revertEntry, AccountEntry.overwriteWith, recordView, hva]
        | some acc =>
          -- the journal grows, so the entry present holds an account
          have hpresent : (s.view a).isSome := hg.1 a (some v) hca (by simp [recordView, hva])
          obtain ⟨ours, hours⟩ : ∃ ours, e.account = some ours := by
            simpa [view, lookup, hsa, Option.isSome_iff_exists] using hpresent
          have hfo := hj.cached a e hsa
          rw [hours] at hfo
          rw [hva] at hv
          simp [revertEntry, AccountEntry.overwriteWith, recordView, hva, hours,
            Account.data_overwriteWith hfo.2 hv.2 (hfo.1.trans hv.1.symm)]

theorem Journaled.revertToCheckpoint (hj : s.Journaled) : s.revertToCheckpoint.Journaled := by
  have hview := view_revertToCheckpoint hj
  cases hcps : s.checkpoints with
  | nil =>
    have hs : s.revertToCheckpoint = s := by simp [State.revertToCheckpoint, hcps]
    rw [hs]
    exact hj
  | cons c cs =>
    have hg := hj.grows
    rw [hcps] at hg
    rw [savedViews, hcps, restoreAll, List.headD_cons, revertToCheckpoint_of_cons hcps] at hview
    rw [revertToCheckpoint_of_cons hcps]
    refine ⟨fun a e he => hj.fits_revertEntry (by simp [hcps]) he,
      fun c' hc' => hj.recorded c' (by simp [hcps, hc']), ?_⟩
    simpa only [hview] using hg.2

theorem savedViews_revertToCheckpoint (hj : s.Journaled) :
    s.revertToCheckpoint.savedViews = s.savedViews.tail := by
  rw [savedViews, checkpoints_revertToCheckpoint, revertToCheckpoint_db, view_revertToCheckpoint hj,
    savedViews]
  cases s.checkpoints <;> rfl

theorem journaled_fromExisting (db : Backend) (n : U256) : (fromExisting db n).Journaled :=
  ⟨fun _ _ h => by simp [fromExisting] at h, fun _ h => by simp [fromExisting] at h, trivial⟩

/-! ## Runs of storage accesses -/

/-- A storage access of an execution: `storage_at`, `set_storage`, or a
checkpoint opened, discarded or reverted to. -/
inductive Access where
  | read (a : Address) (k : H256)
  | write (a : Address) (k v : H256)
  | checkpoint
  | discardCheckpoint
  | revertToCheckpoint

/-- The accesses run in order on the state, with the words read. -/
def runAccesses (s : State) : List Access → Outcome ε (List H256 × State)
  | [] => .ok ([], s)
  | .read a k :: rest =>
    let (v, s) := s.storageAt a k
    do
      let (vs, s) ← runAccesses s rest
      pure (v :: vs, s)
  | .write a k v :: rest => do
    let s ← s.setStorage a k v
    runAccesses s rest
  | .checkpoint :: rest => runAccesses s.checkpoint rest
  | .discardCheckpoint :: rest => runAccesses s.discardCheckpoint rest
  | .revertToCheckpoint :: rest => runAccesses s.revertToCheckpoint rest

/-- The same accesses on a stack of maps of words by address and key. -/
def absAccesses (j : Journal (Address → H256 → H256)) :
    List Access → List H256 × Journal (Address → H256 → H256)
  | [] => ([], j)
  | .read a k :: rest => ((absAccesses j rest).1.cons (j.current a k), (absAccesses j rest).2)
  | .write a k v :: rest =>
    absAccesses ⟨fun b k' => if b = a ∧ k' = k then v else j.current b k', j.saved⟩ rest
  | .checkpoint :: rest => absAccesses j.checkpoint rest
  | .discardCheckpoint :: rest => absAccesses j.discard rest
  | .revertToCheckpoint :: rest => absAccesses j.revert rest

/-- The state refines the stack `j`: its storage is `j`'s current map, and
each checkpoint restores the map `j` saved for it. -/
abbrev RefinesStack (s : State) (j : Journal (Address → H256 → H256)) : Prop :=
  Refines (recordView s.db.storage) storageOfView s.checkpoints s.view j

/-- **Storage under checkpoints refines a stack of maps.** From a state
that keeps the invariant and refines the stack `j`, with the trie at the
empty root empty, any run of storage reads and writes, with checkpoints
opened, discarded and reverted to between them, never fails; every read
returns what the current map of the stack holds, and the state ends
refining the stack the run leaves. -/
theorem runAccesses_refines {s : State} (hj : s.Journaled) (hnull : s.NullEmpty)
    {j : Journal (Address → H256 → H256)} (hr : s.RefinesStack j) (acc : List Access) :
    ∃ s', (runAccesses s acc : Outcome ε (List H256 × State)) = .ok ((absAccesses j acc).1, s') ∧
      s'.Journaled ∧ s'.RefinesStack (absAccesses j acc).2 := by
  induction acc generalizing s j with
  | nil => exact ⟨s, rfl, hj, hr⟩
  | cons x rest ih =>
    cases x with
    | read a k =>
      -- a read returns the current word and changes no view and no checkpoint
      obtain ⟨hv, hview, hdb⟩ := s.storageAt_eq a k
      have hr₁ : (s.storageAt a k).2.RefinesStack j := by
        rw [RefinesStack, hdb, s.checkpoints_storageAt a k, hview]
        exact hr
      obtain ⟨s', hrun, hs'⟩ := ih (hj.storageAt a k) (by rw [NullEmpty, hdb]; exact hnull) hr₁
      refine ⟨s', ?_, hs'⟩
      simp only [runAccesses, hrun, Outcome.ok_bind, hv, absAccesses, ← hr.current]
      rfl
    | write a k v =>
      obtain ⟨t, ht, hdb, hof⟩ := setStorage_eq (ε := ε) hnull a k v
      obtain ⟨hjt, hsaved⟩ := hj.setStorage ht
      have hrt : t.RefinesStack
          ⟨fun b k' => if b = a ∧ k' = k then v else j.current b k', j.saved⟩ := by
        refine ⟨?_, ?_⟩
        · funext b k'
          rw [← hr.current]
          exact hof b k'
        · rw [← hr.saved]
          exact congrArg (List.map storageOfView) hsaved
      obtain ⟨s', hrun, hs'⟩ := ih hjt (by rw [NullEmpty, hdb]; exact hnull) hrt
      exact ⟨s', by rw [runAccesses, ht, Outcome.ok_bind, hrun, absAccesses], hs'⟩
    | checkpoint =>
      obtain ⟨s', hrun, hs'⟩ := ih hj.checkpoint hnull hr.checkpoint
      exact ⟨s', by rw [runAccesses, hrun, absAccesses], hs'⟩
    | discardCheckpoint =>
      have hr₁ : s.discardCheckpoint.RefinesStack j.discard := by
        rw [RefinesStack, discardCheckpoint_db, checkpoints_discardCheckpoint, view_discardCheckpoint]
        exact hr.discard
      obtain ⟨s', hrun, hs'⟩ := ih hj.discardCheckpoint
        (by rw [NullEmpty, discardCheckpoint_db]; exact hnull) hr₁
      exact ⟨s', by rw [runAccesses, hrun, absAccesses], hs'⟩
    | revertToCheckpoint =>
      have hr₁ : s.revertToCheckpoint.RefinesStack j.revert := by
        rw [RefinesStack, revertToCheckpoint_db, checkpoints_revertToCheckpoint,
          view_revertToCheckpoint hj]
        exact hr.revert
      obtain ⟨s', hrun, hs'⟩ := ih hj.revertToCheckpoint
        (by rw [NullEmpty, revertToCheckpoint_db]; exact hnull) hr₁
      exact ⟨s', by rw [runAccesses, hrun, absAccesses], hs'⟩

end State

/-! ## Over a `StateDB` that shares nothing -/

namespace StateOnDb

variable {ε : Type} {s : StateOnDb}

/-- The accesses run in order on a state over its `StateDB`, with the words
read. -/
def runAccesses (s : StateOnDb) : List State.Access → Outcome ε (List H256 × StateOnDb)
  | [] => .ok ([], s)
  | .read a k :: rest =>
    let (v, s) := s.storageAt a k
    do
      let (vs, s) ← runAccesses s rest
      pure (v :: vs, s)
  | .write a k v :: rest => do
    let s ← s.setStorage a k v
    runAccesses s rest
  | .checkpoint :: rest => runAccesses { s with state := s.state.checkpoint } rest
  | .discardCheckpoint :: rest => runAccesses { s with state := s.state.discardCheckpoint } rest
  | .revertToCheckpoint :: rest => runAccesses { s with state := s.state.revertToCheckpoint } rest

/-- With nothing shared, `set_storage` is `State`'s. -/
theorem setStorage_of_noShared (h : s.stateDb.NoShared) (a : Address) (key value : H256) :
    (s.setStorage a key value : Outcome ε StateOnDb) =
      (fun t => { s with state := t }) <$> s.state.setStorage a key value := by
  unfold setStorage State.setStorage
  rw [storageAt_of_noShared h]
  dsimp only
  split
  · -- a new value: the account is required, as `State` requires it
    rw [require, requireOrFrom_of_noShared (s := ⟨(s.state.storageAt a key).2, s.stateDb⟩) h,
      State.require, map_eq_pure_bind]
  · rfl

/-- With nothing shared, a run of accesses is `State`'s, and leaves the
`StateDB` as it was. -/
theorem runAccesses_of_noShared (h : s.stateDb.NoShared) (acc : List State.Access) :
    (s.runAccesses acc : Outcome ε (List H256 × StateOnDb)) =
      (fun r => (r.1, { s with state := r.2 })) <$> State.runAccesses s.state acc := by
  induction acc generalizing s with
  | nil => rfl
  | cons x rest ih =>
    cases x with
    | read a k =>
      -- the read is `State`'s and keeps the `StateDB`, so the rest runs as `State`'s
      rw [runAccesses, State.runAccesses, storageAt_of_noShared h]
      dsimp only
      rw [ih (s := ⟨(s.state.storageAt a k).2, s.stateDb⟩) h]
      cases State.runAccesses (s.state.storageAt a k).2 rest <;> rfl
    | write a k v =>
      rw [runAccesses, State.runAccesses, setStorage_of_noShared h]
      cases (s.state.setStorage a k v : Outcome ε State) with
      | ok t => exact ih h
      | err e => rfl
      | panic m => rfl
    | checkpoint => exact ih h
    | discardCheckpoint => exact ih h
    | revertToCheckpoint => exact ih h

/-- **Storage under checkpoints is a stack of maps.** A state that
`from_existing` opens over a `StateDB` whose shared cache answers nothing,
on a trie whose empty root is empty, runs any storage reads and writes,
with checkpoints opened, discarded and reverted to between them, without
failing: every read returns what the current map of the stack holds,
starting from the trie's storage, the storage the state ends with is the
current map, and the `StateDB` is left as it was. -/
theorem runAccesses_fromExisting (db : Backend) (stateDb : StateDb) (hshared : stateDb.NoShared)
    (n : U256) (hnull : ∀ k, db.storage hashNullRlp k = 0) (acc : List State.Access) :
    ∃ s', ((fromExisting db stateDb n).runAccesses acc : Outcome ε (List H256 × StateOnDb)) =
        .ok ((State.absAccesses ⟨(State.fromExisting db n).storageOf, []⟩ acc).1, s') ∧
      s'.state.storageOf = (State.absAccesses ⟨(State.fromExisting db n).storageOf, []⟩ acc).2.current ∧
      s'.stateDb = stateDb := by
  obtain ⟨t, hrun, -, ht⟩ := State.runAccesses_refines (ε := ε) (State.journaled_fromExisting db n) hnull
    (j := ⟨(State.fromExisting db n).storageOf, []⟩) ⟨rfl, rfl⟩ acc
  refine ⟨⟨t, stateDb⟩, ?_, ht.current, rfl⟩
  rw [runAccesses_of_noShared hshared]
  exact congrArg (Functor.map _) hrun

/-- Account 1 writes 7 at key 5, opens a checkpoint, writes 8 there and
reads it, reverts and reads 7 again; address 2, with no account, reads
zero. -/
theorem runAccesses_fromExisting_revert :
    ∃ s', ((fromExisting Backend.oneAccount (StateDb.new.boxedCloneCanon 0) 0).runAccesses
        [.write 1 5 7, .checkpoint, .write 1 5 8, .read 1 5, .revertToCheckpoint, .read 1 5, .read 2 5] :
          Outcome Empty (List H256 × StateOnDb)) = .ok ([8, 7, 0], s') := by
  obtain ⟨s', hrun, -⟩ := runAccesses_fromExisting (ε := Empty) Backend.oneAccount
    (StateDb.new.boxedCloneCanon 0) (StateDb.noShared_boxedCloneCanon_new 0) 0 (fun _ => rfl)
    [.write 1 5 7, .checkpoint, .write 1 5 8, .read 1 5, .revertToCheckpoint, .read 1 5, .read 2 5]
  have hreads : (State.absAccesses ⟨(State.fromExisting Backend.oneAccount 0).storageOf, []⟩
      [.write 1 5 7, .checkpoint, .write 1 5 8, .read 1 5, .revertToCheckpoint, .read 1 5, .read 2 5]).1 =
        [8, 7, 0] := by decide
  rw [hreads] at hrun
  exact ⟨s', hrun⟩

end StateOnDb

end Executor

end Cita
