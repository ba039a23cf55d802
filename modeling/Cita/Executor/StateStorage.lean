import Cita.Executor.State
import Cita.Lib.Store

/-!
# The storage of the state is a store (`State::storage_at`, `State::set_storage`)

`storage_at` answers from the caches when it can and otherwise reads the
storage trie of the account, caching what it read; the caches hold what
the trie holds, so the view of the state does not change
(`storageAt_eq`). `set_storage` reads the key first and, when the value
differs, changes the account through `require`, which creates a basic
account, with the empty storage root, for an address with none
(`setStorage_eq`).

So the storage read through the view (`State.storageOf`) is a store of
words by address and key (`isStore_setStorage`), when the trie at the
empty root is empty (`NullEmpty`), as it is in the database and as
nothing here changes.
-/

namespace Cita

namespace Executor

/-- The word at key `k` of address `a` as the queries read it: the key of
the account seen, or zero for an address without account. -/
def State.storageOf (s : State) (a : Address) (k : H256) : H256 :=
  (s.view a).elim 0 fun d => d.storage k

/-- The trie at the empty root, where a new account's storage starts, is
empty. -/
def State.NullEmpty (s : State) : Prop := ∀ k, s.db.storage hashNullRlp k = 0

namespace Account

variable (trie : H256 → H256 → H256)

/-- `storage_at` of an account reads its data, and what it caches the data
reads already. -/
theorem storageAt_data (acc : Account) (k : H256) :
    (acc.storageAt trie k).1 = (acc.data trie).storage k ∧
      (acc.storageAt trie k).2.data trie = acc.data trie := by
  unfold storageAt
  split
  · rename_i v hv
    exact ⟨by simp [data, hv], rfl⟩
  · rename_i hv
    refine ⟨by simp [data, hv], ?_⟩
    -- the cache now holds at `k` the trie's value, which the data read there anyway
    simp only [data, AccountData.mk.injEq, true_and]
    funext k'
    by_cases hk : k' = k
    · subst hk
      simp only [cachedStorageAt, Option.or_eq_none_iff] at hv
      simp [cachedStorageAt, hv.1, hv.2]
    · simp [cachedStorageAt, Function.update_of_ne hk]

/-- `set_storage` of an account changes its data at the key alone. -/
theorem setStorage_data (acc : Account) (k v : H256) :
    (acc.setStorage k v).data trie =
      { acc.data trie with storage := Function.update (acc.data trie).storage k v } := by
  simp only [data, setStorage, AccountData.mk.injEq, true_and]
  funext k'
  by_cases hk : k' = k
  · subst hk
    simp [cachedStorageAt]
  · simp [cachedStorageAt, Function.update_of_ne hk]

end Account

namespace State

variable {ε : Type}

@[simp] theorem noteCache_cache (s : State) (a : Address) : (s.noteCache a).cache = s.cache := by
  unfold noteCache
  split <;> rfl

@[simp] theorem noteCache_db (s : State) (a : Address) : (s.noteCache a).db = s.db := by
  unfold noteCache
  split <;> rfl

/-- The entries loaded and changed at `a` alone: what is seen changes at `a`
alone. -/
theorem lookup_of_cache_eq {s t : State} (hdb : t.db = s.db) {a : Address} {e : AccountEntry}
    (hc : t.cache = Function.update s.cache a (some e)) :
    t.lookup = Function.update s.lookup a e.account := by
  funext b
  by_cases hb : b = a
  · subst hb
    simp [lookup, hc]
  · rw [Function.update_of_ne hb]
    simp only [lookup, loadAccount, hc, hdb, Function.update_of_ne hb]

theorem view_of_cache_eq {s t : State} (hdb : t.db = s.db) {a : Address} {e : AccountEntry}
    (hc : t.cache = Function.update s.cache a (some e)) :
    t.view = Function.update s.view a (e.account.map (Account.data s.db.storage)) := by
  funext b
  by_cases hb : b = a
  · subst hb
    simp [view, lookup_of_cache_eq hdb hc, hdb]
  · simp [view, lookup_of_cache_eq hdb hc, hdb, Function.update_of_ne hb]

theorem insertCache_newClean (s : State) (a : Address) (acc : Option Account) :
    s.insertCache a (AccountEntry.newClean acc) =
      { s with cache := Function.update s.cache a (some (AccountEntry.newClean acc)) } := by
  simp [insertCache, AccountEntry.newClean, AccountEntry.isDirty]

/-- What `storage_at` does: it returns the word seen, and either changes
nothing or caches at `a` the account seen there with the word read (and no
account where none is seen). -/
theorem storageAt_spec (s : State) (a : Address) (k : H256) :
    (s.storageAt a k).1 = s.storageOf a k ∧ ((s.storageAt a k).2 = s ∨
      ∃ e : AccountEntry, (s.storageAt a k).2 = { s with cache := Function.update s.cache a (some e) } ∧
        e.account = (s.lookup a).map fun acc => (acc.storageAt s.db.storage k).2) := by
  cases hentry : s.cache a with
  | some entry =>
    cases hacc : entry.account with
    | none =>
      have hsa : s.storageAt a k = (0, s) := by simp only [storageAt, hentry, hacc]
      rw [hsa]
      exact ⟨by simp [storageOf, view, lookup, hentry, hacc], .inl rfl⟩
    | some acc =>
      have hread := (Account.storageAt_data s.db.storage acc k).1
      cases hc : acc.cachedStorageAt k with
      | some v =>
        have hsa : s.storageAt a k = (v, s) := by simp only [storageAt, hentry, hacc, hc]
        rw [hsa]
        exact ⟨by simp [storageOf, view, lookup, hentry, hacc, Account.data, hc], .inl rfl⟩
      | none =>
        -- the account with its cache filled replaces the account in its entry
        have hsa : s.storageAt a k = ((acc.storageAt s.db.storage k).1,
            { s with
              cache := Function.update s.cache a
                (some { entry with account := some (acc.storageAt s.db.storage k).2 }) }) := by
          simp only [storageAt, hentry, hacc, hc, Account.storageAt]
        rw [hsa]
        exact ⟨by simpa [storageOf, view, lookup, hentry, hacc] using hread,
          .inr ⟨_, rfl, by simp [lookup, hentry, hacc]⟩⟩
  | none =>
    cases hacc : s.loadAccount a with
    | none =>
      have hsa : s.storageAt a k = (0, s.insertCache a (AccountEntry.newClean none)) := by
        simp only [storageAt, hentry, hacc]
      rw [hsa, insertCache_newClean]
      exact ⟨by simp [storageOf, view, lookup, hentry, hacc],
        .inr ⟨_, rfl, by simp [lookup, hentry, hacc, AccountEntry.newClean]⟩⟩
    | some acc =>
      -- the trie's account, with its cache filled, is cached as clean
      have hread := (Account.storageAt_data s.db.storage acc k).1
      have hsa : s.storageAt a k = ((acc.storageAt s.db.storage k).1,
          s.insertCache a (AccountEntry.newClean (some (acc.storageAt s.db.storage k).2))) := by
        simp only [storageAt, hentry, hacc, Account.storageAt]
      rw [hsa, insertCache_newClean]
      exact ⟨by simpa [storageOf, view, lookup, hentry, hacc] using hread,
        .inr ⟨_, rfl, by simp [lookup, hentry, hacc, AccountEntry.newClean]⟩⟩

/-- `storage_at` returns the word the view holds and leaves the view and
the database as they were. -/
theorem storageAt_eq (s : State) (a : Address) (k : H256) :
    (s.storageAt a k).1 = s.storageOf a k ∧ (s.storageAt a k).2.view = s.view ∧
      (s.storageAt a k).2.db = s.db := by
  obtain ⟨hv, hs | ⟨e, hs, he⟩⟩ := s.storageAt_spec a k
  · rw [hs]
    exact ⟨hv, rfl, rfl⟩
  · -- the account cached reads as the account seen did
    have hdata : e.account.map (Account.data s.db.storage) = s.view a := by
      rw [he, view]
      cases s.lookup a with
      | none => rfl
      | some acc => simp [(Account.storageAt_data s.db.storage acc k).2]
    have hview := view_of_cache_eq (s := s) (t := (s.storageAt a k).2) (by rw [hs]) (by rw [hs])
    exact ⟨hv, by rw [hview, hdata, Function.update_eq_self], by rw [hs]⟩

/-- `require_or_from` with a change `g` that cannot fail: the entry at `a`
holds, dirty, the account seen there, or `default`, changed; the innermost
checkpoint records the entry as it was, unless it has recorded `a` already. -/
theorem requireOrFrom_pure (s : State) (a : Address) (default : Account) (g : Account → Account) :
    ∃ e : AccountEntry, e.account = s.lookup a ∧
      (s.requireOrFrom a default (fun acc => pure (g acc)) : Outcome ε State) = .ok
        { s with
          cache := Function.update s.cache a (some ⟨some (g ((s.lookup a).getD default)), .dirty⟩)
          checkpoints := s.checkpoints.modifyHead fun c => FunMap.orInsert c a (some e.cloneDirty) } := by
  -- the entry changed: the one cached, or the one loaded beforehand
  cases hentry : s.cache a with
  | some e =>
    refine ⟨e, by simp [lookup, hentry], ?_⟩
    cases hcp : s.checkpoints <;> simp [requireOrFrom, noteCache, hentry, hcp, lookup]
  | none =>
    refine ⟨AccountEntry.newClean (s.loadAccount a), by simp [lookup, hentry, AccountEntry.newClean], ?_⟩
    simp only [requireOrFrom, hentry, Option.isSome_none, Bool.false_eq_true, if_false,
      insertCache_newClean]
    cases hcp : s.checkpoints <;> simp [noteCache, lookup, hentry, AccountEntry.newClean]

/-- `set_storage` never fails: afterwards the key written reads the value
and every other key of every address reads as before, when the trie at the
empty root is empty. -/
theorem setStorage_eq {s : State} (hnull : s.NullEmpty) (a : Address) (k v : H256) :
    ∃ s', (s.setStorage a k v : Outcome ε State) = .ok s' ∧ s'.db = s.db ∧
      ∀ b k', s'.storageOf b k' = if b = a ∧ k' = k then v else s.storageOf b k' := by
  obtain ⟨hcur, hview, hdb⟩ := s.storageAt_eq a k
  unfold setStorage
  generalize hr : s.storageAt a k = r at hcur hview hdb
  obtain ⟨current, s₁⟩ := r
  dsimp only at hcur hview hdb ⊢
  have hof : ∀ b k', s₁.storageOf b k' = s.storageOf b k' := fun b k' => by
    rw [storageOf, storageOf, hview]
  by_cases heq : current = v
  · -- the word is already there: only the caches of the read changed
    refine ⟨s₁, by rw [if_neg (by simpa using heq)]; rfl, hdb, fun b k' => ?_⟩
    by_cases hbk : b = a ∧ k' = k
    · obtain ⟨rfl, rfl⟩ := hbk
      rw [if_pos ⟨rfl, rfl⟩, hof, ← hcur, heq]
    · rw [if_neg hbk, hof]
  · obtain ⟨e, -, hreq⟩ := requireOrFrom_pure (ε := ε) s₁ a
      (Account.newBasic 0 s₁.accountStartNonce) (·.setStorage k v)
    refine ⟨_, by rw [if_pos heq]; exact hreq, by exact hdb, fun b k' => ?_⟩
    have hlookup := lookup_of_cache_eq (s := s₁) (t := { s₁ with
      cache := Function.update s₁.cache a (some ⟨some (((s₁.lookup a).getD
        (Account.newBasic 0 s₁.accountStartNonce)).setStorage k v), .dirty⟩)
      checkpoints := s₁.checkpoints.modifyHead fun c => FunMap.orInsert c a (some e.cloneDirty) })
      rfl rfl
    by_cases hb : b = a
    · subst hb
      -- the account seen, or a new basic one reading zero everywhere, changed at `k`
      have hbase : ∀ k'', ((((s₁.lookup b).getD (Account.newBasic 0 s₁.accountStartNonce)).data
          s.db.storage).storage k'') = s.storageOf b k'' := fun k'' => by
        rw [← hof, storageOf, view, hdb]
        cases s₁.lookup b with
        | some acc => rfl
        | none => simpa [Account.data, Account.newBasic, Account.cachedStorageAt] using hnull k''
      simp only [storageOf, view]
      rw [hlookup]
      simp only [Function.update_self, Option.map_some, Option.elim_some, hdb, Account.setStorage_data]
      by_cases hk : k' = k
      · subst hk
        simp
      · rw [Function.update_of_ne hk, hbase, if_neg (by tauto)]
        rfl
    · rw [if_neg (by tauto), ← hof, storageOf, storageOf, view, view, hlookup,
        Function.update_of_ne hb]

/-! ## The state as a store -/

/-- A `set_storage` of `v` at an address and key that went through, from
a state whose trie at the empty root is empty. -/
def SetsStorage (s : State) (ak : Address × H256) (v : H256) (s' : State) : Prop :=
  s.NullEmpty ∧ (s.setStorage ak.1 ak.2 v : Outcome Empty State) = .ok s'

/-- The storage of the state is a store of words by address and key. -/
theorem isStore_setStorage : IsStore (fun s (ak : Address × H256) => s.storageOf ak.1 ak.2)
    SetsStorage id := by
  rintro s s' ⟨a, k⟩ v ⟨hnull, h⟩ ⟨b, k'⟩
  obtain ⟨t, ht, -, hof⟩ := setStorage_eq (ε := Empty) hnull a k v
  rw [h] at ht
  cases ht
  simp only [hof, Prod.mk.injEq, id]

end State

end Executor

end Cita
