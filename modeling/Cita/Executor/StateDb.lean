import Cita.Executor.State

/-!
# The shared account cache (`state_db.rs`)

Every `State` of the executor is opened on a clone of one `StateDB`
(`boxed_clone_canon(parent)`), and the clones share its account cache: a
map from addresses to accounts as the canonical chain left them (`None`
for none), with the recently committed blocks and the addresses each one
changed (`modifications`, newest first). A `State` asks the shared cache
when its own cache misses. `ensure_cached` answers from it without
caching locally, `require_or_from` takes the shared account's basic data
(`clone_basic`), and `storage_at` reads the key from the shared copy of
the account, which caches it there. `is_allowed` lets a clone read the
shared entry of an address only if no block after its parent changed it.

When a block is done, `State::drop` queues the local entries that were
committed or read fresh from the trie (`propagate_to_global_cache`),
`journal_under` names the committed block, and `sync_cache` merges the
queue into the shared cache. An entry already there and modified by the
block is overwritten with `Account::overwrite_with`, which keeps the
storage values it had cached.

The LRU map is read without its bound, and the queue of `CacheQueueItem`s
as a map from addresses, since `State::drop` queues each address once. The
code cache and the account bloom are left out, as in `State`.

`StateOnDb` is a `State` over a `StateDB`. With nothing in the shared
cache it runs as `State` does (`ensureCached_of_noShared`,
`storageAt_of_noShared`), and the account queries stay the same while
every shared entry holds what the trie holds (`queries_of_coherent`).
`storage_at`, though, asks the shared cache before the local account it
has found. A key the local account does not hold is read from the shared
copy of the account even when the block has replaced the local account.
-/

namespace Cita

namespace Executor

/-- `STATE_CACHE_BLOCKS`. -/
def stateCacheBlocks : Nat := 12

/-- `BlockChanges`; its set of modified addresses is a membership test. -/
structure BlockChanges where
  number : Nat
  hash : H256
  parent : H256
  accounts : Address → Bool
  isCanon : Bool

/-- `AccountCache`: the accounts of the canonical state, and the recent
blocks, newest first. -/
structure AccountCache where
  accounts : Address → Option (Option Account)
  modifications : List BlockChanges

/-- `CacheQueueItem`, without the address that keys the queue. -/
structure CacheQueueItem where
  account : Option Account
  modified : Bool

/-- `StateDB`: the shared account cache, the queue of local entries, and
the hashes of the parent and of the committed block. Its journal database
is the `Backend` of the states opened on it. -/
structure StateDb where
  accountCache : AccountCache
  localCache : Address → Option CacheQueueItem
  parentHash : Option H256
  commitHash : Option H256
  commitNumber : Option Nat

/-- `Account::clone_basic`: no storage cached or changed. -/
def Account.cloneBasic (acc : Account) : Account :=
  { acc with storageCache := fun _ => none, storageChanges := fun _ => none }

/-- `AccountEntry::new_clean_cached`. -/
def AccountEntry.newCleanCached (account : Option Account) : AccountEntry :=
  ⟨account, .cleanCached⟩

/-- The loop of `is_allowed` over the modifications, from the block
`parent`: it follows the parents up to a canonical block, and refuses an
address that a block on the way, or a later one, changed. -/
def isAllowedFrom (addr : Address) : H256 → List BlockChanges → Bool
  | _, [] => false
  | parent, m :: ms =>
      if m.hash = parent then
        if m.isCanon then true
        else if m.accounts addr then false
        else isAllowedFrom addr m.parent ms
      else if m.accounts addr then false
      else isAllowedFrom addr parent ms

/-- `is_allowed`. -/
def isAllowed (addr : Address) (parentHash : Option H256) (modifications : List BlockChanges) :
    Bool :=
  match parentHash with
  | none => false
  | some parent => if modifications.isEmpty then true else isAllowedFrom addr parent modifications

namespace StateDb

/-- `StateDB::new`: nothing cached. -/
def new : StateDb := ⟨⟨fun _ => none, []⟩, fun _ => none, none, none, none⟩

/-- `boxed_clone_canon(parent)`: the shared cache, an empty queue, and the
parent. -/
def boxedCloneCanon (db : StateDb) (parent : H256) : StateDb :=
  { db with localCache := fun _ => none, parentHash := some parent, commitHash := none,
            commitNumber := none }

/-- The hashes that `journal_under(batch, now, id)` records. -/
def journalUnder (db : StateDb) (now : Nat) (id : H256) : StateDb :=
  { db with commitHash := some id, commitNumber := some now }

/-- `add_to_account_cache`. -/
def addToAccountCache (db : StateDb) (addr : Address) (data : Option Account) (modified : Bool) :
    StateDb :=
  { db with localCache := Function.update db.localCache addr (some ⟨data, modified⟩) }

/-- Whether `addr` may be read from the shared cache. -/
def allowed (db : StateDb) (addr : Address) : Bool :=
  isAllowed addr db.parentHash db.accountCache.modifications

/-- `get_cached(a, f)`: `f` of the shared entry of an allowed address; `f`
may change the shared account, as a storage read caches its value. -/
def getCached {α : Type} (db : StateDb) (a : Address) (f : Option Account → α × Option Account) :
    Option α × StateDb :=
  if db.allowed a then
    match db.accountCache.accounts a with
    | some acc =>
        let (r, acc') := f acc
        (some r, { db with accountCache :=
          { db.accountCache with accounts := Function.update db.accountCache.accounts a (some acc') } })
    | none => (none, db)
  else (none, db)

/-- `get_cached_account`. -/
def getCachedAccount (db : StateDb) (addr : Address) : Option (Option Account) :=
  if db.allowed addr then (db.accountCache.accounts addr).map (·.map Account.cloneBasic) else none

/-- The shared step of `storage_at`: the value of `key` in the shared copy
of the account, read from its storage trie and cached there if need be;
zero when the shared cache knows of no account. -/
def storageAt (db : StateDb) (trie : H256 → H256 → H256) (address : Address) (key : H256) :
    Option H256 × StateDb :=
  db.getCached address fun
    | none => (0, none)
    | some a =>
        let (value, a) := a.storageAt trie key
        (value, some a)

end StateDb

/-! ## `sync_cache` -/

/-- The first modification of a block with hash `hash` gets `is_canon`, and
the addresses it changed are returned; `none` if no block has that hash. -/
def markModification (hash : H256) (isCanon : Bool) :
    List BlockChanges → Option (List BlockChanges × (Address → Bool))
  | [] => none
  | m :: ms =>
      if m.hash = hash then some ({ m with isCanon := isCanon } :: ms, m.accounts)
      else (markModification hash isCanon ms).map fun (ms, accounts) => (m :: ms, accounts)

/-- The loops of `sync_cache` over the enacted (`isCanon`) or retracted
blocks: each known block is marked and its addresses leave the cache, and
an unknown one sets `clear`, after which `clear || ..` skips the rest. -/
def markBlocks (isCanon : Bool) : Bool → AccountCache → List H256 → Bool × AccountCache
  | true, c, _ => (true, c)
  | false, c, [] => (false, c)
  | false, c, b :: bs =>
      match markModification b isCanon c.modifications with
      | some (ms, changed) =>
          markBlocks isCanon false
            ⟨fun a => if changed a then none else c.accounts a, ms⟩ bs
      | none => markBlocks isCanon true c bs

/-- The body of the loop over the queue for an entry of the best block: a
shared account is overwritten with a modified one and kept otherwise;
anything else is inserted. -/
def mergeEntry (cached : Option (Option Account)) (item : CacheQueueItem) : Option (Option Account) :=
  match cached, item.account with
  | some (some existing), some new => some (some (if item.modified then existing.overwriteWith new else existing))
  | _, acc => some acc

/-- `modifications.insert(insert_at, ..)` at the first block of a lower
number, or `push_back`. -/
def insertModification (b : BlockChanges) : List BlockChanges → List BlockChanges
  | [] => [b]
  | m :: ms => if m.number < b.number then b :: m :: ms else m :: insertModification b ms

namespace StateDb

/-- `sync_cache(enacted, retracted, is_best)`. -/
def syncCache (db : StateDb) (enacted retracted : List H256) (isBest : Bool) : StateDb :=
  let enacted := enacted.filter fun h => db.commitHash.elim true (h ≠ ·)
  let (clear, cache) := markBlocks true false db.accountCache enacted
  let (clear, cache) := markBlocks false clear cache retracted
  let cache : AccountCache := if clear then ⟨fun _ => none, []⟩ else cache
  match db.commitNumber, db.commitHash, db.parentHash with
  | some number, some hash, some parent =>
      let modifications :=
        if cache.modifications.length = stateCacheBlocks then cache.modifications.dropLast
        else cache.modifications
      let accounts := fun a =>
        match db.localCache a with
        | some item => if isBest then mergeEntry (cache.accounts a) item else cache.accounts a
        | none => cache.accounts a
      let changes : BlockChanges :=
        ⟨number, hash, parent, fun a => (db.localCache a).any (·.modified), isBest⟩
      { db with accountCache := ⟨accounts, insertModification changes modifications⟩,
                localCache := fun _ => none }
  | _, _, _ => { db with accountCache := cache }

end StateDb

/-- `propagate_to_global_cache`, run by `State::drop`: the entries that were
committed or read fresh are queued, with whether they were committed. -/
def State.propagateToGlobalCache (s : State) (db : StateDb) : StateDb :=
  { db with localCache := fun a =>
      match s.cache a with
      | some e =>
          if e.state = .committed ∨ e.state = .cleanFresh then some ⟨e.account, e.state = .committed⟩
          else db.localCache a
      | none => db.localCache a }

/-! ## A state over a `StateDB` -/

/-- A `State<StateDB>`: the state over the trie at its root, and the clone
of `StateDB` whose shared cache it reads. -/
structure StateOnDb where
  state : State
  stateDb : StateDb

namespace StateOnDb

variable {ε : Type}

/-- `State::from_existing(db, root, account_start_nonce)`. -/
def fromExisting (backend : Backend) (db : StateDb) (accountStartNonce : U256) : StateOnDb :=
  ⟨State.fromExisting backend accountStartNonce, db⟩

/-- `ensure_cached(a, .., f)`: the local entry; else the shared entry,
which is not copied to the local cache; else the trie's account, cached as
clean. -/
def ensureCached {α : Type} (s : StateOnDb) (a : Address) (f : Option Account → α) :
    α × StateOnDb :=
  match s.state.cache a with
  | some maybeAcc => (f maybeAcc.account, s)
  | none =>
      match s.stateDb.getCached a fun acc => (f acc, acc) with
      | (some r, stateDb) => (r, { s with stateDb := stateDb })
      | (none, _) =>
          let (r, state) := s.state.ensureCached a f
          (r, { s with state := state })

/-- `exists`. -/
def «exists» (s : StateOnDb) (a : Address) : Bool × StateOnDb :=
  s.ensureCached a Option.isSome

/-- `balance`. -/
def balance (s : StateOnDb) (a : Address) : U256 × StateOnDb :=
  s.ensureCached a fun acc => acc.elim 0 Account.balance

/-- `nonce`. -/
def nonce (s : StateOnDb) (a : Address) : U256 × StateOnDb :=
  s.ensureCached a fun acc => acc.elim s.state.accountStartNonce Account.nonce

/-- `code`. -/
def code (s : StateOnDb) (a : Address) : Option Bytes × StateOnDb :=
  s.ensureCached a fun acc => acc.map Account.code

/-- `abi`. -/
def abi (s : StateOnDb) (a : Address) : Option Bytes × StateOnDb :=
  s.ensureCached a fun acc => acc.map Account.abi

/-- `storage_at` past the local values: the shared copy of the account;
else what `State::storage_at` reads without a shared cache, the local
account's storage trie or the trie's account, loaded as clean. -/
def storageAtShared (s : StateOnDb) (address : Address) (key : H256) : H256 × StateOnDb :=
  match s.stateDb.storageAt s.state.db.storage address key with
  | (some value, stateDb) => (value, { s with stateDb := stateDb })
  | (none, _) =>
      let (value, state) := s.state.storageAt address key
      (value, { s with state := state })

/-- `storage_at`: a value the local account holds, or zero for a local
entry without account; otherwise the shared cache is asked first. -/
def storageAt (s : StateOnDb) (address : Address) (key : H256) : H256 × StateOnDb :=
  match (s.state.cache address).map AccountEntry.account with
  | some none => (0, s)
  | some (some account) =>
      match account.cachedStorageAt key with
      | some value => (value, s)
      | none => s.storageAtShared address key
  | none => s.storageAtShared address key

/-- `require_or_from`: an entry missing locally is taken from the shared
cache (`clone_basic`, as clean and cached) or from the trie, and then
changed as `State::require_or_from` changes a cached entry. -/
def requireOrFrom (s : StateOnDb) (a : Address) (default : Account)
    (f : Account → Outcome ε Account) : Outcome ε StateOnDb := do
  let state :=
    if (s.state.cache a).isSome then s.state
    else match s.stateDb.getCachedAccount a with
      | some acc => s.state.insertCache a (AccountEntry.newCleanCached acc)
      | none => s.state.insertCache a (AccountEntry.newClean (s.state.loadAccount a))
  let state ← state.requireOrFrom a default f
  pure { s with state := state }

/-- `require`. -/
def require (s : StateOnDb) (a : Address) (f : Account → Outcome ε Account) :
    Outcome ε StateOnDb :=
  s.requireOrFrom a (Account.newBasic 0 s.state.accountStartNonce) f

/-- `touch`. -/
def touch (s : StateOnDb) (a : Address) : Outcome ε StateOnDb :=
  s.require a pure

/-- `add_balance`. -/
def addBalance (s : StateOnDb) (a : Address) (incr : U256) : Outcome ε StateOnDb :=
  if incr ≠ 0 then s.require a (·.addBalance incr)
  else
    let (e, s) := s.exists a
    if e then s.touch a else pure s

/-- `sub_balance`. -/
def subBalance (s : StateOnDb) (a : Address) (decr : U256) : Outcome ε StateOnDb :=
  if decr ≠ 0 then s.require a (·.subBalance decr)
  else
    let (e, s) := s.exists a
    if !e then s.require a (·.subBalance decr) else pure s

/-- `transfer_balance`. -/
def transferBalance (s : StateOnDb) (source target : Address) (by_ : U256) :
    Outcome ε StateOnDb := do
  let s ← s.subBalance source by_
  s.addBalance target by_

/-- `set_storage`. -/
def setStorage (s : StateOnDb) (a : Address) (key value : H256) : Outcome ε StateOnDb :=
  let (current, s) := s.storageAt a key
  if current ≠ value then s.require a fun acc => pure (acc.setStorage key value) else pure s

/-- `new_contract`. -/
def newContract (s : StateOnDb) (contract : Address) (balance nonceOffset : U256) :
    Outcome ε StateOnDb := do
  let state ← s.state.newContract contract balance nonceOffset
  pure { s with state := state }

/-- `kill_account`. -/
def killAccount (s : StateOnDb) (account : Address) : StateOnDb :=
  { s with state := s.state.killAccount account }

/-- `init_code`. -/
def initCode (s : StateOnDb) (a : Address) (code : Bytes) : Outcome ε StateOnDb :=
  s.requireOrFrom a (Account.newContract 0 s.state.accountStartNonce) fun acc => pure (acc.initCode code)

/-- `commit`. -/
def commit (rootOf : (H256 → H256) → H256) (s : StateOnDb) (keys : List Address) :
    Outcome ε StateOnDb := do
  let state ← s.state.commit rootOf keys
  pure { s with state := state }

/-- `State::drop`: the trie at the state's root, and the `StateDB` with the
local entries queued. -/
def drop (s : StateOnDb) : Backend × StateDb :=
  (s.state.db, s.state.propagateToGlobalCache s.stateDb)

end StateOnDb

/-! ## With nothing in the shared cache -/

namespace StateDb

/-- The shared cache answers nothing: every address is refused or unknown. -/
def NoShared (db : StateDb) : Prop :=
  ∀ a, db.allowed a = false ∨ db.accountCache.accounts a = none

variable {db : StateDb}

theorem getCached_of_noShared (h : db.NoShared) {α : Type} (a : Address)
    (f : Option Account → α × Option Account) : db.getCached a f = (none, db) := by
  unfold getCached
  rcases h a with ha | ha <;> simp [ha]

theorem getCachedAccount_of_noShared (h : db.NoShared) (a : Address) :
    db.getCachedAccount a = none := by
  unfold getCachedAccount
  rcases h a with ha | ha <;> simp [ha]

theorem noShared_boxedCloneCanon_new (parent : H256) : (new.boxedCloneCanon parent).NoShared :=
  fun _ => .inr rfl

end StateDb

namespace StateOnDb

variable {ε α : Type} {s : StateOnDb}

/-- With nothing shared, `ensure_cached` is `State`'s. -/
theorem ensureCached_of_noShared (h : s.stateDb.NoShared) (a : Address) (f : Option Account → α) :
    s.ensureCached a f =
      ((s.state.ensureCached a f).1, { s with state := (s.state.ensureCached a f).2 }) := by
  unfold ensureCached
  cases hc : s.state.cache a with
  | some e => simp [State.ensureCached, hc]
  | none => simp [StateDb.getCached_of_noShared h]

/-- With nothing shared, `storage_at` is `State`'s. -/
theorem storageAt_of_noShared (h : s.stateDb.NoShared) (a : Address) (key : H256) :
    s.storageAt a key =
      ((s.state.storageAt a key).1, { s with state := (s.state.storageAt a key).2 }) := by
  have hshared : s.storageAtShared a key =
      ((s.state.storageAt a key).1, { s with state := (s.state.storageAt a key).2 }) := by
    simp [storageAtShared, StateDb.storageAt, StateDb.getCached_of_noShared h]
  unfold storageAt
  cases hc : s.state.cache a with
  | none => exact hshared
  | some e =>
    cases hacc : e.account with
    | none => simp [State.storageAt, hc, hacc]
    | some acc =>
      cases hv : acc.cachedStorageAt key with
      | some v => simp [State.storageAt, hc, hacc, hv]
      | none =>
        simp only [Option.map_some, hacc, hv]
        exact hshared

/-- With nothing shared, `require_or_from` is `State`'s. -/
theorem requireOrFrom_of_noShared (h : s.stateDb.NoShared) (a : Address) (default : Account)
    (f : Account → Outcome ε Account) :
    s.requireOrFrom a default f =
      (s.state.requireOrFrom a default f >>= fun state => pure { s with state := state }) := by
  unfold requireOrFrom
  rw [StateDb.getCachedAccount_of_noShared h]
  cases hc : s.state.cache a with
  | some e => rfl
  | none =>
    simp only [Option.isSome_none, Bool.false_eq_true, if_false,
      State.requireOrFrom_insertCache_newClean s.state a default f hc]

/-- Every shared entry the state may read holds, as far as a query sees,
what the trie at the state's root holds. -/
def Coherent (s : StateOnDb) : Prop :=
  ∀ a acc, s.stateDb.allowed a = true → s.stateDb.accountCache.accounts a = some acc →
    acc.map (Account.data s.state.db.storage) =
      (s.state.loadAccount a).map (Account.data s.state.db.storage)

end StateOnDb

theorem insertModification_of_lt {b : BlockChanges} {ms : List BlockChanges}
    (h : ∀ m ∈ ms, m.number < b.number) : insertModification b ms = b :: ms := by
  cases ms with
  | nil => rfl
  | cons m ms => simp [insertModification, h m (List.mem_cons_self ..)]

/-- A block committed as best over blocks of lower numbers goes first, as
canonical, so a state opened on it may read every address from the shared
cache. -/
theorem allowed_syncCache (db : StateDb) (parent hash : H256) (number : Nat)
    (h : ∀ m ∈ db.accountCache.modifications, m.number < number) (a : Address) :
    ((((db.boxedCloneCanon parent).journalUnder number hash).syncCache [] [] true).boxedCloneCanon
      hash).allowed a = true := by
  have hms : ∀ m ∈ (if db.accountCache.modifications.length = stateCacheBlocks then
      db.accountCache.modifications.dropLast else db.accountCache.modifications), m.number < number := by
    split
    · exact fun m hm => h m (List.dropLast_subset _ hm)
    · exact h
  simp only [StateDb.allowed, StateDb.syncCache, StateDb.journalUnder, StateDb.boxedCloneCanon,
    List.filter_nil, markBlocks, Bool.false_eq_true, if_false]
  rw [insertModification_of_lt hms]
  simp [isAllowed, isAllowedFrom]

/-! ## The genesis block -/

/-- The empty trie: no account, and every storage trie empty. -/
def Backend.empty : Backend := ⟨fun _ => none, fun _ _ => 0⟩

/-- A contract of the genesis spec (`spec.alloc`), its storage map a list. -/
structure GenesisContract where
  address : Address
  code : Bytes
  value : Option U256
  storage : List (H256 × H256)

namespace StateOnDb

/-- The first loop of `lazy_execute`, for one contract: `new_contract`,
`init_code`, the balance, and every storage value. -/
def allocContract (s : StateOnDb) (c : GenesisContract) : Outcome Empty StateOnDb := do
  let s ← s.newContract c.address 0 0
  let s ← s.initCode c.address c.code
  let s ← match c.value with
    | some value => s.addBalance c.address value
    | none => pure s
  c.storage.foldlM (fun s (key, value) => s.setStorage c.address key value) s

/-- The second loop of `lazy_execute`, for one contract: every stored
value reads back. -/
def checkStorage (s : StateOnDb) (c : GenesisContract) : Outcome Empty StateOnDb :=
  c.storage.foldlM (fun s (key, value) => do
    let (result, s) := s.storageAt c.address key
    Outcome.assert (value == result) "assertion failed: `(left == right)`"
    pure s) s

end StateOnDb

/-- `Genesis::lazy_execute` and `save`: the contracts are set up on the
empty trie under a clone of `stateDb` over `prevhash`, committed (the state
holds the addresses of `alloc` only) and read back; the state is dropped
and the block, of number 0 and hash `hash`, synchronised as best. -/
def lazyExecute (rootOf : (H256 → H256) → H256) (stateDb : StateDb) (prevhash hash : H256)
    (alloc : List GenesisContract) : Outcome Empty (Backend × StateDb) := do
  let s := StateOnDb.fromExisting Backend.empty (stateDb.boxedCloneCanon prevhash) 0
  let s ← alloc.foldlM StateOnDb.allocContract s
  let s ← s.commit rootOf (alloc.map (·.address))
  let s ← alloc.foldlM StateOnDb.checkStorage s
  let (backend, stateDb) := s.drop
  pure (backend, (stateDb.journalUnder 0 hash).syncCache [] [] true)

/-! ## A contract destroyed and refunded -/

/-- The contract at address 1 holds 7 at key 0 and its code is
`SELFDESTRUCT`; account 2 holds 1000. -/
def GenesisContract.killable : List GenesisContract :=
  [⟨1, [0xff], none, [(0, 7)]⟩, ⟨2, [], some 1000, []⟩]

/-- The storage roots of this run: the empty trie's, and one more for the
only other trie it builds. -/
def rootOfRun (contents : H256 → H256) : H256 := if contents 0 = 0 then hashNullRlp else 1

/-- The genesis block, of hash 1 over the hash 0. -/
def genesisKillable : Outcome Empty (Backend × StateDb) :=
  lazyExecute rootOfRun StateDb.new 0 1 GenesisContract.killable

/-- What block 1 does to its state: the contract at 1 destroyed itself in
the first transaction (`kill_account` in `finalize`), and the second sends
1 from account 2 to address 1 (`transfer_balance` in `call`). -/
def StateOnDb.killThenFund (s : StateOnDb) : Outcome Empty StateOnDb :=
  (s.killAccount 1).transferBalance 2 1 1

/-- Block 1, of hash 2, executed on the genesis block, committed (its state
holds addresses 1 and 2) and synchronised as best, as `write_batch` does. -/
def blockOneKillable (g : Backend × StateDb) : Outcome Empty (Backend × StateDb) := do
  let s ← (StateOnDb.fromExisting g.1 (g.2.boxedCloneCanon 1) 0).killThenFund
  let s ← s.commit rootOfRun [1, 2]
  let (backend, stateDb) := s.drop
  pure (backend, (stateDb.journalUnder 1 2).syncCache [] [] true)

theorem storageAt_reads_replaced_account :
    ((fun g : Backend × StateDb =>
        ((fun s : StateOnDb => (s.storageAt 1 0).1) <$>
            (StateOnDb.fromExisting g.1 (g.2.boxedCloneCanon 1) 0).killThenFund,
          (fun s : StateOnDb => (s.storageAt 1 0).1) <$>
            (StateOnDb.fromExisting g.1 (StateDb.new.boxedCloneCanon 1) 0).killThenFund)) <$>
        genesisKillable) = .ok (.ok 7, .ok 0) ∧
    ((fun g : Backend × StateDb =>
        (((StateOnDb.fromExisting g.1 (g.2.boxedCloneCanon 2) 0).storageAt 1 0).1,
          ((StateOnDb.fromExisting g.1 (StateDb.new.boxedCloneCanon 2) 0).storageAt 1 0).1)) <$>
        (genesisKillable >>= blockOneKillable)) = .ok (7, 0) := by
  constructor
  · decide +kernel
  · decide +kernel

end Executor

end Cita
