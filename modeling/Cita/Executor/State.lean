import Cita.Evm.Types
import Cita.Lib.FunMap

/-!
# The account state of the executor (`state/mod.rs`, `state/account.rs`)

`State` reads accounts from the account trie at its root and keeps what
it has read or changed in a local `cache` of `AccountEntry`s: an account,
or `None` for an address known to hold none, with a modification state.
Changes go through `require_or_from`, which loads the entry, records it in
the innermost checkpoint (`note_cache`) and marks it dirty; `new_contract`
and `kill_account` put a dirty entry in place through `insert_cache`, which
records what was there before.

A checkpoint maps addresses to what their entry was when it was first
changed after the checkpoint: `Some(entry)`, or `None` for no entry.
`revert_to_checkpoint` puts those back through
`AccountEntry::overwrite_with`, which keeps the storage cache of the entry
it overwrites and, when that entry holds no account, keeps holding none.

The model reads the `HashMap`s as functions (`Cita.FunMap`); every loop of
the source over a map acts on each key by itself. The code and ABI caches
of an account are always filled, since every query asks for them first,
and the storage cache is unbounded: a value it forgets is read again from
the same trie. Here the backend's shared account cache is empty and knows
no null address, so a query that misses the local cache reads the trie;
`StateDb` adds the shared cache, and runs as this model when it is empty.
`commit` writes the dirty entries to the tries, whose roots are a function
`rootOf` of what they hold.

`State.view` is what the queries read of an address (`query_view`); the
checkpoint operations are judged on it. `checkpoint` and
`discard_checkpoint` do not change it (`view_checkpoint`,
`view_discardCheckpoint`), but reverting a `kill_account` of a loaded
account does not bring the account back (`view_revert_killAccount`).
-/

namespace Cita

namespace Executor

/-- `HASH_NULL_RLP`: the root of the empty trie. -/
def hashNullRlp : H256 :=
  0x56e81f171bcc55a6ff8345e692c0f86e5b48e01b996cadc001622fb5e363b421#256

/-- `AccountState`. -/
inductive AccountState where
  | cleanFresh
  | cleanCached
  | dirty
  | committed
deriving Repr, DecidableEq

/-- `BasicAccount`, what the account trie holds for an address, with the
code and ABI that its hashes name in the hash database. -/
structure BasicAccount where
  nonce : U256
  balance : U256
  storageRoot : H256
  code : Bytes
  abi : Bytes

/-- `Account`: the basic data, the storage cache of values read from the
storage trie at `storage_root`, and the storage changes not yet committed. -/
structure Account where
  balance : U256
  nonce : U256
  storageRoot : H256
  storageCache : H256 → Option H256
  storageChanges : H256 → Option H256
  code : Bytes
  abi : Bytes

namespace Account

variable {ε : Type}

/-- `From<BasicAccount>`: nothing cached, nothing changed. -/
def ofBasic (b : BasicAccount) : Account :=
  ⟨b.balance, b.nonce, b.storageRoot, fun _ => none, fun _ => none, b.code, b.abi⟩

/-- `Account::new_basic`. -/
def newBasic (balance nonce : U256) : Account :=
  ⟨balance, nonce, hashNullRlp, fun _ => none, fun _ => none, [], []⟩

/-- `Account::new_contract`; it differs from `new_basic` only in the code
size it leaves unknown. -/
def newContract (balance nonce : U256) : Account :=
  ⟨balance, nonce, hashNullRlp, fun _ => none, fun _ => none, [], []⟩

/-- `init_code`. -/
def initCode (acc : Account) (code : Bytes) : Account := { acc with code := code }

/-- `reset_code`, which calls `init_code`. -/
def resetCode (acc : Account) (code : Bytes) : Account := acc.initCode code

/-- `init_abi`. -/
def initAbi (acc : Account) (abi : Bytes) : Account := { acc with abi := abi }

/-- `reset_abi`, which calls `init_abi`. -/
def resetAbi (acc : Account) (abi : Bytes) : Account := acc.initAbi abi

/-- `set_storage`. -/
def setStorage (acc : Account) (key value : H256) : Account :=
  { acc with storageChanges := Function.update acc.storageChanges key (some value) }

/-- `cached_storage_at`: a change first, then the cache. -/
def cachedStorageAt (acc : Account) (key : H256) : Option H256 :=
  (acc.storageChanges key).or (acc.storageCache key)

/-- `storage_at`: a cached value, or the trie's value at `storage_root`,
which is then cached. -/
def storageAt (trie : H256 → H256 → H256) (acc : Account) (key : H256) : H256 × Account :=
  match acc.cachedStorageAt key with
  | some value => (value, acc)
  | none =>
      let value := trie acc.storageRoot key
      (value, { acc with storageCache := Function.update acc.storageCache key (some value) })

/-- `inc_nonce`. -/
def incNonce (acc : Account) : Outcome ε Account := do
  let nonce ← uintAdd acc.nonce 1
  pure { acc with nonce := nonce }

/-- `add_balance`. -/
def addBalance (acc : Account) (x : U256) : Outcome ε Account := do
  let balance ← uintAdd acc.balance x
  pure { acc with balance := balance }

/-- `sub_balance`, which asserts that the balance covers `x`. -/
def subBalance (acc : Account) (x : U256) : Outcome ε Account := do
  Outcome.assert (decide (x ≤ acc.balance)) "assertion failed: self.balance >= *x"
  pure { acc with balance := acc.balance - x }

/-- `is_null`: no balance, no nonce, and the empty code and ABI (their
hashes are `HASH_EMPTY`). -/
def isNull (acc : Account) : Bool :=
  acc.balance == 0 && acc.nonce == 0 && acc.code.isEmpty && acc.abi.isEmpty

/-- `clone_dirty`: everything but the storage cache. -/
def cloneDirty (acc : Account) : Account := { acc with storageCache := fun _ => none }

/-- `overwrite_with`: everything from `other`, with its storage cache
entries added to ours. -/
def overwriteWith (self other : Account) : Account :=
  { other with storageCache := fun k => (other.storageCache k).or (self.storageCache k) }

/-- `commit_storage`: the changes are written into the storage trie at
`storage_root` (a zero value removes its key, which then reads as zero),
whose new root is `rootOf` of what it holds, and move to the storage
cache. Besides the account, what the new trie holds. -/
def commitStorage (rootOf : (H256 → H256) → H256) (trie : H256 → H256 → H256) (acc : Account) :
    Account × (H256 → H256) :=
  let contents := fun k => (acc.storageChanges k).getD (trie acc.storageRoot k)
  ({ acc with
      storageRoot := rootOf contents
      storageCache := fun k => (acc.storageChanges k).or (acc.storageCache k)
      storageChanges := fun _ => none }, contents)

/-- `rlp`: what the account trie holds of the account. -/
def toBasic (acc : Account) : BasicAccount :=
  ⟨acc.nonce, acc.balance, acc.storageRoot, acc.code, acc.abi⟩

end Account

/-- `AccountEntry`; its `old_balance` is not read by the modelled code. -/
structure AccountEntry where
  account : Option Account
  state : AccountState

namespace AccountEntry

/-- `is_dirty`. -/
def isDirty (e : AccountEntry) : Bool := e.state == .dirty

/-- `clone_dirty`. -/
def cloneDirty (e : AccountEntry) : AccountEntry :=
  { e with account := e.account.map Account.cloneDirty }

/-- `new_dirty`. -/
def newDirty (account : Option Account) : AccountEntry := ⟨account, .dirty⟩

/-- `new_clean`. -/
def newClean (account : Option Account) : AccountEntry := ⟨account, .cleanFresh⟩

/-- `overwrite_with`: the state of `other`; its account merged into ours,
or none when it has none. When we hold no account, `if let Some(ref mut
ours) = self.account` does nothing and we keep holding none. -/
def overwriteWith (self other : AccountEntry) : AccountEntry :=
  { state := other.state
    account := match other.account with
      | some acc => self.account.map (·.overwriteWith acc)
      | none => none }

end AccountEntry

/-- The database under a `State`: the account trie at the state's root and
the storage tries by their roots (a missing key reads as zero). -/
structure Backend where
  accounts : Address → Option BasicAccount
  storage : H256 → H256 → H256

/-- What the queries read of an account. -/
structure AccountData where
  balance : U256
  nonce : U256
  code : Bytes
  abi : Bytes
  storage : H256 → H256

/-- The data of an account whose storage trie is `trie`: a storage key
reads a change, else a cached value, else the trie at `storage_root`. -/
def Account.data (trie : H256 → H256 → H256) (acc : Account) : AccountData :=
  ⟨acc.balance, acc.nonce, acc.code, acc.abi,
    fun k => (acc.cachedStorageAt k).getD (trie acc.storageRoot k)⟩

/-- A checkpoint: for each address changed since it was taken, the entry
it had then (`None` for no entry). -/
abbrev Checkpoint := Address → Option (Option AccountEntry)

/-- `State`: the fields the modelled code reads. `checkpoints` lists the
innermost checkpoint first. -/
structure State where
  db : Backend
  cache : Address → Option AccountEntry
  checkpoints : List Checkpoint
  accountStartNonce : U256

namespace State

variable {ε : Type}

/-- A state with nothing cached and no checkpoint, as `from_existing` builds it. -/
def fromExisting (db : Backend) (accountStartNonce : U256) : State :=
  ⟨db, fun _ => none, [], accountStartNonce⟩

/-- The account the trie holds for `a`, as `Account::from_rlp` loads it. -/
def loadAccount (s : State) (a : Address) : Option Account :=
  (s.db.accounts a).map Account.ofBasic

/-! ## The cache and the checkpoints -/

/-- `insert_cache`: a dirty entry records what it replaces in the
innermost checkpoint, unless that address is recorded already. -/
def insertCache (s : State) (address : Address) (account : AccountEntry) : State :=
  let oldValue := s.cache address
  let s' := { s with cache := Function.update s.cache address (some account) }
  if account.isDirty then
    match s'.checkpoints with
    | checkpoint :: rest =>
        { s' with checkpoints := FunMap.orInsert checkpoint address oldValue :: rest }
    | [] => s'
  else s'

/-- `note_cache`: the innermost checkpoint records a `clone_dirty` of the
current entry, unless that address is recorded already. -/
def noteCache (s : State) (address : Address) : State :=
  match s.checkpoints with
  | checkpoint :: rest =>
      { s with checkpoints :=
          FunMap.orInsert checkpoint address ((s.cache address).map AccountEntry.cloneDirty) :: rest }
  | [] => s

/-- `checkpoint`. -/
def checkpoint (s : State) : State :=
  { s with checkpoints := (fun _ => none) :: s.checkpoints }

/-- `discard_checkpoint`: the innermost checkpoint is merged into the next
one, whose entries win. When that one is empty, `**prev = checkpoint` is
the same merge. -/
def discardCheckpoint (s : State) : State :=
  match s.checkpoints with
  | checkpoint :: prev :: rest => { s with checkpoints := FunMap.merge prev checkpoint :: rest }
  | [_] => { s with checkpoints := [] }
  | [] => s

/-- What `revert_to_checkpoint` does to the cache entry of one address,
given what the checkpoint recorded for it. -/
def revertEntry : Option (Option AccountEntry) → Option AccountEntry → Option AccountEntry
  | some (some v), some e => some (e.overwriteWith v)
  | some (some v), none => some v
  | some none, some e => if e.isDirty then none else some e
  | some none, none => none
  | none, c => c

/-- `revert_to_checkpoint`. -/
def revertToCheckpoint (s : State) : State :=
  match s.checkpoints with
  | checkpoint :: rest =>
      { s with cache := fun a => revertEntry (checkpoint a) (s.cache a), checkpoints := rest }
  | [] => s

/-! ## Queries -/

/-- `ensure_cached(a, .., f)`: the local entry, or the trie's account,
which is then cached as clean. -/
def ensureCached {α : Type} (s : State) (a : Address) (f : Option Account → α) : α × State :=
  match s.cache a with
  | some maybeAcc => (f maybeAcc.account, s)
  | none =>
      let maybeAcc := s.loadAccount a
      (f maybeAcc, s.insertCache a (AccountEntry.newClean maybeAcc))

/-- `exists`. -/
def «exists» (s : State) (a : Address) : Bool × State :=
  s.ensureCached a Option.isSome

/-- `exists_and_not_null`. -/
def existsAndNotNull (s : State) (a : Address) : Bool × State :=
  s.ensureCached a fun acc => acc.elim false fun acc => !acc.isNull

/-- `exists_and_has_code_or_nonce`: some code (its hash is not
`HASH_EMPTY`) or a nonce other than the starting one. -/
def existsAndHasCodeOrNonce (s : State) (a : Address) : Bool × State :=
  s.ensureCached a fun acc =>
    acc.elim false fun acc => !acc.code.isEmpty || acc.nonce != s.accountStartNonce

/-- `balance`. -/
def balance (s : State) (a : Address) : U256 × State :=
  s.ensureCached a fun acc => acc.elim 0 Account.balance

/-- `nonce`. -/
def nonce (s : State) (a : Address) : U256 × State :=
  s.ensureCached a fun acc => acc.elim s.accountStartNonce Account.nonce

/-- `code`. -/
def code (s : State) (a : Address) : Option Bytes × State :=
  s.ensureCached a fun acc => acc.map Account.code

/-- `abi`. -/
def abi (s : State) (a : Address) : Option Bytes × State :=
  s.ensureCached a fun acc => acc.map Account.abi

/-- `storage_at` of a state whose `StateDB` shares nothing, over a trie
that holds every node: a value cached in the local entry; a value read
from the storage trie of the local entry's account into its cache; zero
for an entry without account; otherwise the trie's account is loaded, read
and cached as clean. The shared cache that `storage_at` asks before the
trie is read in `StateOnDb.storageAt`; the trie is a function here, so the
error `get_with` returns for a missing node does not arise. -/
def storageAt (s : State) (address : Address) (key : H256) : H256 × State :=
  match s.cache address with
  | some entry =>
      match entry.account with
      | some account =>
          match account.cachedStorageAt key with
          | some value => (value, s)
          | none =>
              let (value, account') := account.storageAt s.db.storage key
              (value, { s with cache :=
                Function.update s.cache address (some { entry with account := some account' }) })
      | none => (0, s)
  | none =>
      let (r, maybeAcc) := match s.loadAccount address with
        | some acc =>
            let (value, acc') := acc.storageAt s.db.storage key
            (value, some acc')
        | none => (0, none)
      (r, s.insertCache address (AccountEntry.newClean maybeAcc))

/-! ## Changes -/

/-- `require_or_from(a, .., default, |_| {})` followed by the change `f`
its caller makes to the account it returns: the entry is loaded as clean
if it is not cached, noted in the checkpoint, given `default` if it holds
no account, and marked dirty. -/
def requireOrFrom (s : State) (a : Address) (default : Account)
    (f : Account → Outcome ε Account) : Outcome ε State := do
  let s := if (s.cache a).isSome then s
    else s.insertCache a (AccountEntry.newClean (s.loadAccount a))
  let s := s.noteCache a
  match s.cache a with
  | some entry =>
      let acc ← f (entry.account.getD default)
      pure { s with cache := Function.update s.cache a (some ⟨some acc, .dirty⟩) }
  | none => .panic "entry known to exist in the cache; qed"

/-- `require`: `require_or_from` with a new basic account as the default. -/
def require (s : State) (a : Address) (f : Account → Outcome ε Account) : Outcome ε State :=
  s.requireOrFrom a (Account.newBasic 0 s.accountStartNonce) f

/-- `touch`. -/
def touch (s : State) (a : Address) : Outcome ε State :=
  s.require a pure

/-- `add_balance`: a zero increment only touches an account that exists. -/
def addBalance (s : State) (a : Address) (incr : U256) : Outcome ε State :=
  if incr ≠ 0 then s.require a (·.addBalance incr)
  else
    let (e, s) := s.exists a
    if e then s.touch a else pure s

/-- `sub_balance`: `!decr.is_zero() || !self.exists(a)?` asks for existence
only of a zero decrement. -/
def subBalance (s : State) (a : Address) (decr : U256) : Outcome ε State :=
  if decr ≠ 0 then s.require a (·.subBalance decr)
  else
    let (e, s) := s.exists a
    if !e then s.require a (·.subBalance decr) else pure s

/-- `transfer_balance`. -/
def transferBalance (s : State) (source target : Address) (by_ : U256) : Outcome ε State := do
  let s ← s.subBalance source by_
  s.addBalance target by_

/-- `inc_nonce`. -/
def incNonce (s : State) (a : Address) : Outcome ε State :=
  s.require a Account.incNonce

/-- `set_storage`: the account is changed only when the value differs. -/
def setStorage (s : State) (a : Address) (key value : H256) : Outcome ε State :=
  let (current, s) := s.storageAt a key
  if current ≠ value then s.require a fun acc => pure (acc.setStorage key value) else pure s

/-- `new_contract`. -/
def newContract (s : State) (contract : Address) (balance nonceOffset : U256) :
    Outcome ε State := do
  let nonce ← uintAdd s.accountStartNonce nonceOffset
  pure (s.insertCache contract (AccountEntry.newDirty (some (Account.newContract balance nonce))))

/-- `kill_account`. -/
def killAccount (s : State) (account : Address) : State :=
  s.insertCache account (AccountEntry.newDirty none)

/-- `init_code`. -/
def initCode (s : State) (a : Address) (code : Bytes) : Outcome ε State :=
  s.requireOrFrom a (Account.newContract 0 s.accountStartNonce) fun acc => pure (acc.initCode code)

/-- `reset_code`. -/
def resetCode (s : State) (a : Address) (code : Bytes) : Outcome ε State :=
  s.requireOrFrom a (Account.newContract 0 s.accountStartNonce) fun acc => pure (acc.resetCode code)

/-- `init_abi`. -/
def initAbi (s : State) (a : Address) (abi : Bytes) : Outcome ε State :=
  s.requireOrFrom a (Account.newContract 0 s.accountStartNonce) fun acc => pure (acc.initAbi abi)

/-- `reset_abi`. -/
def resetAbi (s : State) (a : Address) (abi : Bytes) : Outcome ε State :=
  s.requireOrFrom a (Account.newContract 0 s.accountStartNonce) fun acc => pure (acc.resetAbi abi)

/-! ## Commit -/

/-- What `commit` does at one address of the cache: a dirty entry's account
is written to the tries, or the address removed from the account trie when
the entry holds none, and the entry becomes `Committed`. -/
def commitAccount (rootOf : (H256 → H256) → H256) (s : State) (a : Address) : State :=
  match s.cache a with
  | some entry =>
      if entry.isDirty then
        match entry.account with
        | some account =>
            let (account, contents) := account.commitStorage rootOf s.db.storage
            { s with
              db := ⟨Function.update s.db.accounts a (some account.toBasic),
                Function.update s.db.storage account.storageRoot contents⟩
              cache := Function.update s.cache a (some ⟨some account, .committed⟩) }
        | none =>
            { s with
              db := { s.db with accounts := Function.update s.db.accounts a none }
              cache := Function.update s.cache a (some ⟨none, .committed⟩) }
      else s
  | none => s

/-- `commit`: it asserts that no checkpoint is open, then writes every dirty
entry. The cache is a function, so the addresses its loops visit (every
address the cache holds, in the map's order) are given as `keys`. -/
def commit (rootOf : (H256 → H256) → H256) (s : State) (keys : List Address) :
    Outcome ε State := do
  Outcome.assert s.checkpoints.isEmpty "assertion failed: self.checkpoints.borrow().is_empty()"
  pure (keys.foldl (commitAccount rootOf) s)

/-- The assertion of `commit` fails exactly when a checkpoint is open. -/
theorem commit_eq_panic (rootOf : (H256 → H256) → H256) (s : State) (keys : List Address)
    (h : s.checkpoints ≠ []) :
    (s.commit rootOf keys : Outcome ε State) =
      .panic "assertion failed: self.checkpoints.borrow().is_empty()" := by
  have hne : s.checkpoints.isEmpty = false := List.isEmpty_eq_false_iff.mpr h
  simp [commit, Outcome.assert, hne]

/-! ## The view -/

/-- The account the queries see at `a`: the local entry's, or else the trie's. -/
def lookup (s : State) (a : Address) : Option Account :=
  match s.cache a with
  | some e => e.account
  | none => s.loadAccount a

/-- What the queries read of an address: nothing for no account, or its
balance, nonce, code, ABI and the value of every storage key. -/
def view (s : State) (a : Address) : Option AccountData :=
  (s.lookup a).map (Account.data s.db.storage)

@[simp] theorem insertCache_cache (s : State) (a : Address) (e : AccountEntry) :
    (s.insertCache a e).cache = Function.update s.cache a (some e) := by
  simp only [insertCache]
  split
  · split <;> rfl
  · rfl

@[simp] theorem insertCache_db (s : State) (a : Address) (e : AccountEntry) :
    (s.insertCache a e).db = s.db := by
  simp only [insertCache]
  split
  · split <;> rfl
  · rfl

/-- Loading the entry beforehand changes nothing: `require_or_from` loads
it in the same way. -/
theorem requireOrFrom_insertCache_newClean (s : State) (a : Address) (default : Account)
    (f : Account → Outcome ε Account) (h : s.cache a = none) :
    (s.insertCache a (AccountEntry.newClean (s.loadAccount a))).requireOrFrom a default f =
      s.requireOrFrom a default f := by
  simp only [requireOrFrom, insertCache_cache, Function.update_self, Option.isSome_some, if_true,
    h, Option.isSome_none, Bool.false_eq_true, if_false]

@[simp] theorem checkpoint_cache (s : State) : s.checkpoint.cache = s.cache := rfl

@[simp] theorem checkpoint_db (s : State) : s.checkpoint.db = s.db := rfl

/-- A clean entry of what the trie holds does not change what is seen. -/
theorem lookup_insertCache_newClean (s : State) (a : Address) (h : s.cache a = none) :
    (s.insertCache a (AccountEntry.newClean (s.loadAccount a))).lookup = s.lookup := by
  funext b
  by_cases hb : b = a
  · subst hb; simp [lookup, loadAccount, h, AccountEntry.newClean]
  · simp [lookup, loadAccount, hb]

/-- `ensure_cached` applies `f` to the account seen, and what it caches
changes nothing that is seen. -/
theorem ensureCached_eq {α : Type} (s : State) (a : Address) (f : Option Account → α) :
    (s.ensureCached a f).1 = f (s.lookup a) ∧ (s.ensureCached a f).2.view = s.view := by
  unfold ensureCached
  split
  · rename_i e he
    simp [lookup, he]
  · rename_i he
    refine ⟨by simp [lookup, he], ?_⟩
    funext b
    simp only [view, insertCache_db, lookup_insertCache_newClean s a he]

/-- `exists`, `balance`, `nonce`, `code` and `abi` read the view, and
`exists` leaves the view as it was. -/
theorem query_view (s : State) (a : Address) :
    (s.exists a).1 = (s.view a).isSome ∧
    (s.balance a).1 = (s.view a).elim 0 AccountData.balance ∧
    (s.nonce a).1 = (s.view a).elim s.accountStartNonce AccountData.nonce ∧
    (s.code a).1 = (s.view a).map AccountData.code ∧
    (s.abi a).1 = (s.view a).map AccountData.abi ∧
    (s.exists a).2.view = s.view := by
  simp only [«exists», balance, nonce, code, abi, (ensureCached_eq s a _).1,
    (ensureCached_eq s a _).2, view]
  cases s.lookup a <;> simp [Account.data]

/-! ## Checkpoints -/

theorem view_checkpoint (s : State) : s.checkpoint.view = s.view := rfl

theorem view_discardCheckpoint (s : State) : s.discardCheckpoint.view = s.view := by
  unfold discardCheckpoint
  split <;> rfl

/-! ### The height of the checkpoint stack

`checkpoint` pushes, `discard_checkpoint` and `revert_to_checkpoint` pop,
and every other operation only records entries in the innermost
checkpoint. -/

@[simp] theorem length_checkpoint (s : State) :
    s.checkpoint.checkpoints.length = s.checkpoints.length + 1 := rfl

@[simp] theorem length_discardCheckpoint (s : State) :
    s.discardCheckpoint.checkpoints.length = s.checkpoints.length - 1 := by
  unfold discardCheckpoint
  split <;> simp_all

@[simp] theorem length_revertToCheckpoint (s : State) :
    s.revertToCheckpoint.checkpoints.length = s.checkpoints.length - 1 := by
  unfold revertToCheckpoint
  split <;> simp_all

@[simp] theorem length_insertCache (s : State) (a : Address) (e : AccountEntry) :
    (s.insertCache a e).checkpoints.length = s.checkpoints.length := by
  simp only [insertCache]
  split
  · split <;> simp_all
  · rfl

@[simp] theorem length_noteCache (s : State) (a : Address) :
    (s.noteCache a).checkpoints.length = s.checkpoints.length := by
  unfold noteCache
  split <;> simp_all

@[simp] theorem length_ensureCached {α : Type} (s : State) (a : Address) (f : Option Account → α) :
    (s.ensureCached a f).2.checkpoints.length = s.checkpoints.length := by
  unfold ensureCached
  split <;> simp

variable {s s' : State}

theorem length_of_requireOrFrom_eq_ok {a : Address} {default : Account}
    {f : Account → Outcome ε Account} (h : s.requireOrFrom a default f = .ok s') :
    s'.checkpoints.length = s.checkpoints.length := by
  unfold requireOrFrom at h
  dsimp only at h
  split at h
  · obtain ⟨acc, -, hs⟩ := Outcome.bind_eq_ok.mp h
    cases hs
    dsimp only
    rw [length_noteCache]
    split <;> simp
  · cases h

/-- What `exists` leaves, when `add_balance` or `sub_balance` asks it. -/
theorem length_of_exists_eq {a : Address} {e : Bool} (h : s.exists a = (e, s')) :
    s'.checkpoints.length = s.checkpoints.length := by
  rw [show s' = (s.exists a).2 by rw [h], «exists», length_ensureCached]

theorem length_of_addBalance_eq_ok {a : Address} {incr : U256}
    (h : (s.addBalance a incr : Outcome ε State) = .ok s') :
    s'.checkpoints.length = s.checkpoints.length := by
  unfold addBalance at h
  split at h
  · exact length_of_requireOrFrom_eq_ok h
  · split at h
    rename_i e s₁ hexists
    split at h
    · rw [length_of_requireOrFrom_eq_ok h, length_of_exists_eq hexists]
    · cases h
      exact length_of_exists_eq hexists

theorem length_of_subBalance_eq_ok {a : Address} {decr : U256}
    (h : (s.subBalance a decr : Outcome ε State) = .ok s') :
    s'.checkpoints.length = s.checkpoints.length := by
  unfold subBalance at h
  split at h
  · exact length_of_requireOrFrom_eq_ok h
  · split at h
    rename_i e s₁ hexists
    split at h
    · rw [length_of_requireOrFrom_eq_ok h, length_of_exists_eq hexists]
    · cases h
      exact length_of_exists_eq hexists

theorem length_of_newContract_eq_ok {a : Address} {balance nonceOffset : U256}
    (h : (s.newContract a balance nonceOffset : Outcome ε State) = .ok s') :
    s'.checkpoints.length = s.checkpoints.length := by
  obtain ⟨nonce, -, hs⟩ := Outcome.bind_eq_ok.mp h
  cases hs
  simp

/-- Reverting right after a checkpoint gives back the state. -/
theorem revertToCheckpoint_checkpoint (s : State) : s.checkpoint.revertToCheckpoint = s := by
  have hc : (fun a => revertEntry none (s.cache a)) = s.cache := rfl
  simp only [revertToCheckpoint, checkpoint, hc]

end State

/-- A trie holding one account, at address 1, with balance 100. -/
def Backend.oneAccount : Backend :=
  ⟨fun a => if a = 1 then some ⟨0, 100, hashNullRlp, [], []⟩ else none, fun _ _ => 0⟩

/-- The state after `exists(1)` has loaded account 1 into the cache. -/
def State.oneAccountLoaded : State := ((State.fromExisting Backend.oneAccount 0).exists 1).2

/-- After `checkpoint`, `kill_account(1)` and `revert_to_checkpoint`,
account 1 no longer exists and has no balance. -/
theorem revertToCheckpoint_killAccount_diverges :
    (State.oneAccountLoaded.exists 1).1 = true ∧ (State.oneAccountLoaded.balance 1).1 = 100 ∧
      ((State.oneAccountLoaded.checkpoint.killAccount 1).revertToCheckpoint.exists 1).1 = false ∧
      ((State.oneAccountLoaded.checkpoint.killAccount 1).revertToCheckpoint.balance 1).1 = 0 := by
  decide

end Executor

end Cita
