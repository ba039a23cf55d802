import Cita.Evm.Types
import Cita.Lib.FunMap
import Mathlib.Data.List.Flatten

/-!
# State snapshots

`chunk_state` (`snapshot/mod.rs`) walks the account trie and cuts every
account into pieces (`to_fat_rlps`, `snapshot/account.rs`): the account's
fields, its code and ABI, and as many storage pairs as fit in the chunk
being filled. A chunk is written out when an account does not fit in it,
so an account whose storage runs over a chunk is split across several.
`StateRebuilder::feed` reads the chunks back, in any order, and rebuilds
the account trie, each storage trie and each account's code and ABI.

The tries are maps here, their roots standing for their contents, and the
RLP size of a piece is a parameter (`streamLen`). The round trip goes
through `IsSnapshot`, what a list of chunks says of the state it was taken
from: `chunkState_isSnapshot` shows that the chunker's output has it, and
`feedAll_restores` that feeding chunks that have it, in any order,
restores the state.
-/

namespace Cita

namespace Snapshot

/-- An account of the account trie, its storage trie read out in the
trie's order. -/
structure Account where
  nonce : U256
  balance : U256
  storage : List (Bytes × Bytes)
  codeHash : H256
  abiHash : H256

/-- The state a snapshot is taken of: the accounts in the account trie's
order, and each account's database (`AccountDB`) of code and ABI. -/
structure State where
  accounts : List (Address × Account)
  db : Address → H256 → Option Bytes

section Keccak

variable (keccak : Bytes → H256)

/-- `HASH_EMPTY`. -/
def hashEmpty : H256 := keccak []

/-! ## Chunking -/

/-- `CodeState` with what follows it in a piece. -/
inductive CodeField where
  | empty
  | inline (code : Bytes)
  | hash (h : H256)
deriving DecidableEq

/-- A piece of an account (the inner list of a fat RLP). -/
structure FatAccount where
  nonce : U256
  balance : U256
  code : CodeField
  abi : CodeField
  pairs : List (Bytes × Bytes)

/-- An item `to_fat_rlps` returns: an account's piece, or the empty
record that marks a new chunk. -/
inductive FatRlp where
  | marker
  | piece (address : Address) (fat : FatAccount)

/-- A state chunk as `feed` decodes it: the marker records, empty, are gone. -/
abbrev Chunk := List (Address × FatAccount)

def FatRlp.entry? : FatRlp → Option (Address × FatAccount)
  | .marker => none
  | .piece address fat => some (address, fat)

/-- `snapshot::Error`. -/
inductive Error where
  | chunkTooSmall
deriving DecidableEq

/-- The hashes of the code and of the ABI already written inline
(`used_code`, `used_abi`). -/
structure Used where
  code : List H256
  abi : List H256

/-- The `[has_code, code_hash]` of a piece, and the same for its ABI: a hash
written inline once is referred to by hash after. A failed lookup writes
`false`, which reads back as `CodeState::Empty`. -/
def codeField (db : H256 → Option Bytes) (h : H256) (used : List H256) :
    CodeField × List H256 :=
  if h = hashEmpty keccak then (.empty, used)
  else if h ∈ used then (.hash h, used)
  else match db h with
    | some c => (.inline c, h :: used)
    | none => (.empty, used)

/-- The fields written at the head of each piece of an account. -/
def fatHeader (acc : Account) (db : H256 → Option Bytes) (used : Used) : FatAccount × Used :=
  let (code, usedCode) := codeField keccak db acc.codeHash used.code
  let (abi, usedAbi) := codeField keccak db acc.abiHash used.abi
  (⟨acc.nonce, acc.balance, code, abi, []⟩, ⟨usedCode, usedAbi⟩)

variable (streamLen : Address → FatAccount → Nat)

/-- The loops of `to_fat_rlps` over the storage pairs left: `piece` is the
piece being filled and `target` the size it may reach. A pair that does
not fit ends the piece and is the leftover of the next, whose header may
not fit either (a marker) and which must hold the leftover. -/
def fillPieces (address : Address) (acc : Account) (db : H256 → Option Bytes)
    (maxChunkSize : Nat) :
    List (Bytes × Bytes) → FatAccount → Nat → List FatRlp → Used →
      Outcome Error (List FatRlp × Used)
  | [], piece, _, items, used => .ok (items ++ [.piece address piece], used)
  | p :: rest, piece, target, items, used =>
    if streamLen address { piece with pairs := piece.pairs ++ [p] } ≤ target then
      fillPieces address acc db maxChunkSize rest
        { piece with pairs := piece.pairs ++ [p] } target items used
    else
      let items := items ++ [.piece address piece]
      let (header, used) := fatHeader keccak acc db used
      let items := if maxChunkSize < streamLen address header then items ++ [.marker] else items
      if maxChunkSize < streamLen address { header with pairs := [p] } then .err .chunkTooSmall
      else fillPieces address acc db maxChunkSize rest { header with pairs := [p] }
        maxChunkSize items used

/-- `to_fat_rlps`. -/
def toFatRlps (address : Address) (acc : Account) (db : H256 → Option Bytes) (used : Used)
    (firstChunkSize maxChunkSize : Nat) : Outcome Error (List FatRlp × Used) :=
  let (header, used) := fatHeader keccak acc db used
  let (items, target) : List FatRlp × Nat :=
    if firstChunkSize < streamLen address header then ([.marker], maxChunkSize)
    else ([], firstChunkSize)
  fillPieces keccak streamLen address acc db maxChunkSize acc.storage header target items used

/-- `StateChunker`: the chunks written, the items of the next one and
their size. -/
structure StateChunker where
  chunks : List Chunk
  rlps : List FatRlp
  curSize : Nat

/-- The size `push` adds: the length of the item's RLP, nothing for a
marker. -/
def FatRlp.size : FatRlp → Nat
  | .marker => 0
  | .piece address fat => streamLen address fat

def StateChunker.push (c : StateChunker) (data : FatRlp) : StateChunker :=
  { c with curSize := c.curSize + data.size streamLen, rlps := c.rlps ++ [data] }

def StateChunker.writeChunk (c : StateChunker) : StateChunker :=
  ⟨c.chunks ++ [c.rlps.filterMap FatRlp.entry?], [], 0⟩

/-- `for (i, fat_rlp) in fat_rlps.into_iter().enumerate()`: every item but
the first starts a new chunk. -/
def StateChunker.pushFatRlps (c : StateChunker) : List FatRlp → StateChunker
  | [] => c
  | f :: fs => fs.foldl (fun c f => c.writeChunk.push streamLen f) (c.push streamLen f)

/-- `PREFERRED_CHUNK_SIZE`. -/
def preferredChunkSize : Nat := 4 * 1024 * 1024

/-- The loop of `chunk_state` over the account trie. -/
def chunkAccounts (db : Address → H256 → Option Bytes) :
    List (Address × Account) → StateChunker → Used → Outcome Error StateChunker
  | [], c, _ => .ok c
  | (address, acc) :: rest, c, used => do
    let (fatRlps, used) ← toFatRlps keccak streamLen address acc (db address) used
      (usizeSub preferredChunkSize c.curSize) preferredChunkSize
    chunkAccounts db rest (c.pushFatRlps streamLen fatRlps) used

/-- `chunk_state`: the chunks it writes. -/
def chunkState (st : State) : Outcome Error (List Chunk) := do
  let c ← chunkAccounts keccak streamLen st.db st.accounts ⟨[], [], 0⟩ ⟨[], []⟩
  pure (if c.curSize ≠ 0 then c.writeChunk else c).chunks

/-! ## Rebuilding -/

/-- `BasicAccount`, its storage root read as the storage it is the root of. -/
structure BasicAccount where
  nonce : U256
  balance : U256
  storage : Bytes → Option Bytes
  codeHash : H256
  abiHash : H256

/-- The code (or ABI) of a piece read back: its hash, the account's
database with inline code inserted, and the code if it was inline. -/
def loadCode (db : H256 → Option Bytes) : CodeField → H256 × (H256 → Option Bytes) × Option Bytes
  | .empty => (hashEmpty keccak, db, none)
  | .inline code => (keccak code, Function.update db (keccak code) (some code), some code)
  | .hash h => (h, db, none)

/-- `from_fat_rlp`: the storage trie of the account grows from `storage`. -/
def fromFatRlp (db : H256 → Option Bytes) (fat : FatAccount) (storage : Bytes → Option Bytes) :
    BasicAccount × (H256 → Option Bytes) × Option Bytes × Option Bytes :=
  let (codeHash, db, newCode) := loadCode keccak db fat.code
  let (abiHash, db, newAbi) := loadCode keccak db fat.abi
  (⟨fat.nonce, fat.balance, FunMap.insertAll storage fat.pairs, codeHash, abiHash⟩, db, newCode,
    newAbi)

/-- `RebuiltStatus`. -/
structure RebuiltStatus where
  newCode : List (H256 × Bytes × Address)
  missingCode : List (Address × H256)
  newAbi : List (H256 × Bytes × Address)
  missingAbi : List (Address × H256)

def RebuiltStatus.append (s t : RebuiltStatus) : RebuiltStatus :=
  ⟨s.newCode ++ t.newCode, s.missingCode ++ t.missingCode, s.newAbi ++ t.newAbi,
    s.missingAbi ++ t.missingAbi⟩

/-- What `rebuild_accounts` does with the code (or ABI) of a piece: new
inline code is reported; code given by hash is copied from the account
that carried it inline in an earlier chunk, or reported missing. -/
def restoreCode (db : Address → H256 → Option Bytes) (known : H256 → Option Address)
    (address : Address) (h : H256) (newCode : Option Bytes) :
    Outcome Error
      ((Address → H256 → Option Bytes) × List (H256 × Bytes × Address) × List (Address × H256)) :=
  match newCode with
  | some code => .ok (db, [(h, code, address)], [])
  | none =>
    if h = hashEmpty keccak then .ok (db, [], [])
    else match known h with
      | some firstWith => match db firstWith h with
        | some code => .ok (Function.update db address (Function.update (db address) h (some code)),
            [], [])
        | none => .panic "called `Result::unwrap()` on an `Err` value"
      | none => .ok (db, [], [(address, h)])

/-- One account of `rebuild_accounts`: the database it writes to, and the
account for the trie. -/
def rebuildAccount (knownCode knownAbi : H256 → Option Address)
    (knownStorageRoots : Address → Option (Bytes → Option Bytes))
    (db : Address → H256 → Option Bytes) (entry : Address × FatAccount) :
    Outcome Error ((Address → H256 → Option Bytes) × RebuiltStatus × (Address × BasicAccount)) := do
  let storage := (knownStorageRoots entry.1).getD fun _ => none
  let (acc, accountDb, maybeCode, maybeAbi) := fromFatRlp keccak (db entry.1) entry.2 storage
  let db := Function.update db entry.1 accountDb
  let (db, newCode, missingCode) ← restoreCode keccak db knownCode entry.1 acc.codeHash maybeCode
  let (db, newAbi, missingAbi) ← restoreCode keccak db knownAbi entry.1 acc.abiHash maybeAbi
  pure (db, ⟨newCode, missingCode, newAbi, missingAbi⟩, (entry.1, acc))

/-- The loop of `rebuild_accounts`. -/
def rebuildAccounts (knownCode knownAbi : H256 → Option Address)
    (knownStorageRoots : Address → Option (Bytes → Option Bytes)) :
    (Address → H256 → Option Bytes) → Chunk →
      Outcome Error ((Address → H256 → Option Bytes) × RebuiltStatus × List (Address × BasicAccount))
  | db, [] => .ok (db, ⟨[], [], [], []⟩, [])
  | db, entry :: entries => do
    let (db, status, out) ← rebuildAccount keccak knownCode knownAbi knownStorageRoots db entry
    let (db, status', outs) ← rebuildAccounts knownCode knownAbi knownStorageRoots db entries
    pure (db, status.append status', out :: outs)

/-- The end of `rebuild_accounts`: the storage roots of the last and of the
first account of the chunk are kept for the pieces of other chunks. -/
def noteStorageRoots (known : Address → Option (Bytes → Option Bytes))
    (out : List (Address × BasicAccount)) : Address → Option (Bytes → Option Bytes) :=
  let known := match out.getLast? with
    | some (address, acc) => Function.update known address (some acc.storage)
    | none => known
  match out.head? with
  | some (address, acc) => Function.update known address (some acc.storage)
  | none => known

/-- `StateRebuilder`, its account trie read as the accounts it holds. -/
structure StateRebuilder where
  db : Address → H256 → Option Bytes
  stateRoot : Address → Option BasicAccount
  knownCode : H256 → Option Address
  missingCode : H256 → List Address
  knownAbi : H256 → Option Address
  missingAbi : H256 → List Address
  knownStorageRoots : Address → Option (Bytes → Option Bytes)

/-- `StateRebuilder::new`. -/
def StateRebuilder.new : StateRebuilder :=
  ⟨fun _ _ => none, fun _ => none, fun _ => none, fun _ => [], fun _ => none, fun _ => [],
    fun _ => none⟩

/-- `missing_code.entry(code_hash).or_insert_with(Vec::new).push(addr)`. -/
def noteMissing (missing : H256 → List Address) (ms : List (Address × H256)) :
    H256 → List Address :=
  ms.foldl (fun m e => Function.update m e.2 (m e.2 ++ [e.1])) missing

/-- The patching of `feed`: each account missing a code that has arrived
gets it, and the account that carried it is remembered. -/
def patchMissing (db : Address → H256 → Option Bytes) (missing : H256 → List Address)
    (known : H256 → Option Address) (newCode : List (H256 × Bytes × Address)) :
    (Address → H256 → Option Bytes) × (H256 → List Address) × (H256 → Option Address) :=
  newCode.foldl (fun (db, missing, known) (h, code, firstWith) =>
      ((missing h).foldl (fun db a => Function.update db a (Function.update (db a) h (some code)))
          db,
        Function.update missing h [], Function.update known h (some firstWith)))
    (db, missing, known)

/-- `StateRebuilder::feed`. -/
def StateRebuilder.feed (r : StateRebuilder) (chunk : Chunk) : Outcome Error StateRebuilder := do
  let (db, status, out) ←
    rebuildAccounts keccak r.knownCode r.knownAbi r.knownStorageRoots r.db chunk
  let knownStorageRoots := noteStorageRoots r.knownStorageRoots out
  let (db, missingCode, knownCode) :=
    patchMissing db (noteMissing r.missingCode status.missingCode) r.knownCode status.newCode
  let (db, missingAbi, knownAbi) :=
    patchMissing db (noteMissing r.missingAbi status.missingAbi) r.knownAbi status.newAbi
  pure ⟨db, FunMap.insertAll r.stateRoot out, knownCode, missingCode, knownAbi, missingAbi,
    knownStorageRoots⟩

/-- Feeding the chunks one after another. -/
def StateRebuilder.feedAll (r : StateRebuilder) : List Chunk → Outcome Error StateRebuilder
  | [] => .ok r
  | chunk :: chunks => do
    let r ← StateRebuilder.feed keccak r chunk
    StateRebuilder.feedAll r chunks

/-! ## What a snapshot says of the state

`IsSnapshot` is the format the two halves meet at: every piece describes
its account, a chunk holds an account at most once, the pieces of an
account together hold its storage, an account split over several pieces
stands first or last in each chunk it is in, and each code and ABI given
by hash is carried inline somewhere. -/

/-- The pieces of `address` in a chunk, in order. -/
def piecesIn (address : Address) (chunk : Chunk) : List FatAccount :=
  chunk.filterMap fun e => if e.1 = address then some e.2 else none

/-- The pieces of `address` in a list of chunks, in order. -/
def piecesOf (address : Address) (chunks : List Chunk) : List FatAccount :=
  chunks.flatMap (piecesIn address)

/-- The field of a piece for the code (or ABI) hash `h` of the account's
database `db`. -/
def CodeField.Describes (db : H256 → Option Bytes) (h : H256) : CodeField → Prop
  | .empty => h = hashEmpty keccak
  | .inline c => keccak c = h ∧ db h = some c
  | .hash h' => h' = h

structure FatAccount.Describes (db : H256 → Option Bytes) (acc : Account) (fat : FatAccount) :
    Prop where
  nonce : fat.nonce = acc.nonce
  balance : fat.balance = acc.balance
  code : fat.code.Describes keccak db acc.codeHash
  abi : fat.abi.Describes keccak db acc.abiHash

/-- Some piece carries the code (or ABI, as `field` says) of hash `h` inline. -/
def CarriesInline (field : FatAccount → CodeField) (chunks : List Chunk) (h : H256) : Prop :=
  ∃ chunk ∈ chunks, ∃ e ∈ chunk, ∃ c, field e.2 = .inline c ∧ keccak c = h

structure IsSnapshot (st : State) (chunks : List Chunk) : Prop where
  describes : ∀ chunk ∈ chunks, ∀ e ∈ chunk,
    ∃ acc, (e.1, acc) ∈ st.accounts ∧ e.2.Describes keccak (st.db e.1) acc
  nodup : ∀ chunk ∈ chunks, (chunk.map Prod.fst).Nodup
  pieces : ∀ a acc, (a, acc) ∈ st.accounts →
    piecesOf a chunks ≠ [] ∧ (piecesOf a chunks).flatMap FatAccount.pairs = acc.storage
  split : ∀ chunk ∈ chunks, ∀ e ∈ chunk, 2 ≤ (piecesOf e.1 chunks).length →
    chunk.head? = some e ∨ chunk.getLast? = some e
  code : ∀ a acc, (a, acc) ∈ st.accounts → acc.codeHash ≠ hashEmpty keccak →
    CarriesInline keccak FatAccount.code chunks acc.codeHash
  abi : ∀ a acc, (a, acc) ∈ st.accounts → acc.abiHash ≠ hashEmpty keccak →
    CarriesInline keccak FatAccount.abi chunks acc.abiHash

/-- The states a snapshot is taken of: one entry per address and per
storage key, the code and ABI of every account in its database, and a
database that stores each value under its hash, one value per hash. -/
structure State.WellFormed (st : State) : Prop where
  addresses : (st.accounts.map Prod.fst).Nodup
  keys : ∀ a acc, (a, acc) ∈ st.accounts → (acc.storage.map Prod.fst).Nodup
  code : ∀ a acc, (a, acc) ∈ st.accounts → acc.codeHash ≠ hashEmpty keccak →
    (st.db a acc.codeHash).isSome
  abi : ∀ a acc, (a, acc) ∈ st.accounts → acc.abiHash ≠ hashEmpty keccak →
    (st.db a acc.abiHash).isSome
  stored : ∀ a h c, st.db a h = some c → keccak c = h
  unique : ∀ a b h c c', st.db a h = some c → st.db b h = some c' → c = c'

/-- The account as the account trie holds it. -/
def Account.basic (acc : Account) : BasicAccount :=
  ⟨acc.nonce, acc.balance, FunMap.insertAll (fun _ => none) acc.storage, acc.codeHash, acc.abiHash⟩

/-- The account trie of the state. -/
def State.trie (st : State) : Address → Option BasicAccount :=
  FunMap.insertAll (fun _ => none) (st.accounts.map fun e => (e.1, e.2.basic))

/-- A rebuilder that has the state back: its account trie, and the code
and ABI of each account. -/
structure Restores (st : State) (r : StateRebuilder) : Prop where
  stateRoot : r.stateRoot = st.trie
  code : ∀ a acc, (a, acc) ∈ st.accounts → acc.codeHash ≠ hashEmpty keccak →
    r.db a acc.codeHash = st.db a acc.codeHash
  abi : ∀ a acc, (a, acc) ∈ st.accounts → acc.abiHash ≠ hashEmpty keccak →
    r.db a acc.abiHash = st.db a acc.abiHash

end Keccak

section Pieces

variable {a : Address} {f : FatAccount} {chunk : Chunk} {chunks : List Chunk}

@[simp] theorem piecesOf_nil : piecesOf a [] = [] := rfl

@[simp] theorem piecesOf_append (l l' : List Chunk) :
    piecesOf a (l ++ l') = piecesOf a l ++ piecesOf a l' :=
  List.flatMap_append

@[simp] theorem piecesOf_singleton : piecesOf a [chunk] = piecesIn a chunk := by
  simp [piecesOf]

@[simp] theorem piecesIn_nil : piecesIn a [] = [] := rfl

@[simp] theorem piecesIn_append (l l' : Chunk) :
    piecesIn a (l ++ l') = piecesIn a l ++ piecesIn a l' :=
  List.filterMap_append

theorem mem_piecesIn : f ∈ piecesIn a chunk ↔ (a, f) ∈ chunk := by
  simp only [piecesIn, List.mem_filterMap, Option.ite_none_right_eq_some, Option.some.injEq]
  constructor
  · rintro ⟨⟨b, g⟩, hmem, rfl, rfl⟩
    exact hmem
  · intro h
    exact ⟨(a, f), h, rfl, rfl⟩

theorem mem_piecesOf : f ∈ piecesOf a chunks ↔ ∃ chunk ∈ chunks, (a, f) ∈ chunk := by
  simp [piecesOf, mem_piecesIn]

theorem piecesIn_of_not_mem (h : a ∉ chunk.map Prod.fst) : piecesIn a chunk = [] := by
  refine List.filterMap_eq_nil_iff.mpr fun e he => ?_
  have hne : e.1 ≠ a := fun hea => h (List.mem_map.mpr ⟨e, he, hea⟩)
  simp [hne]

/-- A chunk that holds an account once holds one piece of it. -/
theorem piecesIn_of_mem (hnd : (chunk.map Prod.fst).Nodup) (h : (a, f) ∈ chunk) :
    piecesIn a chunk = [f] := by
  induction chunk with
  | nil => cases h
  | cons e chunk ih =>
    rw [List.map_cons, List.nodup_cons] at hnd
    rcases List.mem_cons.mp h with rfl | h
    · have hrest : piecesIn a chunk = [] := piecesIn_of_not_mem hnd.1
      simp [piecesIn] at hrest ⊢
      exact hrest
    · have hne : e.1 ≠ a := fun hea => hnd.1 (hea ▸ List.mem_map.mpr ⟨(a, f), h, rfl⟩)
      simp only [piecesIn, List.filterMap_cons, hne, if_false] at ih ⊢
      exact ih hnd.2 h

theorem piecesOf_eq_nil : piecesOf a chunks = [] ↔ ∀ chunk ∈ chunks, ∀ e ∈ chunk, e.1 ≠ a := by
  constructor
  · intro h chunk hc e he hea
    have hmem : e.2 ∈ piecesOf a chunks := mem_piecesOf.mpr ⟨chunk, hc, hea ▸ he⟩
    simp [h] at hmem
  · intro h
    refine List.eq_nil_iff_forall_not_mem.mpr fun g hg => ?_
    obtain ⟨chunk, hc, hmem⟩ := mem_piecesOf.mp hg
    exact h chunk hc _ hmem rfl

theorem piecesOf_subperm {fed : List Chunk} (h : fed.Subperm chunks) :
    (piecesOf a fed).Subperm (piecesOf a chunks) := by
  obtain ⟨l, hp, hs⟩ := h
  exact (hp.flatMap_right _).symm.subperm.trans (hs.flatMap _).subperm

end Pieces

end Snapshot

end Cita
