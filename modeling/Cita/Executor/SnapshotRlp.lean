import Cita.Executor.Snapshot
import Cita.Lib.Rlp

/-!
# The size of a state chunk

`to_fat_rlps` measures each piece of an account with `RlpStream::len()`,
the length the stream's RLP will have once its open lists are closed, and
`StateChunker::push` adds the length of the piece's RLP to `cur_size`.
`fatRlpLength` is that length, for the pieces the model writes as
`FatAccount`s.

A piece that holds a pair is no longer than its target, but a piece that
holds none is not measured against anything: an account without storage
whose header, with its code inline, is longer than
`PREFERRED_CHUNK_SIZE` leaves `cur_size` above it, and `chunk_state` then
computes `PREFERRED_CHUNK_SIZE - chunker.cur_size` for the next account.
-/

namespace Cita

namespace Snapshot

open Rlp

/-! ## The RLP of a piece -/

/-- `CodeState::raw` and what follows it: the code, or its hash. A failed
lookup writes `false` and an empty string, of the same length. -/
def CodeField.items : CodeField → List Item
  | .empty => [uint 0, .bytes []]
  | .inline code => [uint 1, .bytes code]
  | .hash h => [uint 2, Rlp.hash h.toNat 32]

/-- The RLP of a piece: the address, then the nonce, the balance, the code
and ABI fields and the list of storage pairs. -/
def FatAccount.item (address : Address) (fat : FatAccount) : Item :=
  .list [Rlp.hash address.toNat 20,
    .list ([uint fat.nonce.toNat, uint fat.balance.toNat] ++ fat.code.items ++ fat.abi.items ++
      [.list (fat.pairs.map fun p => .list [.bytes p.1, .bytes p.2])])]

/-- `account_stream.len()` of a piece, and the size `push` adds for it. -/
def fatRlpLength (address : Address) (fat : FatAccount) : Nat := (encode (fat.item address)).length

/-- A piece is at least as long as the code it carries inline. -/
theorem length_le_fatRlpLength {address : Address} {fat : FatAccount} {code : Bytes}
    (hcode : fat.code = .inline code) : code.length ≤ fatRlpLength address fat := by
  let inner : List Item := [uint fat.nonce.toNat, uint fat.balance.toNat] ++ fat.code.items ++
    fat.abi.items ++ [.list (fat.pairs.map fun p => .list [.bytes p.1, .bytes p.2])]
  have hmem : Item.bytes code ∈ inner := by simp [inner, hcode, CodeField.items]
  have hitem : fat.item address = .list [Rlp.hash address.toNat 20, .list inner] := rfl
  calc code.length
      ≤ (encode (.bytes code)).length := length_le_length_encode_bytes code
    _ ≤ (encodeList inner).length := length_encode_le_encodeList hmem
    _ ≤ (encode (.list inner)).length := length_encodeList_le_encode inner
    _ ≤ (encodeList [Rlp.hash address.toNat 20, .list inner]).length :=
        length_encode_le_encodeList (by simp)
    _ ≤ fatRlpLength address fat := by
        rw [fatRlpLength, hitem]
        exact length_encodeList_le_encode _

/-! ## Pieces that hold no pair -/

section Oversized

variable (keccak : Bytes → H256) (streamLen : Address → FatAccount → Nat)

/-- An account without storage whose header does not fit the room left:
a marker, then the header alone, whatever its length. -/
theorem toFatRlps_of_storage_nil {address : Address} {acc : Account} {db : H256 → Option Bytes}
    {used : Used} {firstChunkSize maxChunkSize : Nat} (hnil : acc.storage = [])
    (hbig : firstChunkSize < streamLen address (fatHeader keccak acc db used).1) :
    toFatRlps keccak streamLen address acc db used firstChunkSize maxChunkSize =
      .ok ([.marker, .piece address (fatHeader keccak acc db used).1],
        (fatHeader keccak acc db used).2) := by
  simp only [toFatRlps, if_pos hbig, hnil, fillPieces]
  rfl

theorem curSize_pushFatRlps_marker (c : StateChunker) (address : Address) (fat : FatAccount) :
    (c.pushFatRlps streamLen [.marker, .piece address fat]).curSize = streamLen address fat := by
  simp [StateChunker.pushFatRlps, StateChunker.push, StateChunker.writeChunk, FatRlp.size]

/-- After an account without storage whose header is longer than
`PREFERRED_CHUNK_SIZE`, the chunker holds more than that, and the next
account is chunked from there. -/
theorem chunkAccounts_oversized {db : Address → H256 → Option Bytes} {address : Address}
    {acc : Account} {c : StateChunker} {used : Used} (hnil : acc.storage = [])
    (hroom : c.curSize ≤ preferredChunkSize)
    (hbig : preferredChunkSize < streamLen address (fatHeader keccak acc (db address) used).1)
    (rest : List (Address × Account)) :
    ∃ c', chunkAccounts keccak streamLen db ((address, acc) :: rest) c used =
        chunkAccounts keccak streamLen db rest c' (fatHeader keccak acc (db address) used).2 ∧
      preferredChunkSize < c'.curSize := by
  -- no wrap yet: the room left is `PREFERRED_CHUNK_SIZE - cur_size`
  have hsub : usizeSub preferredChunkSize c.curSize ≤ preferredChunkSize := by
    have : preferredChunkSize < 2 ^ 64 := by decide
    rw [usizeSub]
    omega
  refine ⟨c.pushFatRlps streamLen [.marker, .piece address (fatHeader keccak acc (db address) used).1],
    ?_, ?_⟩
  · rw [chunkAccounts, toFatRlps_of_storage_nil keccak streamLen hnil (lt_of_le_of_lt hsub hbig)]
    rfl
  · rw [curSize_pushFatRlps_marker]
    exact hbig

end Oversized

/-! ## An account longer than a chunk -/

theorem chunkAccounts_oversized_code_underflows (keccak : Bytes → H256)
    (rest : List (Address × Account)) :
    ∃ c, chunkAccounts keccak fatRlpLength
        (fun _ h => if h = keccak [] + 1 then some (List.replicate (preferredChunkSize + 1) 0) else none)
        ((0, ⟨0, 0, [], keccak [] + 1, keccak []⟩) :: rest) ⟨[], [], 0⟩ ⟨[], []⟩ =
      chunkAccounts keccak fatRlpLength
        (fun _ h => if h = keccak [] + 1 then some (List.replicate (preferredChunkSize + 1) 0) else none)
        rest c ⟨[keccak [] + 1], []⟩ ∧
      preferredChunkSize < c.curSize := by
  -- the code is new and found, the ABI is empty
  have hheader : fatHeader keccak ⟨0, 0, [], keccak [] + 1, keccak []⟩
      (fun h => if h = keccak [] + 1 then some (List.replicate (preferredChunkSize + 1) 0) else none)
      ⟨[], []⟩ = (⟨0, 0, .inline (List.replicate (preferredChunkSize + 1) 0), .empty, []⟩,
        ⟨[keccak [] + 1], []⟩) := by
    simp [fatHeader, codeField, hashEmpty]
  have hcode : (List.replicate (preferredChunkSize + 1) (0 : UInt8)).length ≤ fatRlpLength 0
      ⟨0, 0, .inline (List.replicate (preferredChunkSize + 1) 0), .empty, []⟩ :=
    length_le_fatRlpLength rfl
  rw [List.length_replicate] at hcode
  have hrun := @chunkAccounts_oversized keccak fatRlpLength
    (fun _ h => if h = keccak [] + 1 then some (List.replicate (preferredChunkSize + 1) 0) else none)
    0 ⟨0, 0, [], keccak [] + 1, keccak []⟩ ⟨[], [], 0⟩ ⟨[], []⟩ rfl (Nat.zero_le _)
    (by rw [hheader]; exact Nat.lt_of_lt_of_le (Nat.lt_succ_self _) hcode) rest
  rwa [hheader] at hrun
end Snapshot

end Cita
