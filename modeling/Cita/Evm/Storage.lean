import Cita.Evm.Types
import Cita.Lib.Rlp
import Cita.Lib.Slice
import Cita.Lib.Store

/-!
# The storage layout of the native contracts (`storage.rs`)

The native contracts keep their data in the storage of their account
through `Scalar`, `Array` and `Map`, which place values at storage keys as
Solidity does. A `Scalar` is one key, its `position`. A byte string of
fewer than 32 bytes is kept in the word at the position, with twice its
length in the last byte; a longer one keeps `2 * len + 1` there and its
32-byte chunks in the words from `sha3(position)` on. An `Array` element
is the `Scalar` at `sha3(position) + index`, a `Map` entry the `Scalar` at
`sha3(key.serialize() ++ position)`.

The hash is a parameter `sha3` (`util::sha3`). `U256` and `H256` are one
type of words here, so `H256::from(U256)` and back are the identity;
`H256::from(&[u8])` copies at most 32 bytes into a zeroed word from its
first byte on (`h256FromSlice`). The `+` of `U256` on keys panics on
overflow (`uintAdd`). `String::from_utf8` is read through Lean's UTF-8
decoder, and its error is displayed as `core`'s `Utf8Error` is.

`set_bytes` and `get_bytes` are `setEncoded` and `getEncoded` around
`serialize` and `deserialize`. What they write and read is the layout of a
byte string (`layout`), and `Holds` says that the storage holds it:

- `setEncoded_writes`: `set_bytes` is the run of the layout's writes, and
  it panics unless the key after its last chunk fits a word;
- `holds_of_setEncoded`: in a store, the slot then holds the layout, when
  the position is none of its chunk keys;
- `getEncoded_of_holds`: a slot that holds the layout reads back the bytes;
- `getBytes_setBytes`: so a value comes back through any lawful pair of
  `Serialize` and `Deserialize`, as `U256` and `String` are;
- `getBytes_setBytes_run`: over any run of `set_bytes` on slots whose
  words are apart, every slot reads back the last value written to it.
-/

namespace Cita

variable {σ α κ : Type}

/-- A successful `set_storage` of `v` at `k` from `s`, leaving `s'`. -/
def Ext.Writes (ext : Ext σ) (s : σ) (k v : H256) (s' : σ) : Prop := ext.setStorage s k v = .ok s'

/-- The storage behind `ext` is a store: a write reads back, and every
other key reads as before. -/
def Ext.StorageLaws (ext : Ext σ) : Prop := IsStore ext.storageAt ext.Writes Except.ok

namespace Storage

open Outcome (ofExcept)

/-! ## The model -/

/-- The `Serialize` trait. -/
class Serialize (α : Type) where
  serialize : α → Except Error Bytes

/-- The `Deserialize` trait. -/
class Deserialize (α : Type) where
  deserialize : Bytes → Outcome Error α

/-- `impl Serialize for U256`: the 32 big-endian bytes. -/
instance : Serialize U256 where
  serialize x := .ok (u256ToBytes x)

/-- `impl Deserialize for U256`: `U256::from(bytes)`. -/
instance : Deserialize U256 where
  deserialize bytes := u256FromBytes bytes

/-- `impl Serialize for String`: `into_bytes`, its UTF-8 bytes. -/
instance : Serialize String where
  serialize s := .ok s.toUTF8.data.toList

/-- `core::str::Utf8Error`. -/
structure Utf8Error where
  validUpTo : Nat
  errorLen : Option Nat

/-- `impl Display for Utf8Error`, which `FromUtf8Error` displays. -/
def Utf8Error.text (e : Utf8Error) : String :=
  match e.errorLen with
  | some n => "invalid utf-8 sequence of " ++ toString n ++ " bytes from index " ++ toString e.validUpTo
  | none => "incomplete utf-8 byte sequence from index " ++ toString e.validUpTo

/-- A continuation byte `10xxxxxx`, which `as i8` puts below `-64`. -/
def isContinuation (b : UInt8) : Bool := 0x80 ≤ b && b ≤ 0xBF

/-- The second bytes that `run_utf8_validation` accepts after the first
byte of a three-byte sequence. -/
def secondOfThree (first b : UInt8) : Bool :=
  (first == 0xE0 && 0xA0 ≤ b && b ≤ 0xBF) || (0xE1 ≤ first && first ≤ 0xEC && isContinuation b) ||
    (first == 0xED && 0x80 ≤ b && b ≤ 0x9F) || (0xEE ≤ first && first ≤ 0xEF && isContinuation b)

/-- The second bytes that `run_utf8_validation` accepts after the first
byte of a four-byte sequence. -/
def secondOfFour (first b : UInt8) : Bool :=
  (first == 0xF0 && 0x90 ≤ b && b ≤ 0xBF) || (0xF1 ≤ first && first ≤ 0xF3 && isContinuation b) ||
    (first == 0xF4 && 0x80 ≤ b && b ≤ 0x8F)

/-- `run_utf8_validation` from index `i` on: the first error, with the
index of the sequence it starts and, unless the input ended inside the
sequence, how many of its bytes were read. The width of a sequence comes
from its first byte (`UTF8_CHAR_WIDTH`). -/
def runUtf8Validation (i : Nat) : Bytes → Option Utf8Error
  | [] => none
  | first :: rest =>
    if first < 0x80 then runUtf8Validation (i + 1) rest
    else if 0xC2 ≤ first && first ≤ 0xDF then
      match rest with
      | [] => some ⟨i, none⟩
      | b :: rest => if isContinuation b then runUtf8Validation (i + 2) rest else some ⟨i, some 1⟩
    else if 0xE0 ≤ first && first ≤ 0xEF then
      match rest with
      | [] => some ⟨i, none⟩
      | b :: rest =>
        if !secondOfThree first b then some ⟨i, some 1⟩
        else match rest with
          | [] => some ⟨i, none⟩
          | c :: rest => if isContinuation c then runUtf8Validation (i + 3) rest else some ⟨i, some 2⟩
    else if 0xF0 ≤ first && first ≤ 0xF4 then
      match rest with
      | [] => some ⟨i, none⟩
      | b :: rest =>
        if !secondOfFour first b then some ⟨i, some 1⟩
        else match rest with
          | [] => some ⟨i, none⟩
          | c :: rest =>
            if !isContinuation c then some ⟨i, some 2⟩
            else match rest with
              | [] => some ⟨i, none⟩
              | d :: rest =>
                if isContinuation d then runUtf8Validation (i + 4) rest else some ⟨i, some 3⟩
    else some ⟨i, some 1⟩

/-- The error `String::from_utf8` returns for bytes that are not UTF-8. -/
def fromUtf8Error (bytes : Bytes) : Utf8Error :=
  (runUtf8Validation 0 bytes).getD ⟨bytes.length, none⟩

/-- `impl Deserialize for String`: `String::from_utf8`, whose error becomes
`EvmError::Internal`. -/
instance : Deserialize String where
  deserialize bytes := match String.fromUTF8? bytes.toByteArray with
    | some s => .ok s
    | none => .err (.internal ("Internal error: " ++ (fromUtf8Error bytes).text))

/-- `deserialize` reads back what `serialize` wrote. -/
class LawfulCodec (α : Type) [Serialize α] [Deserialize α] : Prop where
  deserialize_serialize : ∀ (a : α) (bytes : Bytes),
    Serialize.serialize a = .ok bytes → Deserialize.deserialize bytes = .ok a

instance : LawfulCodec U256 where
  deserialize_serialize x bytes h := by
    have hb : u256ToBytes x = bytes := Except.ok.inj h
    subst hb
    show u256FromBytes (u256ToBytes x) = .ok x
    rw [u256FromBytes, if_pos (by simp [u256ToBytes]), u256ToBytes,
      Rlp.ofNat_bytesValue_toBytes x (by norm_num)]

instance : LawfulCodec String where
  deserialize_serialize str bytes h := by
    have hs : str.toUTF8.data.toList = bytes := Except.ok.inj h
    subst hs
    have hb : str.toUTF8.data.toList.toByteArray = str.toByteArray := by
      apply ByteArray.ext
      simp
    simp only [Deserialize.deserialize, hb, String.fromUTF8?, dif_pos str.isValidUTF8]
    rfl

/-- `Scalar`: the value at one storage key. -/
structure Scalar where
  position : H256

/-- `Map`: an entry for each key, at the hash of the key and the position. -/
structure Map where
  position : H256

/-- `Array`: element `index` at `sha3(position) + index`, and the length,
which only `set_len` and `get_len` keep, at the position. -/
structure Array where
  position : H256

variable (sha3 : Bytes → H256) (ext : Ext σ)

namespace Scalar

/-- `set`. -/
def set (self : Scalar) (s : σ) (value : U256) : Outcome Error σ :=
  ofExcept (ext.setStorage s self.position value)

/-- `get`. -/
def get (self : Scalar) (s : σ) : Outcome Error U256 :=
  ofExcept (ext.storageAt s self.position)

/-- The loop of `set_bytes` over `encoded.chunks(32)`: each chunk at
`key`, then `key = key + U256::one()`. -/
def setChunks (s : σ) (key : U256) : List Bytes → Outcome Error σ
  | [] => .ok s
  | chunk :: chunks => do
    let s ← ofExcept (ext.setStorage s key (h256FromSlice chunk))
    let key ← uintAdd key 1
    setChunks s key chunks

/-- `set_bytes` once `value.serialize()` has returned `encoded`. The length
goes through `usize` and `u64`, hence the `% 2 ^ 64`. -/
def setEncoded (self : Scalar) (s : σ) (encoded : Bytes) : Outcome Error σ :=
  let length := encoded.length
  if length < 32 then
    -- `byte32[0..len].copy_from_slice(&encoded); byte32[31] = (length * 2) as u8`
    let byte32 := (Slice.write (List.replicate 32 0) 0 encoded).set 31 (length * 2).toUInt8
    ofExcept (ext.setStorage s self.position (h256FromSlice byte32))
  else do
    let s ← ofExcept (ext.setStorage s self.position (BitVec.ofNat 256 ((length * 2 + 1) % 2 ^ 64)))
    setChunks ext s (sha3 (u256ToBytes self.position)) (Slice.chunks 32 encoded)

/-- `set_bytes`. -/
def setBytes [Serialize α] (self : Scalar) (s : σ) (value : α) : Outcome Error σ := do
  let encoded ← ofExcept (Serialize.serialize value)
  self.setEncoded sha3 ext s encoded

/-- The `while len > 0` loop of `get_bytes`: a whole word while more than
32 bytes are left, then the first `len` bytes of the last one. -/
def getChunks (s : σ) (bytes : Bytes) (key : U256) (len : Nat) : Outcome Error Bytes :=
  if len > 0 then do
    let v ← ofExcept (ext.storageAt s key)
    if len > 32 then do
      let key ← uintAdd key 1
      getChunks s (bytes ++ u256ToBytes v) key (len - 32)
    else do
      let last ← Slice.range (u256ToBytes v) 0 len
      pure (bytes ++ last)
  else pure bytes
termination_by len

/-- `get_bytes` up to `T::deserialize`: an even last byte is twice the
length of bytes kept in the word itself; an odd word is `2 * len + 1` for
`len` bytes kept from `sha3(position)` on. -/
def getEncoded (self : Scalar) (s : σ) : Outcome Error Bytes := do
  let first ← ofExcept (ext.storageAt s self.position)
  -- `first[31]`, the last of the word's big-endian bytes
  let last := first.toNat % 256
  if last % 2 = 0 then
    Slice.range (u256ToBytes first) 0 (last / 2)
  else
    getChunks ext s [] (sha3 (u256ToBytes self.position)) ((lowU64 first - 1) / 2)

/-- `get_bytes`. -/
def getBytes [Deserialize α] (self : Scalar) (s : σ) : Outcome Error α := do
  let bytes ← self.getEncoded sha3 ext s
  Deserialize.deserialize bytes

end Scalar

namespace Array

/-- `U256::from(sha3(&self.position)) + U256::from(index)`, the key of
element `index`, which every method of `Array` computes first. -/
def elementKey (self : Array) (index : Nat) : Outcome Error U256 :=
  uintAdd (sha3 (u256ToBytes self.position)) (BitVec.ofNat 256 index)

/-- `set`. -/
def set (self : Array) (s : σ) (index : Nat) (value : U256) : Outcome Error σ := do
  let key ← self.elementKey sha3 index
  (Scalar.mk key).set ext s value

/-- `get`. -/
def get (self : Array) (s : σ) (index : Nat) : Outcome Error U256 := do
  let key ← self.elementKey sha3 index
  (Scalar.mk key).get ext s

/-- `set_bytes`. -/
def setBytes [Serialize α] (self : Array) (s : σ) (index : Nat) (value : α) : Outcome Error σ := do
  let key ← self.elementKey sha3 index
  (Scalar.mk key).setBytes sha3 ext s value

/-- `get_bytes`. -/
def getBytes [Deserialize α] (self : Array) (s : σ) (index : Nat) : Outcome Error α := do
  let key ← self.elementKey sha3 index
  (Scalar.mk key).getBytes sha3 ext s

/-- `set_len`: `H256::from(len)` of a `u64`. -/
def setLen (self : Array) (s : σ) (len : Nat) : Outcome Error σ :=
  ofExcept (ext.setStorage s self.position (BitVec.ofNat 256 len))

/-- `get_len`: `low_u64` of the word. -/
def getLen (self : Array) (s : σ) : Outcome Error Nat := do
  let len ← ofExcept (ext.storageAt s self.position)
  pure (lowU64 len)

/-- `get_array`. -/
def getArray (self : Array) (index : Nat) : Outcome Error Array := do
  let key ← self.elementKey sha3 index
  pure ⟨key⟩

/-- `get_map`. -/
def getMap (self : Array) (index : Nat) : Outcome Error Map := do
  let key ← self.elementKey sha3 index
  pure ⟨key⟩

end Array

namespace Map

/-- `sha3` of the serialized key followed by the position, the key of the
entry of `key`, which every method of `Map` computes first. -/
def entryKey [Serialize κ] (self : Map) (key : κ) : Outcome Error H256 := do
  let bytes ← ofExcept (Serialize.serialize key)
  pure (sha3 (bytes ++ u256ToBytes self.position))

/-- `set`. -/
def set [Serialize κ] (self : Map) (s : σ) (key : κ) (value : U256) : Outcome Error σ := do
  let key ← self.entryKey sha3 key
  (Scalar.mk key).set ext s value

/-- `get`. -/
def get [Serialize κ] (self : Map) (s : σ) (key : κ) : Outcome Error U256 := do
  let key ← self.entryKey sha3 key
  (Scalar.mk key).get ext s

/-- `set_bytes`. -/
def setBytes [Serialize κ] [Serialize α] (self : Map) (s : σ) (key : κ) (value : α) :
    Outcome Error σ := do
  let key ← self.entryKey sha3 key
  (Scalar.mk key).setBytes sha3 ext s value

/-- `get_bytes`. -/
def getBytes [Serialize κ] [Deserialize α] (self : Map) (s : σ) (key : κ) : Outcome Error α := do
  let key ← self.entryKey sha3 key
  (Scalar.mk key).getBytes sha3 ext s

/-- `get_array`. -/
def getArray [Serialize κ] (self : Map) (key : κ) : Outcome Error Array := do
  let key ← self.entryKey sha3 key
  pure ⟨key⟩

/-- `get_map`. -/
def getMap [Serialize κ] (self : Map) (key : κ) : Outcome Error Map := do
  let key ← self.entryKey sha3 key
  pure ⟨key⟩

end Map

/-! ## Words and bytes -/

/-- A word made of 32 bytes has them as its bytes. -/
theorem u256ToBytes_ofNat {l : Bytes} (hl : l.length = 32) :
    u256ToBytes (BitVec.ofNat 256 (Word.bytesValue l)) = l := by
  have hlt : Word.bytesValue l < 2 ^ 256 := by
    have h := Word.bytesValue_lt l
    rw [hl] at h
    exact lt_of_lt_of_eq h (by norm_num)
  rw [u256ToBytes, BitVec.toNat_ofNat, Nat.mod_eq_of_lt hlt, ← hl, Word.toBytes_bytesValue]

theorem u256ToBytes_h256FromSlice {c : Bytes} (hc : c.length ≤ 32) :
    u256ToBytes (h256FromSlice c) = c ++ List.replicate (32 - c.length) 0 := by
  rw [h256FromSlice, fromSlice_of_le hc]
  exact u256ToBytes_ofNat (by simp only [List.length_append, List.length_replicate]; omega)

/-- The low byte of a word of 32 bytes is the last of them. -/
theorem toNat_ofNat_mod_256 (l : Bytes) (b : UInt8) :
    (BitVec.ofNat 256 (Word.bytesValue (l ++ [b]))).toNat % 256 = b.toNat := by
  have hb : b.toNat < 256 := b.toNat_lt
  rw [BitVec.toNat_ofNat, Nat.mod_mod_of_dvd _ (by norm_num), Word.bytesValue_append_single]
  omega

theorem toNat_add_ofNat {key : U256} {i : Nat} (h : key.toNat + i < 2 ^ 256) :
    (key + BitVec.ofNat 256 i).toNat = key.toNat + i := by
  rw [BitVec.toNat_add, BitVec.toNat_ofNat, Nat.mod_eq_of_lt (by omega : i < 2 ^ 256),
    Nat.mod_eq_of_lt h]

/-- The word `set_bytes` builds for fewer than 32 bytes. -/
theorem shortBytes_eq {e : Bytes} (he : e.length < 32) (x : UInt8) :
    (Slice.write (List.replicate 32 0) 0 e).set 31 x = e ++ List.replicate (31 - e.length) 0 ++ [x] := by
  have hw : Slice.write (List.replicate 32 (0 : UInt8)) 0 e = e ++ List.replicate (32 - e.length) 0 := by
    simp only [Slice.write, List.take_zero, List.nil_append, Nat.zero_add, List.drop_replicate]
  have hrep : 32 - e.length = (31 - e.length) + 1 := by omega
  rw [hw, List.set_append_right _ _ (by omega), hrep, List.replicate_succ',
    List.set_append_right _ _ (by simp), List.length_replicate, Nat.sub_self]
  simp

/-! ## The layout of a byte string -/

/-- The word at the position: the bytes themselves with twice their count
in the last byte, or `2 * len + 1` for 32 bytes or more. -/
def headWord (bytes : Bytes) : H256 :=
  if bytes.length < 32 then
    h256FromSlice (bytes ++ List.replicate (31 - bytes.length) 0 ++ [(bytes.length * 2).toUInt8])
  else BitVec.ofNat 256 ((bytes.length * 2 + 1) % 2 ^ 64)

/-- The words of the chunks `cs`, from `key` on. -/
def chunkWrites : U256 → List Bytes → List (H256 × H256)
  | _, [] => []
  | key, c :: cs => (key, h256FromSlice c) :: chunkWrites (key + 1) cs

/-- The words of `bytes` at `position`, in the order `set_bytes` writes
them. -/
def layout (position : H256) (bytes : Bytes) : List (H256 × H256) :=
  (position, headWord bytes) ::
    if bytes.length < 32 then [] else chunkWrites (sha3 (u256ToBytes position)) (Slice.chunks 32 bytes)

/-- The storage of `s` holds the layout of `bytes` at `position`, and the
chunk keys stay below the last word. -/
structure Holds (s : σ) (position : H256) (bytes : Bytes) : Prop where
  words : ∀ kw ∈ layout sha3 position bytes, ext.storageAt s kw.1 = .ok kw.2
  fits : (sha3 (u256ToBytes position)).toNat + (Slice.chunks 32 bytes).length ≤ 2 ^ 256

/-- The chunk keys are the words from `key` on. -/
theorem map_fst_chunkWrites (key : U256) (cs : List Bytes) :
    (chunkWrites key cs).map Prod.fst = (List.range cs.length).map fun i => key + BitVec.ofNat 256 i := by
  induction cs generalizing key with
  | nil => rfl
  | cons c cs ih =>
    rw [chunkWrites, List.map_cons, ih, List.length_cons, List.range_succ_eq_map, List.map_cons,
      List.map_map]
    congr 1
    · simp
    · refine List.map_congr_left fun i _ => ?_
      simp only [Function.comp_apply, Nat.succ_eq_add_one, BitVec.ofNat_add, BitVec.add_assoc,
        BitVec.add_comm (BitVec.ofNat 256 i)]
      rfl

/-- Keys from `key` on that stay below the last word are distinct. -/
theorem nodup_keys {key : U256} {n : Nat} (h : key.toNat + n ≤ 2 ^ 256) :
    ((List.range n).map fun i => key + BitVec.ofNat 256 i).Nodup := by
  refine (List.nodup_range).map_on fun i hi j hj hij => ?_
  rw [List.mem_range] at hi hj
  have := congrArg BitVec.toNat hij
  rwa [toNat_add_ofNat (by omega), toNat_add_ofNat (by omega), Nat.add_left_cancel_iff] at this

/-! ## What `set_bytes` writes -/

/-- The loop of `set_bytes` writes the chunk words in order; it went
through, so the key after the last chunk fits a word. -/
theorem setChunks_writes {s s' : σ} {key : U256} {cs : List Bytes}
    (h : Scalar.setChunks ext s key cs = .ok s') :
    WritesAll ext.Writes s (chunkWrites key cs) s' ∧ key.toNat + cs.length < 2 ^ 256 := by
  induction cs generalizing s key with
  | nil =>
    cases h
    exact ⟨.nil _, by simpa using key.isLt⟩
  | cons c cs ih =>
    obtain ⟨t, ht, h⟩ := Outcome.bind_eq_ok.mp h
    obtain ⟨key', hkey, h⟩ := Outcome.bind_eq_ok.mp h
    obtain ⟨hlt, rfl⟩ := uintAdd_eq_ok_iff.mp hkey
    obtain ⟨hrun, hfit⟩ := ih h
    have hone : (1 : U256).toNat = 1 := rfl
    have hk1 : (key + 1).toNat = key.toNat + 1 := by
      rw [BitVec.toNat_add, hone, Nat.mod_eq_of_lt (by omega)]
    rw [hk1] at hfit
    exact ⟨.cons (Outcome.ofExcept_eq_ok.mp ht) hrun, by rw [List.length_cons]; omega⟩

/-- `set_bytes` is the run of the writes of the layout; a long one went
through, so the key after its last chunk fits a word. -/
theorem setEncoded_writes {s s' : σ} {p : Scalar} {e : Bytes}
    (h : p.setEncoded sha3 ext s e = .ok s') :
    WritesAll ext.Writes s (layout sha3 p.position e) s' ∧
      (32 ≤ e.length → (sha3 (u256ToBytes p.position)).toNat + (Slice.chunks 32 e).length < 2 ^ 256) := by
  unfold Scalar.setEncoded at h
  by_cases hshort : e.length < 32
  · rw [if_pos hshort, shortBytes_eq hshort] at h
    have hw : ext.Writes s p.position (headWord e) s' := by
      rw [headWord, if_pos hshort]
      exact Outcome.ofExcept_eq_ok.mp h
    refine ⟨?_, fun h32 => absurd h32 (by omega)⟩
    rw [layout, if_pos hshort]
    exact .cons hw (.nil s')
  · rw [if_neg hshort] at h
    obtain ⟨t, ht, h⟩ := Outcome.bind_eq_ok.mp h
    have hw : ext.Writes s p.position (headWord e) t := by
      rw [headWord, if_neg hshort]
      exact Outcome.ofExcept_eq_ok.mp ht
    obtain ⟨hrun, hfit⟩ := setChunks_writes ext h
    refine ⟨?_, fun _ => hfit⟩
    rw [layout, if_neg hshort]
    exact .cons hw hrun

/-- In a store, a slot holds the layout that `set_bytes` wrote, when its
position is none of the chunk keys. -/
theorem holds_of_setEncoded (hext : ext.StorageLaws) {s s' : σ} {p : Scalar} {e : Bytes}
    (hsep : ∀ i < (Slice.chunks 32 e).length,
      p.position ≠ sha3 (u256ToBytes p.position) + BitVec.ofNat 256 i)
    (h : p.setEncoded sha3 ext s e = .ok s') : Holds sha3 ext s' p.position e := by
  obtain ⟨hrun, hfit⟩ := setEncoded_writes sha3 ext h
  -- the position and the chunk keys are distinct, so each reads its own word
  have hnd : ((layout sha3 p.position e).map Prod.fst).Nodup := by
    rw [layout, List.map_cons, List.nodup_cons]
    split
    · simp
    · rename_i hlong
      rw [map_fst_chunkWrites]
      refine ⟨?_, nodup_keys (le_of_lt (hfit (by omega)))⟩
      simp only [List.mem_map, List.mem_range, not_exists, not_and]
      exact fun i hi heq => hsep i hi heq.symm
  refine ⟨fun kw hkw => ?_, ?_⟩
  · rw [hext.read_writesAll hrun kw.1, lastWrite_of_nodup hnd hkw]
    rfl
  · by_cases hlong : 32 ≤ e.length
    · exact le_of_lt (hfit hlong)
    · -- a short string has at most one chunk
      have hcount : (Slice.chunks 32 e).length ≤ 1 := by
        rw [Slice.length_chunks]
        omega
      have := (sha3 (u256ToBytes p.position)).isLt
      omega

/-! ## What `get_bytes` reads -/

/-- The loop of `get_bytes` reads back the bytes whose chunk words it finds
from `key` on. -/
theorem getChunks_of_words {s : σ} (n : Nat) : ∀ (rest acc : Bytes) (key : U256), rest.length = n →
    (∀ kw ∈ chunkWrites key (Slice.chunks 32 rest), ext.storageAt s kw.1 = .ok kw.2) →
    key.toNat + (Slice.chunks 32 rest).length ≤ 2 ^ 256 →
    Scalar.getChunks ext s acc key rest.length = .ok (acc ++ rest) := by
  induction n using Nat.strong_induction_on with
  | _ n ih =>
    intro rest acc key hn hwords hfit
    by_cases hnil : rest = []
    · subst hnil
      rw [Scalar.getChunks, if_neg (by simp)]
      simp
    · have hpos : 0 < rest.length := List.length_pos_iff.mpr hnil
      rw [Slice.chunks_of_ne_nil (by omega) hnil] at hwords hfit
      rw [chunkWrites, List.forall_mem_cons] at hwords
      obtain ⟨hword, hwords⟩ := hwords
      have hfirst : u256ToBytes (h256FromSlice (rest.take 32)) =
          rest.take 32 ++ List.replicate (32 - (rest.take 32).length) 0 :=
        u256ToBytes_h256FromSlice (by simp)
      rw [Scalar.getChunks, if_pos hpos, hword, Outcome.ofExcept_ok, Outcome.ok_bind]
      dsimp only
      by_cases hlong : rest.length > 32
      · -- a whole word, then the rest from the next key
        have hdrop : (rest.drop 32).length = rest.length - 32 := List.length_drop
        have hmore : 0 < (Slice.chunks 32 (rest.drop 32)).length := by
          rw [Slice.length_chunks]
          omega
        rw [List.length_cons] at hfit
        have hone : (1 : U256).toNat = 1 := rfl
        rw [if_pos hlong, uintAdd_of_lt (by rw [hone]; omega), Outcome.ok_bind, ← hdrop]
        have hk1 : (key + 1).toNat = key.toNat + 1 := by
          rw [BitVec.toNat_add, hone, Nat.mod_eq_of_lt (by omega)]
        rw [ih _ (by omega) (rest.drop 32) _ _ rfl hwords (by omega), hfirst,
          List.length_take_of_le (by omega), Nat.sub_self, List.replicate_zero, List.append_nil,
          List.append_assoc, List.take_append_drop]
      · have hle : rest.length ≤ 32 := by omega
        rw [if_neg hlong, hfirst, List.take_of_length_le hle,
          Slice.range_ok (Nat.zero_le _) (by simp)]
        simp

/-- A slot that holds the layout of a byte string reads it back. -/
theorem getEncoded_of_holds {s : σ} {p : Scalar} {e : Bytes} (hh : Holds sha3 ext s p.position e)
    (hlen : e.length < 2 ^ 63) : p.getEncoded sha3 ext s = .ok e := by
  have hhead : ext.storageAt s p.position = .ok (headWord e) := hh.words _ List.mem_cons_self
  unfold Scalar.getEncoded
  rw [hhead, Outcome.ofExcept_ok, Outcome.ok_bind]
  dsimp only
  by_cases hshort : e.length < 32
  · -- the bytes and twice their count are in the word itself
    have hword : headWord e = BitVec.ofNat 256
        (Word.bytesValue (e ++ List.replicate (31 - e.length) 0 ++ [(e.length * 2).toUInt8])) := by
      rw [headWord, if_pos hshort, h256FromSlice, fromSlice_of_length_eq]
      simp only [List.length_append, List.length_replicate, List.length_singleton]
      omega
    have hlast : (headWord e).toNat % 256 = e.length * 2 := by
      rw [hword, toNat_ofNat_mod_256, Nat.toUInt8, UInt8.toNat_ofNat']
      omega
    rw [hlast, if_pos (by omega), Nat.mul_div_cancel _ (by norm_num), hword,
      u256ToBytes_ofNat (by simp; omega), Slice.range_ok (Nat.zero_le _) (by simp)]
    simp
  · -- `2 * len + 1`, and the chunks from `sha3(position)` on
    have hhead' : (headWord e).toNat = e.length * 2 + 1 := by
      rw [headWord, if_neg hshort, BitVec.toNat_ofNat, Nat.mod_eq_of_lt (by omega),
        Nat.mod_eq_of_lt (by omega)]
    rw [hhead', if_neg (by omega), lowU64, hhead', Nat.mod_eq_of_lt (by omega),
      show (e.length * 2 + 1 - 1) / 2 = e.length by omega]
    have hwords : ∀ kw ∈ chunkWrites (sha3 (u256ToBytes p.position)) (Slice.chunks 32 e),
        ext.storageAt s kw.1 = .ok kw.2 := fun kw hkw =>
      hh.words kw (by rw [layout, if_neg hshort]; exact List.mem_cons_of_mem _ hkw)
    simpa using getChunks_of_words ext e.length e [] _ rfl hwords hh.fits

/-- A slot that holds the encoding of a value reads the value back. -/
theorem getBytes_of_holds [Serialize α] [Deserialize α] [LawfulCodec α] {s : σ} {p : Scalar}
    {value : α} {e : Bytes} (henc : Serialize.serialize value = .ok e) (hlen : e.length < 2 ^ 63)
    (hh : Holds sha3 ext s p.position e) : p.getBytes sha3 ext s = .ok value := by
  rw [Scalar.getBytes, getEncoded_of_holds sha3 ext hh hlen, Outcome.ok_bind]
  exact LawfulCodec.deserialize_serialize value e henc

/-- `set_bytes` of a serialized value is `set_bytes` of its bytes. -/
theorem setEncoded_of_setBytes [Serialize α] {s s' : σ} {p : Scalar} {value : α} {e : Bytes}
    (henc : Serialize.serialize value = .ok e) (h : p.setBytes sha3 ext s value = .ok s') :
    p.setEncoded sha3 ext s e = .ok s' := by
  rwa [Scalar.setBytes, henc, Outcome.ofExcept_ok, Outcome.ok_bind] at h

/-- **Round trip.** In a store, a value that `set_bytes` wrote at a slot
reads back through `get_bytes`, when the position is none of the chunk
keys. -/
theorem getBytes_setBytes [Serialize α] [Deserialize α] [LawfulCodec α] (hext : ext.StorageLaws)
    {p : Scalar} {s s' : σ} {value : α} {encoded : Bytes}
    (henc : Serialize.serialize value = .ok encoded) (hlen : encoded.length < 2 ^ 63)
    (hsep : ∀ i < (Slice.chunks 32 encoded).length,
      p.position ≠ sha3 (u256ToBytes p.position) + BitVec.ofNat 256 i)
    (h : p.setBytes sha3 ext s value = .ok s') : p.getBytes sha3 ext s' = .ok value :=
  getBytes_of_holds sha3 ext henc hlen
    (holds_of_setEncoded sha3 ext hext hsep (setEncoded_of_setBytes sha3 ext henc h))

/-- Externalities whose state is the storage itself, a word at each key;
nothing else exists, as for `Ext.inert`. -/
def wordStore : Ext (H256 → H256) where
  storageAt s k := .ok (s k)
  setStorage s k v := .ok (Function.update s k v)
  «exists» _ _ := .ok false
  existsAndNotNull _ _ := .ok false
  originBalance _ := .ok 0
  balance _ _ := .ok 0
  blockhash _ _ := 0
  create s _ _ _ := (.failed, s)
  call s _ _ _ _ _ _ out _ := (.failed, out, s)
  extcode _ _ := .ok []
  extcodesize _ _ := .ok 0
  log s _ _ := .ok s
  suicide s _ := .ok s
  schedule := Schedule.newV1
  envInfo := ⟨0, 0, 0, 0, 0⟩
  depth := 0
  incSstoreClears s := s
  tracePrepareExecute s _ _ _ := (false, s)
  traceExecuted s _ _ _ _ := s
  isStatic := false

theorem wordStore_storageLaws : wordStore.StorageLaws := by
  intro s s' k v h k'
  have hs : Function.update s k v = s' := Except.ok.inj h
  subst hs
  by_cases hk : k' = k <;> simp [wordStore, hk]

/-- A hash that puts the chunks of slot `p` from `2^128 + p * 2^64` on. -/
def sampleSha3 (b : Bytes) : H256 := BitVec.ofNat 256 (2 ^ 128 + Word.bytesValue b * 2 ^ 64)

theorem getBytes_setBytes_word :
    ∃ s', (⟨0⟩ : Scalar).setBytes sampleSha3 wordStore (fun _ => 0) (0x1234 : U256) = .ok s' ∧
      (⟨0⟩ : Scalar).getBytes sampleSha3 wordStore s' = .ok (0x1234 : U256) :=
  ⟨_, rfl, getBytes_setBytes sampleSha3 wordStore wordStore_storageLaws rfl (by decide) (by decide) rfl⟩

/-! ## Runs of `set_bytes` on slots that are apart -/

/-- The keys that the layout of a string of at most `n` chunks may use at
`position`. -/
def footprint (position : H256) (n : Nat) : List H256 :=
  position :: (List.range n).map fun i => sha3 (u256ToBytes position) + BitVec.ofNat 256 i

/-- The slots `P` are apart for strings of at most `n` chunks: no slot is
one of its own chunk keys, and no two slots share a key. -/
structure Apart (P : List H256) (n : Nat) : Prop where
  self : ∀ p ∈ P, ∀ i < n, p ≠ sha3 (u256ToBytes p) + BitVec.ofNat 256 i
  disjoint : ∀ p ∈ P, ∀ q ∈ P, p ≠ q → ∀ k ∈ footprint sha3 p n, k ∉ footprint sha3 q n

theorem mem_footprint {p : H256} {e : Bytes} {n : Nat} (hn : (Slice.chunks 32 e).length ≤ n)
    {kw : H256 × H256} (hkw : kw ∈ layout sha3 p e) : kw.1 ∈ footprint sha3 p n := by
  rw [layout, List.mem_cons] at hkw
  rcases hkw with rfl | hkw
  · exact List.mem_cons_self
  · split at hkw
    · cases hkw
    · have hk := List.mem_map_of_mem (f := Prod.fst) hkw
      rw [map_fst_chunkWrites] at hk
      obtain ⟨i, hi, hki⟩ := List.mem_map.mp hk
      rw [List.mem_range] at hi
      exact List.mem_cons_of_mem _ (List.mem_map.mpr ⟨i, List.mem_range.mpr (by omega), hki⟩)

/-- Writes of keys outside a layout leave it held. -/
theorem Holds.of_writesAll (hext : ext.StorageLaws) {s s' : σ} {p : H256} {e : Bytes}
    {ws : List (H256 × H256)} (hh : Holds sha3 ext s p e) (hrun : WritesAll ext.Writes s ws s')
    (hout : ∀ kw ∈ layout sha3 p e, kw.1 ∉ ws.map Prod.fst) : Holds sha3 ext s' p e where
  words kw hkw := by
    rw [hext.read_writesAll hrun, lastWrite_eq_none (hout kw hkw)]
    exact hh.words kw hkw
  fits := hh.fits

/-- A `set_bytes` of `value` at a slot of `P`, whose encoding has at most
`n` chunks. -/
def SetsSlot [Serialize α] (P : List H256) (n : Nat) (s : σ) (position : H256) (value : α) (s' : σ) :
    Prop :=
  position ∈ P ∧
    (∃ e, Serialize.serialize value = .ok e ∧ e.length < 2 ^ 63 ∧ (Slice.chunks 32 e).length ≤ n) ∧
    (Scalar.mk position).setBytes sha3 ext s value = .ok s'

/-- The storage keeps `value` at a slot of `P`: it holds the layout of its
encoding. -/
def Keeps [Serialize α] (P : List H256) (n : Nat) (s : σ) (position : H256) (value : α) : Prop :=
  position ∈ P ∧ ∃ e, Serialize.serialize value = .ok e ∧ e.length < 2 ^ 63 ∧
    (Slice.chunks 32 e).length ≤ n ∧ Holds sha3 ext s position e

section Apart

variable [Serialize α] {P : List H256} {n : Nat} (hext : ext.StorageLaws) (hapart : Apart sha3 P n)
include hext hapart

/-- A `set_bytes` at a slot keeps its value there. -/
theorem keeps_of_setsSlot {s s' : σ} {p : H256} {v : α} (h : SetsSlot sha3 ext P n s p v s') :
    Keeps sha3 ext P n s' p v := by
  obtain ⟨hp, ⟨e, henc, hlen, hn⟩, hset⟩ := h
  have hsep : ∀ i < (Slice.chunks 32 e).length,
      (Scalar.mk p).position ≠ sha3 (u256ToBytes p) + BitVec.ofNat 256 i :=
    fun i hi => hapart.self p hp i (by omega)
  exact ⟨hp, e, henc, hlen, hn, holds_of_setEncoded sha3 ext hext hsep (setEncoded_of_setBytes sha3 ext henc hset)⟩

/-- A `set_bytes` at another slot leaves what a slot keeps. -/
theorem Keeps.of_setsSlot {s s' : σ} {p q : H256} {v v' : α} (h : SetsSlot sha3 ext P n s q v s')
    (hne : p ≠ q) (hk : Keeps sha3 ext P n s p v') : Keeps sha3 ext P n s' p v' := by
  obtain ⟨hq, ⟨e, henc, -, hn⟩, hset⟩ := h
  obtain ⟨hp, e', henc', hlen', hn', hh⟩ := hk
  obtain ⟨hrun, -⟩ := setEncoded_writes sha3 ext (setEncoded_of_setBytes sha3 ext henc hset)
  -- every key of the new layout is in the footprint of `q`, every key of the kept one in that of `p`
  refine ⟨hp, e', henc', hlen', hn', hh.of_writesAll sha3 ext hext hrun fun kw hkw hmem => ?_⟩
  obtain ⟨kw', hkw', heq⟩ := List.mem_map.mp hmem
  exact hapart.disjoint p hp q hq hne kw.1 (mem_footprint sha3 hn' hkw)
    (heq ▸ mem_footprint sha3 hn hkw')

/-- **Slots as a store.** Over any run of `set_bytes` on slots that are
apart, every slot written reads back, through `get_bytes`, the last value
written to it: the words of a store of words make a store of values. -/
theorem getBytes_setBytes_run [Deserialize α] [LawfulCodec α] {s s' : σ} {ops : List (H256 × α)}
    (hrun : WritesAll (SetsSlot sha3 ext P n) s ops s') {p : H256} {v : α}
    (hlast : lastWrite ops p = some v) : (Scalar.mk p).getBytes sha3 ext s' = .ok v := by
  obtain ⟨-, e, henc, hlen, -, hh⟩ := hrun.last (R := Keeps sha3 ext P n)
    (keeps_of_setsSlot sha3 ext hext hapart) (Keeps.of_setsSlot sha3 ext hext hapart) hlast
  exact getBytes_of_holds sha3 ext henc hlen hh

end Apart

/-- The slots 0 and 1 are apart under `sampleSha3` for one chunk. -/
theorem sampleSlots_apart : Apart sampleSha3 [0, 1] 1 where
  self p hp i hi := by
    simp only [List.mem_cons, List.not_mem_nil, or_false] at hp
    obtain rfl : i = 0 := by omega
    rcases hp with rfl | rfl <;> decide
  disjoint p hp q hq hne k hk hk' := by
    simp only [List.mem_cons, List.not_mem_nil, or_false] at hp hq
    simp only [footprint, List.range_one, List.map_cons, List.map_nil, List.mem_cons,
      List.not_mem_nil, or_false] at hk hk'
    rcases hp with rfl | rfl <;> rcases hq with rfl | rfl
    all_goals first
      | exact absurd rfl hne
      | (rcases hk with rfl | rfl <;> rcases hk' with h | h <;> revert h <;> decide)

theorem getBytes_setBytes_run_last :
    ∃ s', WritesAll (SetsSlot sampleSha3 wordStore [0, 1] 1) (fun _ => 0)
        [(0, (5 : U256)), (1, 6), (0, 7)] s' ∧
      (Scalar.mk 0).getBytes sampleSha3 wordStore s' = .ok (7 : U256) := by
  have hrun : WritesAll (SetsSlot sampleSha3 wordStore [0, 1] 1) (fun _ => 0)
      [(0, (5 : U256)), (1, 6), (0, 7)] _ :=
    .cons ⟨by decide, ⟨_, rfl, by decide, by decide⟩, rfl⟩
      (.cons ⟨by decide, ⟨_, rfl, by decide, by decide⟩, rfl⟩
        (.cons ⟨by decide, ⟨_, rfl, by decide, by decide⟩, rfl⟩ (.nil _)))
  exact ⟨_, hrun, getBytes_setBytes_run sampleSha3 wordStore wordStore_storageLaws
    sampleSlots_apart hrun rfl⟩

/-! ## Edges -/

/-- With writes that cannot fail, the loop of `set_bytes` panics exactly
when the key after the last chunk does not fit a word. -/
theorem setChunks_eq_panic_iff (hwrite : ∀ s k v, ∃ s', ext.Writes s k v s') {s : σ} {key : U256}
    {cs : List Bytes} :
    Scalar.setChunks ext s key cs = .panic "arithmetic operation overflow" ↔
      2 ^ 256 ≤ key.toNat + cs.length := by
  induction cs generalizing s key with
  | nil =>
    have := key.isLt
    simp only [Scalar.setChunks, List.length_nil, Nat.add_zero, reduceCtorEq, false_iff, not_le]
    exact this
  | cons c cs ih =>
    obtain ⟨t, ht⟩ := hwrite s key (h256FromSlice c)
    have hone : (1 : U256).toNat = 1 := rfl
    rw [Scalar.setChunks, show ext.setStorage s key (h256FromSlice c) = .ok t from ht,
      Outcome.ofExcept_ok, Outcome.ok_bind, List.length_cons]
    by_cases hlt : key.toNat + 1 < 2 ^ 256
    · have hk1 : (key + 1).toNat = key.toNat + 1 := by
        rw [BitVec.toNat_add, hone, Nat.mod_eq_of_lt hlt]
      rw [uintAdd_of_lt (by rw [hone]; exact hlt), Outcome.ok_bind, ih, hk1]
      omega
    · rw [uintAdd_of_le (by rw [hone]; omega), Outcome.panic_bind]
      simp only [true_iff]
      omega

/-- **`set_bytes` at the top of the key space.** With writes that cannot
fail, `set_bytes` of 32 bytes or more panics exactly when the key after
its last chunk does not fit a word, although no chunk goes there: the loop
adds one to the key after the last chunk too. A layout whose last chunk is
the last word can be read back but not written. -/
theorem setBytes_eq_panic_iff [Serialize α] (hwrite : ∀ s k v, ∃ s', ext.Writes s k v s')
    {p : Scalar} {s : σ} {value : α} {e : Bytes} (henc : Serialize.serialize value = .ok e)
    (hlong : 32 ≤ e.length) :
    p.setBytes sha3 ext s value = .panic "arithmetic operation overflow" ↔
      2 ^ 256 ≤ (sha3 (u256ToBytes p.position)).toNat + (Slice.chunks 32 e).length := by
  obtain ⟨t, ht⟩ := hwrite s p.position (BitVec.ofNat 256 ((e.length * 2 + 1) % 2 ^ 64))
  rw [Scalar.setBytes, henc, Outcome.ofExcept_ok, Outcome.ok_bind, Scalar.setEncoded]
  dsimp only
  rw [if_neg (by omega), show ext.setStorage s p.position _ = .ok t from ht, Outcome.ofExcept_ok,
    Outcome.ok_bind, setChunks_eq_panic_iff ext hwrite]

/-- The hash of the top slot: every chunk goes to the last word. -/
def topSha3 (_ : Bytes) : H256 := BitVec.ofNat 256 (2 ^ 256 - 1)

theorem setBytes_top_panics :
    (⟨0⟩ : Scalar).setBytes topSha3 wordStore (fun _ => 0) (5 : U256) =
      .panic "arithmetic operation overflow" :=
  (setBytes_eq_panic_iff topSha3 wordStore (fun _ _ _ => ⟨_, rfl⟩) rfl (by decide)).mpr (by decide)

end Storage

end Cita
