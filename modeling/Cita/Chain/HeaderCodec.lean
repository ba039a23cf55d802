import Cita.Chain.Types
import Cita.Lib.Rlp

/-!
# The RLP of a header and its memoised hash

`Header::stream_rlp` writes the twelve fields of a header as an RLP list,
and `Header::decode` reads them back by index and memoises the hash of the
raw bytes it was given. `Header::hash` returns that memo, or hashes the
header's own RLP and keeps it; every setter clears the memo.

A header whose memo is empty or the hash of its RLP is `Coherent`. The
headers made by `new`, the setters and `hash`, and those decoded from a
header's own RLP (`decode_rlp`), are all coherent (`Built.hash_eq`).
Decoding does not check the item count and caps the timestamp, so a list
with a thirteenth item, or with a timestamp of `2^64`, is read as a header
whose memo hashes other bytes than its RLP.

The executor keeps a copy of `Header` with the same codec. The proof field
is libproto's `Proof`, whose codec this repository does not hold:
`ProofCodec` is any codec that reads back what it writes.
-/

namespace Cita

namespace Libchain

open Rlp

/-- The `Encodable` and `Decodable` of libproto's `Proof`: a codec that
reads back what it writes, with encodings that fit a Rust vector (at most
`isize::MAX` bytes). -/
structure ProofCodec where
  encode : Proof → Item
  decode : Item → Except DecoderError Proof
  decode_encode : ∀ p, decode (encode p) = .ok p
  length_encode_lt : ∀ p, (Rlp.encode (encode p)).length < 2 ^ 63

/-- A `Header` with the memo of its hash (`HashWrap`). -/
structure MemoHeader where
  header : Header
  memo : Option H256

/-- The fields that the model keeps as `Nat` fit their Rust types: the
number and the timestamp are `u64`, the version is `u32`. -/
def Header.Fits (h : Header) : Prop :=
  h.number < 2 ^ 64 ∧ h.timestamp < 2 ^ 64 ∧ h.version < 2 ^ 32

instance (h : Header) : Decidable h.Fits := inferInstanceAs (Decidable (_ ∧ _ ∧ _))

variable (codec : ProofCodec) (cryptHash : List UInt8 → H256)

namespace Header

/-- The items `stream_rlp` appends after `begin_list(12)`, in its order. -/
def rlpFields (h : Header) : List Item :=
  [Rlp.hash h.parentHash.toNat 32, Rlp.hash h.stateRoot.toNat 32,
    Rlp.hash h.transactionsRoot.toNat 32, Rlp.hash h.receiptsRoot.toNat 32,
    Rlp.hash h.logBloom.toNat 256, uint h.number, uint h.gasLimit.toNat, uint h.gasUsed.toNat,
    uint h.timestamp, uint h.version, codec.encode h.proof, Rlp.hash h.proposer.toNat 20]

/-- `Header::stream_rlp`. -/
def streamRlp (h : Header) : Item := .list (h.rlpFields codec)

/-- `Header::rlp`. -/
def rlp (h : Header) : List UInt8 := encode (h.streamRlp codec)

/-- `Header::rlp_hash`: the crypt hash of the header's RLP. -/
def rlpHash (h : Header) : H256 := cryptHash (h.rlp codec)

/-- `Header::decode`: the fields by index, in the order of the struct
literal; the timestamp read as a `U256` and capped at `u64::MAX`; and the
hash memoised from the raw bytes. -/
def decode (raw : List UInt8) : Except DecoderError MemoHeader := do
  let r ← untrusted raw
  let parentHash ← valAt r 0 (decodeHash 32)
  let stateRoot ← valAt r 1 (decodeHash 32)
  let transactionsRoot ← valAt r 2 (decodeHash 32)
  let receiptsRoot ← valAt r 3 (decodeHash 32)
  let logBloom ← valAt r 4 (decodeHash 256)
  let number ← valAt r 5 (decodeUint 8)
  let gasLimit ← valAt r 6 (decodeUint 32)
  let gasUsed ← valAt r 7 (decodeUint 32)
  let timestamp ← valAt r 8 (decodeUint 32)
  let version ← valAt r 9 (decodeUint 4)
  let proof ← valAt r 10 codec.decode
  let proposer ← valAt r 11 (decodeHash 20)
  pure ⟨⟨.ofNat 256 parentHash, min timestamp u64Max, number, .ofNat 256 transactionsRoot,
    .ofNat 256 stateRoot, .ofNat 256 receiptsRoot, .ofNat 2048 logBloom, .ofNat 256 gasUsed,
    .ofNat 256 gasLimit, proof, version, .ofNat 160 proposer⟩, some (cryptHash raw)⟩

end Header

namespace MemoHeader

/-- `Header::new()`: nothing memoised. -/
def new : MemoHeader := ⟨Header.new, none⟩

/-- `Header::hash`: the memo, or the hash of the RLP, which is then kept. -/
def hash (m : MemoHeader) : H256 × MemoHeader :=
  match m.memo with
  | some h => (h, m)
  | none => (m.header.rlpHash codec cryptHash, ⟨m.header, some (m.header.rlpHash codec cryptHash)⟩)

/-- `Header::note_dirty`. -/
def noteDirty (m : MemoHeader) : MemoHeader := ⟨m.header, none⟩

/-- A setter: a field written, then `note_dirty`. -/
def set (f : Header → Header) (m : MemoHeader) : MemoHeader := noteDirty ⟨f m.header, m.memo⟩

def setParentHash (a : H256) : MemoHeader → MemoHeader := set fun h => { h with parentHash := a }

def setStateRoot (a : H256) : MemoHeader → MemoHeader := set fun h => { h with stateRoot := a }

def setTransactionsRoot (a : H256) : MemoHeader → MemoHeader :=
  set fun h => { h with transactionsRoot := a }

def setReceiptsRoot (a : H256) : MemoHeader → MemoHeader := set fun h => { h with receiptsRoot := a }

def setLogBloom (a : LogBloom) : MemoHeader → MemoHeader := set fun h => { h with logBloom := a }

def setTimestamp (a : Nat) : MemoHeader → MemoHeader := set fun h => { h with timestamp := a }

def setNumber (a : Nat) : MemoHeader → MemoHeader := set fun h => { h with number := a }

def setGasUsed (a : U256) : MemoHeader → MemoHeader := set fun h => { h with gasUsed := a }

def setGasLimit (a : U256) : MemoHeader → MemoHeader := set fun h => { h with gasLimit := a }

def setVersion (a : Nat) : MemoHeader → MemoHeader := set fun h => { h with version := a }

def setProof (a : Proof) : MemoHeader → MemoHeader := set fun h => { h with proof := a }

def setProposer (a : Address) : MemoHeader → MemoHeader := set fun h => { h with proposer := a }

/-- The memo, when there is one, is the hash of the header's RLP. -/
def Coherent (m : MemoHeader) : Prop := ∀ x, m.memo = some x → x = m.header.rlpHash codec cryptHash

end MemoHeader

/-! ## The round trip -/

theorem Header.length_encodeList_rlpFields {h : Header} (hn : h.number < 2 ^ 64)
    (ht : h.timestamp < 2 ^ 256) (hv : h.version < 2 ^ 32) :
    (encodeList (h.rlpFields codec)).length < 2 ^ 63 + 1000 := by
  have hp := codec.length_encode_lt h.proof
  have hroot : ∀ n, (encode (Rlp.hash n 32)).length ≤ 41 :=
    fun n => length_encode_hash_le n (by norm_num)
  have hbloom := length_encode_hash_le h.logBloom.toNat (show 256 < 2 ^ 64 by norm_num)
  have haddr := length_encode_hash_le h.proposer.toNat (show 20 < 2 ^ 64 by norm_num)
  have hnum := length_encode_uint_le (lt_trans hn (by norm_num))
  have hlim := length_encode_uint_le h.gasLimit.isLt
  have hused := length_encode_uint_le h.gasUsed.isLt
  have hts := length_encode_uint_le ht
  have hver := length_encode_uint_le (lt_trans hv (by norm_num))
  have := hroot h.parentHash.toNat
  have := hroot h.stateRoot.toNat
  have := hroot h.transactionsRoot.toNat
  have := hroot h.receiptsRoot.toNat
  clear hn ht hv
  simp only [rlpFields, encodeList, List.length_append, List.length_nil]
  omega

theorem Header.small_rlpFields_append {h : Header} (hn : h.number < 2 ^ 64)
    (ht : h.timestamp < 2 ^ 256) (hv : h.version < 2 ^ 32) {extra : List Item}
    (hextra : (encodeList extra).length < 2 ^ 62) : (Item.list (h.rlpFields codec ++ extra)).Small := by
  have hfields := h.length_encodeList_rlpFields codec hn ht hv
  apply small_list
  rw [encodeList_append, List.length_append]
  omega

/-- `decode` of a list that starts with a header's twelve fields reads that
header, with the timestamp capped, whatever items follow. -/
theorem Header.decode_of_rlpFields {h : Header} (hn : h.number < 2 ^ 64)
    (ht : h.timestamp < 2 ^ 256) (hv : h.version < 2 ^ 32) {raw : List UInt8} {extra : List Item}
    (hraw : untrusted raw = .ok (.list (h.rlpFields codec ++ extra))) :
    Header.decode codec cryptHash raw =
      .ok ⟨{ h with timestamp := min h.timestamp u64Max }, some (cryptHash raw)⟩ := by
  have hnum : decodeUint 8 (uint h.number) = .ok h.number := decodeUint_uint (by simpa using hn)
  have hts : decodeUint 32 (uint h.timestamp) = .ok h.timestamp := decodeUint_uint (by simpa using ht)
  have hver : decodeUint 4 (uint h.version) = .ok h.version := decodeUint_uint (by simpa using hv)
  simp only [Header.decode, hraw, except_ok_bind, valAt, Item.itemAt, Header.rlpFields,
    List.cons_append, List.getElem?_cons_succ, List.getElem?_cons_zero, decodeHash_hash,
    hnum, hts, hver, decodeUint_toNat _ (show 256 = 8 * 32 from rfl), codec.decode_encode,
    pure, Except.pure, Word.ofNat_toNat_mod, BitVec.ofNat_toNat, BitVec.setWidth_eq]

/-- The round trip: a header reads back from its own RLP, with the hash of
that RLP memoised. -/
theorem Header.decode_rlp {h : Header} (hfit : h.Fits) :
    Header.decode codec cryptHash (h.rlp codec) = .ok ⟨h, some (h.rlpHash codec cryptHash)⟩ := by
  obtain ⟨hn, ht, hv⟩ := hfit
  have ht' : h.timestamp < 2 ^ 256 := lt_trans ht (by norm_num)
  have hsmall := h.small_rlpFields_append codec hn ht' hv
    (show (encodeList ([] : List Item)).length < 2 ^ 62 by simp [encodeList])
  have hraw : untrusted (h.rlp codec) = .ok (.list (h.rlpFields codec ++ [])) := by
    rw [List.append_nil] at hsmall ⊢
    exact untrusted_encode hsmall
  rw [h.decode_of_rlpFields codec cryptHash hn ht' hv hraw,
    Nat.min_eq_left (by rw [u64Max]; omega)]
  rfl

/-! ## The memo -/

namespace MemoHeader
variable {codec cryptHash}

theorem coherent_new : new.Coherent codec cryptHash := by
  intro x hx
  simp [new] at hx

theorem coherent_set (f : Header → Header) (m : MemoHeader) : (m.set f).Coherent codec cryptHash := by
  intro x hx
  simp [set, noteDirty] at hx

theorem Coherent.hash {m : MemoHeader} (hm : m.Coherent codec cryptHash) :
    (m.hash codec cryptHash).1 = m.header.rlpHash codec cryptHash ∧
      (m.hash codec cryptHash).2.Coherent codec cryptHash := by
  unfold MemoHeader.hash
  cases hmemo : m.memo with
  | none => exact ⟨rfl, fun x hx => (Option.some.inj hx).symm⟩
  | some y => exact ⟨hm y hmemo, hm⟩

variable (codec cryptHash)

/-- The headers made without reading foreign bytes: `new`, the setters,
`hash`, and the decoding of a header's own RLP. -/
inductive Built : MemoHeader → Prop
  | new : Built new
  | decodeRlp {h : Header} {m : MemoHeader} :
      h.Fits → Header.decode codec cryptHash (h.rlp codec) = .ok m → Built m
  | set (f : Header → Header) {m : MemoHeader} : Built m → Built (m.set f)
  | hash {m : MemoHeader} : Built m → Built (m.hash codec cryptHash).2

variable {codec cryptHash}

theorem Built.coherent {m : MemoHeader} (hb : Built codec cryptHash m) : m.Coherent codec cryptHash := by
  induction hb with
  | new => exact coherent_new
  | decodeRlp hfit hdec =>
    rw [Header.decode_rlp codec cryptHash hfit] at hdec
    cases hdec
    intro x hx
    exact (Option.some.inj hx).symm
  | set f _ _ => exact coherent_set f _
  | hash _ ih => exact ih.hash.2

/-- `hash()` of every header built so is the hash of its RLP. -/
theorem Built.hash_eq {m : MemoHeader} (hb : Built codec cryptHash m) :
    (m.hash codec cryptHash).1 = m.header.rlpHash codec cryptHash :=
  hb.coherent.hash.1

end MemoHeader

/-! ## Non-canonical encodings -/

theorem decode_memoises_noncanonical_bytes (codec : ProofCodec) (cryptHash : List UInt8 → H256) :
    Header.decode codec cryptHash (Header.new.rlp codec) =
        .ok ⟨Header.new, some (cryptHash (Header.new.rlp codec))⟩ ∧
      Header.decode codec cryptHash (encode (.list (Header.new.rlpFields codec ++ [.bytes []]))) =
        .ok ⟨Header.new, some (cryptHash (encode (.list (Header.new.rlpFields codec ++ [.bytes []]))))⟩ ∧
      encode (.list (Header.new.rlpFields codec ++ [.bytes []])) ≠ Header.new.rlp codec ∧
      Header.decode codec cryptHash ({ Header.new with timestamp := 2 ^ 64 }.rlp codec) =
        .ok ⟨{ Header.new with timestamp := u64Max },
          some (cryptHash ({ Header.new with timestamp := 2 ^ 64 }.rlp codec))⟩ ∧
      { Header.new with timestamp := 2 ^ 64 }.rlp codec ≠
        { Header.new with timestamp := u64Max }.rlp codec := by
  have hfits : Header.new.Fits := by decide
  have hempty : (encodeList ([] : List Item)).length < 2 ^ 62 := by simp [encodeList]
  have hone : (encodeList [Item.bytes []]).length < 2 ^ 62 := by decide
  have hsmall := Header.new.small_rlpFields_append codec (by decide) (by decide) (by decide) hempty
  have hextra := Header.new.small_rlpFields_append codec (by decide) (by decide) (by decide) hone
  have hlate := Header.small_rlpFields_append codec (h := { Header.new with timestamp := 2 ^ 64 })
    (by decide) (by decide) (by decide) hempty
  have hmax := Header.small_rlpFields_append codec (h := { Header.new with timestamp := u64Max })
    (by decide) (by decide) (by decide) hempty
  rw [List.append_nil] at hsmall hlate hmax
  refine ⟨Header.decode_rlp codec cryptHash hfits, ?_, ?_, ?_, ?_⟩
  · rw [Header.decode_of_rlpFields codec cryptHash (h := Header.new) (by decide) (by decide)
      (by decide) (untrusted_encode hextra)]
    rfl
  · intro heq
    have hitems := Item.list.inj (encode_inj hextra hsmall heq)
    simpa using congrArg List.length hitems
  · have hraw : untrusted ({ Header.new with timestamp := 2 ^ 64 }.rlp codec) =
        .ok (.list ({ Header.new with timestamp := 2 ^ 64 }.rlpFields codec ++ [])) := by
      rw [List.append_nil]
      exact untrusted_encode hlate
    rw [Header.decode_of_rlpFields codec cryptHash (by decide) (by decide) (by decide) hraw]
    rfl
  · intro heq
    have hitems := Item.list.inj (encode_inj hlate hmax heq)
    have hts := congrArg (fun l => l[8]?) hitems
    simp only [Header.rlpFields, List.getElem?_cons_succ, List.getElem?_cons_zero, Option.some.injEq,
      uint, Item.bytes.injEq] at hts
    have := congrArg Word.bytesValue hts
    rw [bytesValue_natBytes, bytesValue_natBytes, u64Max] at this
    omega
end Libchain

end Cita
