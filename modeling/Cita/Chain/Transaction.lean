import Cita.Executor.Executive
import Cita.Network.Codec
import Cita.Lib.Rlp
import Cita.Lib.Hex

/-!
# Transactions and their two codecs (`types::transaction`)

A transaction reaches the chain as a protobuf message, which
`SignedTransaction::new` checks and reads, and is stored and exchanged as
RLP. `Transaction::new` recognises the reserved actions by comparing the
`to` string with the reserved address strings, and reads any other string,
with or without `0x`, in either case, as the address of a call.
`Action::decode` recognises them by comparing the decoded address. So a
call to a reserved address, written with `0x` or in upper case, is a call
in the transaction and `Store` (or its like) once it went through RLP or
through `protobuf()` and back. Every other transaction reads back through
both (`SignedTransaction.decode_rlp`,
`SignedTransaction.new_protobuf_of_not_reserved`).

The keys and signatures are those of `cita-crypto`'s secp256k1 build: a
65-byte signature and a 64-byte public key. `pubkey_to_address` is a hash
and a parameter.
-/

namespace Cita

namespace Types

open Rlp
open Executor (Action)

/-! ## The data -/

/-- `STORE_ADDRESS`. -/
def storeAddress : String := "ffffffffffffffffffffffffffffffffff010000"

/-- `ABI_ADDRESS`. -/
def abiAddress : String := "ffffffffffffffffffffffffffffffffff010001"

/-- `AMEND_ADDRESS`. -/
def amendAddress : String := "ffffffffffffffffffffffffffffffffff010002"

/-- `GO_CONTRACT`. -/
def goContract : String := "ffffffffffffffffffffffffffffffffff018000"

/-- `clean_0x`: the text after a `0x` prefix. -/
def clean0x (s : String) : List Char :=
  match s.toList with
  | '0' :: 'x' :: rest => rest
  | cs => cs

/-- `Address::from_str`: forty hex digits. -/
def addressFromStr (cs : List Char) : Option Address := (Hex.fixed? 20 cs).map (BitVec.ofNat 160)

/-- `STORE_ADDRESS.into()` and its like: a reserved string read as an
address (the strings are valid, so the default is never taken). -/
def reservedAddress (s : String) : Address := (addressFromStr s.toList).getD 0

/-- `to.lower_hex()` of an address: forty lower-case digits. -/
def lowerHex (a : Address) : String := String.ofList (Hex.digits a.toNat 40)

/-- `U256::as_u64`. -/
def asU64 {ε : Type} (x : U256) : Outcome ε Nat :=
  if x.toNat < 2 ^ 64 then .ok x.toNat else .panic "Integer overflow when casting U256"

/-- `CryptoType`, and libproto's `Crypto`, whose variants it mirrors. -/
inductive CryptoType where
  | secp
  | sm2
deriving DecidableEq, Repr

/-- `libproto::blockchain::Transaction`. -/
structure ProtoTransaction where
  «to» : String
  nonce : String
  quota : Nat
  validUntilBlock : Nat
  data : Bytes
  value : Bytes
  chainId : Nat
  version : Nat
deriving DecidableEq, Repr

/-- `libproto::blockchain::UnverifiedTransaction`. -/
structure ProtoUnverifiedTransaction where
  transaction : ProtoTransaction
  signature : Bytes
  crypto : CryptoType
deriving DecidableEq, Repr

/-- `libproto::blockchain::SignedTransaction`. -/
structure ProtoSignedTransaction where
  transactionWithSig : ProtoUnverifiedTransaction
  txHash : Bytes
  signer : Bytes
deriving DecidableEq, Repr

/-- `Transaction`. -/
structure Transaction where
  nonce : String
  gasPrice : U256
  gas : U256
  action : Action
  value : U256
  data : Bytes
  blockLimit : Nat
  chainId : Nat
  version : Nat
deriving DecidableEq, Repr

/-- `UnverifiedTransaction`; a signature is 65 bytes. -/
structure UnverifiedTransaction where
  unsigned : Transaction
  signature : BitVec 520
  cryptoType : CryptoType
  hash : H256
deriving DecidableEq, Repr

/-- `SignedTransaction`; a public key is 64 bytes. -/
structure SignedTransaction where
  transaction : UnverifiedTransaction
  sender : Address
  publicKey : BitVec 512
deriving DecidableEq, Repr

/-- `transaction::Error`. -/
inductive Error where
  | parseError
  | invalidHash
  | invalidSignature
  | invalidPubKey
deriving DecidableEq, Repr

/-! ## The protobuf side -/

/-- The action of a `to` string: `Create` for an empty one, a reserved
action for a reserved string as it is written, a call otherwise. -/
def actionOfTo (s : String) : Except Error Action :=
  if s.isEmpty then .ok .create
  else if s = storeAddress then .ok .store
  else if s = abiAddress then .ok .abiStore
  else if s = goContract then .ok .goCreate
  else if s = amendAddress then .ok .amendData
  else match addressFromStr (clean0x s) with
    | some a => .ok (.call a)
    | none => .error .parseError

/-- `Transaction::new`. -/
def Transaction.new (pt : ProtoTransaction) : Except Error Transaction := do
  if pt.value.length > 32 then throw .parseError
  let action ← actionOfTo pt.«to»
  pure ⟨pt.nonce, 0, .ofNat 256 pt.quota, action, .ofNat 256 (Word.bytesValue pt.value), pt.data,
    pt.validUntilBlock, pt.chainId, pt.version⟩

/-- The `to` string `proto_transaction` writes. -/
def actionTo : Action → String
  | .create => ""
  | .call a => lowerHex a
  | .store => storeAddress
  | .abiStore => abiAddress
  | .goCreate => goContract
  | .amendData => amendAddress

/-- `Transaction::proto_transaction`. -/
def Transaction.protoTransaction (t : Transaction) : Outcome Empty ProtoTransaction := do
  let quota ← asU64 t.gas
  pure ⟨actionTo t.action, t.nonce, quota, t.blockLimit, t.data, Word.toBytes t.value.toNat 32,
    t.chainId, t.version⟩

/-- `UnverifiedTransaction::new`. -/
def UnverifiedTransaction.new (utx : ProtoUnverifiedTransaction) (hash : H256) :
    Except Error UnverifiedTransaction := do
  if utx.signature.length ≠ 65 then throw .invalidSignature
  let unsigned ← Transaction.new utx.transaction
  pure ⟨unsigned, .ofNat 520 (Word.bytesValue utx.signature), utx.crypto, hash⟩

/-- `UnverifiedTransaction::proto_unverified`. -/
def UnverifiedTransaction.protoUnverified (u : UnverifiedTransaction) :
    Outcome Empty ProtoUnverifiedTransaction := do
  let tx ← u.unsigned.protoTransaction
  pure ⟨tx, Word.toBytes u.signature.toNat 65, u.cryptoType⟩

variable (pubkeyToAddress : BitVec 512 → Address)

/-- `SignedTransaction::new`. -/
def SignedTransaction.new (stx : ProtoSignedTransaction) : Except Error SignedTransaction := do
  if stx.txHash.length ≠ 32 then throw .invalidHash
  if stx.signer.length ≠ 64 then throw .invalidPubKey
  let publicKey : BitVec 512 := .ofNat 512 (Word.bytesValue stx.signer)
  let transaction ← UnverifiedTransaction.new stx.transactionWithSig
    (.ofNat 256 (Word.bytesValue stx.txHash))
  pure ⟨transaction, pubkeyToAddress publicKey, publicKey⟩

/-- `SignedTransaction::protobuf`. -/
def SignedTransaction.protobuf (s : SignedTransaction) : Outcome Empty ProtoSignedTransaction := do
  let utx ← s.transaction.protoUnverified
  pure ⟨utx, Word.toBytes s.transaction.hash.toNat 32, Word.toBytes s.publicKey.toNat 64⟩

/-! ## The RLP side -/

/-- `Action`'s `Encodable`: an empty string for `Create`, an address otherwise. -/
def actionItem : Action → Item
  | .create => .bytes []
  | .call a => Rlp.hash a.toNat 20
  | .store => Rlp.hash (reservedAddress storeAddress).toNat 20
  | .abiStore => Rlp.hash (reservedAddress abiAddress).toNat 20
  | .goCreate => Rlp.hash (reservedAddress goContract).toNat 20
  | .amendData => Rlp.hash (reservedAddress amendAddress).toNat 20

/-- `Action`'s `Decodable`: an empty item is `Create`, a reserved address
its action, any other address a call. -/
def decodeAction (i : Item) : Except DecoderError Action :=
  if i.isEmpty then .ok .create
  else do
    let addr : Address := .ofNat 160 (← decodeHash 20 i)
    if addr = reservedAddress storeAddress then pure .store
    else if addr = reservedAddress abiAddress then pure .abiStore
    else if addr = reservedAddress goContract then pure .goCreate
    else if addr = reservedAddress amendAddress then pure .amendData
    else pure (.call addr)

/-- `String`'s `Decodable`: UTF-8 text. -/
def decodeString (i : Item) : Except DecoderError String := do
  match Network.strFromUtf8 (← i.value) with
  | some s => pure s
  | none => throw .rlpExpectedToBeData

/-- `CryptoType`'s `Encodable`. -/
def CryptoType.item : CryptoType → Item
  | .secp => uint 0
  | .sm2 => uint 1

/-- `CryptoType`'s `Decodable`. -/
def decodeCryptoType (i : Item) : Except DecoderError CryptoType := do
  match ← decodeUint 1 i with
  | 0 => pure .secp
  | 1 => pure .sm2
  | _ => throw (.custom "Unknown Type.")

/-- `SignedTransaction`'s `Encodable`: the thirteen fields in one list. -/
def SignedTransaction.rlpItem (s : SignedTransaction) : Item :=
  let t := s.transaction.unsigned
  .list [.bytes (Network.strBytes t.nonce), uint t.gasPrice.toNat, uint t.gas.toNat, actionItem t.action,
    uint t.value.toNat, .bytes t.data, uint t.blockLimit, uint t.chainId, uint t.version,
    Rlp.hash s.transaction.signature.toNat 65, s.transaction.cryptoType.item,
    Rlp.hash s.transaction.hash.toNat 32, Rlp.hash s.publicKey.toNat 64]

/-- `SignedTransaction`'s `Decodable`: thirteen items, the public key read
first, the sender derived from it. -/
def SignedTransaction.decodeItem (d : Item) : Except DecoderError SignedTransaction := do
  if (← d.itemCount) ≠ 13 then throw .rlpIncorrectListLen
  let publicKey : BitVec 512 := .ofNat 512 (← valAt d 12 (decodeHash 64))
  let nonce ← valAt d 0 decodeString
  let gasPrice ← valAt d 1 (decodeUint 32)
  let gas ← valAt d 2 (decodeUint 32)
  let action ← valAt d 3 decodeAction
  let value ← valAt d 4 (decodeUint 32)
  let data ← valAt d 5 Item.value
  let blockLimit ← valAt d 6 (decodeUint 8)
  let chainId ← valAt d 7 (decodeUint 4)
  let version ← valAt d 8 (decodeUint 4)
  let signature ← valAt d 9 (decodeHash 65)
  let cryptoType ← valAt d 10 decodeCryptoType
  let hash ← valAt d 11 (decodeHash 32)
  pure ⟨⟨⟨nonce, .ofNat 256 gasPrice, .ofNat 256 gas, action, .ofNat 256 value, data, blockLimit,
    chainId, version⟩, .ofNat 520 signature, cryptoType, .ofNat 256 hash⟩,
    pubkeyToAddress publicKey, publicKey⟩

/-- `rlp::decode::<SignedTransaction>`. -/
def SignedTransaction.decode (raw : List UInt8) : Except DecoderError SignedTransaction := do
  SignedTransaction.decodeItem pubkeyToAddress (← untrusted raw)

/-! ## Reserved addresses -/

/-- A call to one of the reserved addresses, which `Transaction::new` makes
of a reserved string written with `0x` or in upper case. -/
def reservedCall : Action → Bool
  | .call a => a = reservedAddress storeAddress || a = reservedAddress abiAddress ||
      a = reservedAddress goContract || a = reservedAddress amendAddress
  | _ => false

theorem addressFromStr_reserved :
    addressFromStr storeAddress.toList = some (reservedAddress storeAddress) ∧
    addressFromStr abiAddress.toList = some (reservedAddress abiAddress) ∧
    addressFromStr goContract.toList = some (reservedAddress goContract) ∧
    addressFromStr amendAddress.toList = some (reservedAddress amendAddress) := by
  decide

theorem reservedAddress_distinct :
    reservedAddress abiAddress ≠ reservedAddress storeAddress ∧
    reservedAddress goContract ≠ reservedAddress storeAddress ∧
    reservedAddress goContract ≠ reservedAddress abiAddress ∧
    reservedAddress amendAddress ≠ reservedAddress storeAddress ∧
    reservedAddress amendAddress ≠ reservedAddress abiAddress ∧
    reservedAddress amendAddress ≠ reservedAddress goContract := by
  decide

theorem addressFromStr_lowerHex (a : Address) : addressFromStr (lowerHex a).toList = some a := by
  rw [lowerHex, String.toList_ofList, addressFromStr, Hex.fixed?_digits, Option.map_some]
  rw [show 16 ^ (2 * 20) = 256 ^ 20 by norm_num, Word.ofNat_toNat_mod a rfl]

theorem clean0x_lowerHex (a : Address) : clean0x (lowerHex a) = (lowerHex a).toList := by
  have hx : ∀ c ∈ (lowerHex a).toList, c ≠ 'x' := by
    intro c hc
    rw [lowerHex, String.toList_ofList] at hc
    obtain ⟨d, hd, rfl⟩ := Hex.mem_digits hc
    have hall : ∀ d < 16, Nat.digitChar d ≠ 'x' := by decide
    exact hall d hd
  unfold clean0x
  split
  · rename_i rest heq
    exact absurd (heq ▸ List.mem_cons_of_mem _ List.mem_cons_self) (fun h => hx 'x' h rfl)
  · rfl

/-- A `to` string that names the address `a` is not a reserved string
unless `a` is reserved. -/
theorem lowerHex_ne_reserved {a : Address} {s : String} (h : lowerHex a = s)
    (hs : addressFromStr s.toList = some (reservedAddress s)) : a = reservedAddress s := by
  have := addressFromStr_lowerHex a
  rw [h, hs] at this
  exact (Option.some.inj this).symm

theorem actionOfTo_actionTo {a : Action} (h : reservedCall a = false) :
    actionOfTo (actionTo a) = .ok a := by
  obtain ⟨hst, habi, hgo, hamend⟩ := addressFromStr_reserved
  cases a with
  | call a =>
    simp only [reservedCall, Bool.or_eq_false_iff, decide_eq_false_iff_not] at h
    obtain ⟨⟨⟨h1, h2⟩, h3⟩, h4⟩ := h
    have hne : (lowerHex a).isEmpty = false := by
      have hl : Hex.digits a.toNat 40 ≠ [] := List.ne_nil_of_length_pos (by simp)
      simp [lowerHex, hl]
    rw [actionTo, actionOfTo, if_neg (by simp [hne]),
      if_neg fun e => h1 (lowerHex_ne_reserved e hst), if_neg fun e => h2 (lowerHex_ne_reserved e habi),
      if_neg fun e => h3 (lowerHex_ne_reserved e hgo), if_neg fun e => h4 (lowerHex_ne_reserved e hamend),
      clean0x_lowerHex, addressFromStr_lowerHex]
  | _ => decide

/-- An address item reads as the reserved action of a reserved address,
and as a call otherwise. -/
theorem decodeAction_hash (a : Address) :
    decodeAction (Rlp.hash a.toNat 20) =
      if a = reservedAddress storeAddress then .ok .store
      else if a = reservedAddress abiAddress then .ok .abiStore
      else if a = reservedAddress goContract then .ok .goCreate
      else if a = reservedAddress amendAddress then .ok .amendData
      else .ok (.call a) := by
  have hne : (Rlp.hash a.toNat 20).isEmpty = false := by
    have hl : Word.toBytes a.toNat 20 ≠ [] := List.ne_nil_of_length_pos (by simp)
    simp [Rlp.hash, hl]
  rw [decodeAction, if_neg (by simp [hne]), decodeHash_hash, except_ok_bind,
    Word.ofNat_toNat_mod a (show 160 = 8 * 20 from rfl)]
  rfl

theorem decodeAction_actionItem {a : Action} (h : reservedCall a = false) :
    decodeAction (actionItem a) = .ok a := by
  obtain ⟨h21, h31, h32, h41, h42, h43⟩ := reservedAddress_distinct
  cases a with
  | create => rfl
  | call a =>
    simp only [reservedCall, Bool.or_eq_false_iff, decide_eq_false_iff_not] at h
    obtain ⟨⟨⟨h1, h2⟩, h3⟩, h4⟩ := h
    rw [actionItem, decodeAction_hash, if_neg h1, if_neg h2, if_neg h3, if_neg h4]
  | store => rw [actionItem, decodeAction_hash, if_pos rfl]
  | abiStore => rw [actionItem, decodeAction_hash, if_neg h21, if_pos rfl]
  | goCreate => rw [actionItem, decodeAction_hash, if_neg h31, if_neg h32, if_pos rfl]
  | amendData => rw [actionItem, decodeAction_hash, if_neg h41, if_neg h42, if_neg h43, if_pos rfl]

/-! ## Through protobuf and back -/

/-- `s` with another action. -/
def SignedTransaction.withAction (s : SignedTransaction) (a : Action) : SignedTransaction :=
  { s with transaction := { s.transaction with unsigned := { s.transaction.unsigned with action := a } } }

theorem SignedTransaction.withAction_action (s : SignedTransaction) :
    s.withAction s.transaction.unsigned.action = s := rfl

theorem asU64_ofNat {ε : Type} {n : Nat} (h : n < 2 ^ 64) : (asU64 (BitVec.ofNat 256 n) : Outcome ε Nat) = .ok n := by
  have hn : (BitVec.ofNat 256 n).toNat = n := by
    rw [BitVec.toNat_ofNat]
    exact Nat.mod_eq_of_lt (lt_trans h (by norm_num))
  rw [asU64, hn, if_pos h]

theorem Transaction.new_eq_ok {pt : ProtoTransaction} {t : Transaction} (h : Transaction.new pt = .ok t) :
    pt.value.length ≤ 32 ∧ ∃ a, actionOfTo pt.«to» = .ok a ∧
      t = ⟨pt.nonce, 0, .ofNat 256 pt.quota, a, .ofNat 256 (Word.bytesValue pt.value), pt.data,
        pt.validUntilBlock, pt.chainId, pt.version⟩ := by
  unfold Transaction.new at h
  by_cases hv : pt.value.length > 32
  · simp [hv] at h
  · refine ⟨by omega, ?_⟩
    cases ha : actionOfTo pt.«to» with
    | error e => simp [hv, ha] at h
    | ok a => simp [hv, ha] at h; exact ⟨a, rfl, h.symm⟩

/-- What `proto_transaction` writes of a transaction `Transaction::new`
made, `Transaction::new` reads back, but for the action, which it reads
from the `to` string `proto_transaction` wrote. -/
theorem Transaction.new_protoTransaction {pt : ProtoTransaction} {t : Transaction}
    (hq : pt.quota < 2 ^ 64) (h : Transaction.new pt = .ok t) :
    ∃ pt', t.protoTransaction = .ok pt' ∧
      Transaction.new pt' = (actionOfTo (actionTo t.action)).map fun a => { t with action := a } := by
  obtain ⟨-, a, -, rfl⟩ := Transaction.new_eq_ok h
  refine ⟨_, by rw [Transaction.protoTransaction, asU64_ofNat hq]; rfl, ?_⟩
  have hvalue : BitVec.ofNat 256
      (Word.bytesValue (Word.toBytes (BitVec.ofNat 256 (Word.bytesValue pt.value)).toNat 32)) =
      BitVec.ofNat 256 (Word.bytesValue pt.value) := by
    rw [Word.bytesValue_toBytes, Word.ofNat_toNat_mod _ (show 256 = 8 * 32 from rfl)]
  cases ha : actionOfTo (actionTo a) with
  | error e => simp [Transaction.new, ha, Except.map]
  | ok a' => simp [Transaction.new, ha, hvalue, Except.map, -BitVec.toNat_ofNat]

theorem UnverifiedTransaction.new_eq_ok {utx : ProtoUnverifiedTransaction} {hash : H256}
    {u : UnverifiedTransaction} (h : UnverifiedTransaction.new utx hash = .ok u) :
    utx.signature.length = 65 ∧ ∃ t, Transaction.new utx.transaction = .ok t ∧
      u = ⟨t, .ofNat 520 (Word.bytesValue utx.signature), utx.crypto, hash⟩ := by
  unfold UnverifiedTransaction.new at h
  by_cases hs : utx.signature.length = 65
  · refine ⟨hs, ?_⟩
    cases ht : Transaction.new utx.transaction with
    | error e => simp [hs, ht] at h
    | ok t => simp [hs, ht] at h; exact ⟨t, rfl, h.symm⟩
  · simp [hs] at h

theorem SignedTransaction.new_eq_ok {p : ProtoSignedTransaction} {s : SignedTransaction}
    (h : SignedTransaction.new pubkeyToAddress p = .ok s) :
    p.txHash.length = 32 ∧ p.signer.length = 64 ∧
      ∃ u, UnverifiedTransaction.new p.transactionWithSig (.ofNat 256 (Word.bytesValue p.txHash)) = .ok u ∧
        s = ⟨u, pubkeyToAddress (.ofNat 512 (Word.bytesValue p.signer)),
          .ofNat 512 (Word.bytesValue p.signer)⟩ := by
  unfold SignedTransaction.new at h
  by_cases hh : p.txHash.length = 32
  · by_cases hk : p.signer.length = 64
    · refine ⟨hh, hk, ?_⟩
      cases hu : UnverifiedTransaction.new p.transactionWithSig (.ofNat 256 (Word.bytesValue p.txHash)) with
      | error e => simp [hh, hk, hu] at h
      | ok u => simp [hh, hk, hu] at h; exact ⟨u, rfl, h.symm⟩
    · simp [hh, hk] at h
  · simp [hh] at h

theorem SignedTransaction.new_sender {p : ProtoSignedTransaction} {s : SignedTransaction}
    (h : SignedTransaction.new pubkeyToAddress p = .ok s) : s.sender = pubkeyToAddress s.publicKey := by
  obtain ⟨-, -, u, -, rfl⟩ := SignedTransaction.new_eq_ok pubkeyToAddress h
  rfl

/-- What `protobuf()` writes of a transaction `SignedTransaction::new` made,
`SignedTransaction::new` reads back, but for the action, which it reads from
the `to` string `proto_transaction` wrote. -/
theorem SignedTransaction.new_protobuf {p : ProtoSignedTransaction} {s : SignedTransaction}
    (hq : p.transactionWithSig.transaction.quota < 2 ^ 64)
    (h : SignedTransaction.new pubkeyToAddress p = .ok s) :
    ∃ p', s.protobuf = .ok p' ∧ SignedTransaction.new pubkeyToAddress p' =
      (actionOfTo (actionTo s.transaction.unsigned.action)).map s.withAction := by
  obtain ⟨hh, hk, u, hu, rfl⟩ := SignedTransaction.new_eq_ok pubkeyToAddress h
  obtain ⟨hsig, t, ht, rfl⟩ := UnverifiedTransaction.new_eq_ok hu
  obtain ⟨pt', hpt, hnew⟩ := Transaction.new_protoTransaction hq ht
  refine ⟨_, by simp only [SignedTransaction.protobuf, UnverifiedTransaction.protoUnverified, hpt]; rfl, ?_⟩
  have hsig' := ofNat_bytesValue_toBytes (BitVec.ofNat 520 (Word.bytesValue p.transactionWithSig.signature))
    (show 520 = 8 * 65 from rfl)
  have hhash := ofNat_bytesValue_toBytes (BitVec.ofNat 256 (Word.bytesValue p.txHash))
    (show 256 = 8 * 32 from rfl)
  have hkey := ofNat_bytesValue_toBytes (BitVec.ofNat 512 (Word.bytesValue p.signer))
    (show 512 = 8 * 64 from rfl)
  cases ha : actionOfTo (actionTo t.action) with
  | error e =>
    rw [ha] at hnew
    simp [SignedTransaction.new, UnverifiedTransaction.new, hnew, Except.map, -BitVec.toNat_ofNat]
  | ok a =>
    rw [ha] at hnew
    simp [SignedTransaction.new, UnverifiedTransaction.new, hnew, Except.map, hsig', hhash, hkey,
      SignedTransaction.withAction, -BitVec.toNat_ofNat]

/-- Through `protobuf()` and back, a transaction whose action is not a call
to a reserved address is itself. -/
theorem SignedTransaction.new_protobuf_of_not_reserved {p : ProtoSignedTransaction} {s : SignedTransaction}
    (hq : p.transactionWithSig.transaction.quota < 2 ^ 64)
    (h : SignedTransaction.new pubkeyToAddress p = .ok s)
    (hr : reservedCall s.transaction.unsigned.action = false) :
    ∃ p', s.protobuf = .ok p' ∧ SignedTransaction.new pubkeyToAddress p' = .ok s := by
  obtain ⟨p', hp', hnew⟩ := SignedTransaction.new_protobuf pubkeyToAddress hq h
  refine ⟨p', hp', ?_⟩
  rw [hnew, actionOfTo_actionTo hr]
  exact congrArg Except.ok s.withAction_action

/-! ## Through RLP and back -/

theorem decodeString_strBytes (str : String) : decodeString (.bytes (Network.strBytes str)) = .ok str := by
  rw [decodeString, value_bytes, except_ok_bind, Network.strFromUtf8_strBytes]
  rfl

theorem decodeCryptoType_item (c : CryptoType) : decodeCryptoType c.item = .ok c := by
  cases c with
  | secp => rw [decodeCryptoType, CryptoType.item, decodeUint_uint (by norm_num)]; rfl
  | sm2 => rw [decodeCryptoType, CryptoType.item, decodeUint_uint (by norm_num)]; rfl

theorem length_encode_actionItem_le (a : Action) : (encode (actionItem a)).length ≤ 29 := by
  cases a <;> first
    | exact length_encode_hash_le _ (by norm_num)
    | decide

/-- The fields that the model keeps as `Nat` fit their Rust types, and
the nonce and the data fit a vector. -/
def SignedTransaction.Fits (s : SignedTransaction) : Prop :=
  (Network.strBytes s.transaction.unsigned.nonce).length < 2 ^ 60 ∧
    s.transaction.unsigned.data.length < 2 ^ 60 ∧ s.transaction.unsigned.blockLimit < 2 ^ 64 ∧
    s.transaction.unsigned.chainId < 2 ^ 32 ∧ s.transaction.unsigned.version < 2 ^ 32

theorem SignedTransaction.small_rlpItem {s : SignedTransaction} (hfit : s.Fits) : s.rlpItem.Small := by
  obtain ⟨hnonce, hdata, hlimit, hchain, hversion⟩ := hfit
  have hn := length_encode_bytes_le (lt_trans hnonce (by norm_num))
  have hd := length_encode_bytes_le (lt_trans hdata (by norm_num))
  have hgp := length_encode_uint_le s.transaction.unsigned.gasPrice.isLt
  have hg := length_encode_uint_le s.transaction.unsigned.gas.isLt
  have hv := length_encode_uint_le s.transaction.unsigned.value.isLt
  have hl := length_encode_uint_le (lt_trans hlimit (by norm_num))
  have hc := length_encode_uint_le (lt_trans hchain (by norm_num))
  have hver := length_encode_uint_le (lt_trans hversion (by norm_num))
  have ha := length_encode_actionItem_le s.transaction.unsigned.action
  have hsig := length_encode_hash_le s.transaction.signature.toNat (show 65 < 2 ^ 64 by norm_num)
  have hcrypto : (encode s.transaction.cryptoType.item).length ≤ 41 := by
    cases s.transaction.cryptoType <;> exact length_encode_uint_le (by norm_num)
  have hhash := length_encode_hash_le s.transaction.hash.toNat (show 32 < 2 ^ 64 by norm_num)
  have hkey := length_encode_hash_le s.publicKey.toNat (show 64 < 2 ^ 64 by norm_num)
  apply small_list
  simp only [encodeList, List.length_append, List.length_nil]
  omega

/-- The RLP of a signed transaction reads back as itself, with its action
as `Action::decode` reads it. -/
theorem SignedTransaction.decodeItem_rlpItem {s : SignedTransaction} (hfit : s.Fits)
    (hsender : s.sender = pubkeyToAddress s.publicKey) {a : Action}
    (ha : decodeAction (actionItem s.transaction.unsigned.action) = .ok a) :
    SignedTransaction.decodeItem pubkeyToAddress s.rlpItem = .ok (s.withAction a) := by
  obtain ⟨-, -, hlimit, hchain, hversion⟩ := hfit
  have hl : decodeUint 8 (uint s.transaction.unsigned.blockLimit) = .ok s.transaction.unsigned.blockLimit :=
    decodeUint_uint (by simpa using hlimit)
  have hc : decodeUint 4 (uint s.transaction.unsigned.chainId) = .ok s.transaction.unsigned.chainId :=
    decodeUint_uint (by simpa using hchain)
  have hv : decodeUint 4 (uint s.transaction.unsigned.version) = .ok s.transaction.unsigned.version :=
    decodeUint_uint (by simpa using hversion)
  simp only [SignedTransaction.decodeItem, SignedTransaction.rlpItem, Item.itemCount, List.length_cons,
    List.length_nil, except_ok_bind, valAt, Item.itemAt, List.getElem?_cons_succ, List.getElem?_cons_zero,
    decodeHash_hash, decodeString_strBytes, decodeUint_toNat _ (show 256 = 8 * 32 from rfl), ha,
    value_bytes, hl, hc, hv, decodeCryptoType_item, ne_eq, not_true_eq_false, if_false]
  rw [Word.ofNat_toNat_mod _ (show 520 = 8 * 65 from rfl), Word.ofNat_toNat_mod _ (show 256 = 8 * 32 from rfl),
    Word.ofNat_toNat_mod _ (show 512 = 8 * 64 from rfl), ← hsender]
  simp only [BitVec.ofNat_toNat, BitVec.setWidth_eq]
  rfl

/-- A signed transaction whose action is not a call to a reserved address
reads back from its RLP. -/
theorem SignedTransaction.decode_rlp {s : SignedTransaction} (hfit : s.Fits)
    (hsender : s.sender = pubkeyToAddress s.publicKey) (h : reservedCall s.transaction.unsigned.action = false) :
    SignedTransaction.decode pubkeyToAddress (encode s.rlpItem) = .ok s := by
  rw [SignedTransaction.decode, untrusted_encode (SignedTransaction.small_rlpItem hfit), except_ok_bind,
    SignedTransaction.decodeItem_rlpItem pubkeyToAddress hfit hsender (decodeAction_actionItem h)]
  rfl

/-! ## A reserved address written with a prefix -/

/-- `to = "0x" ++ STORE_ADDRESS` is a call in the transaction, and `Store`
after either codec. -/
theorem signedTransaction_codecs_disagree_on_prefixed_store :
    ∃ s, SignedTransaction.new pubkeyToAddress
        ⟨⟨⟨"0x" ++ storeAddress, "", 0, 0, [], [], 0, 0⟩, List.replicate 65 0, .secp⟩,
          List.replicate 32 0, List.replicate 64 0⟩ = .ok s ∧
      s.transaction.unsigned.action = .call (reservedAddress storeAddress) ∧
      s.withAction .store ≠ s ∧
      SignedTransaction.decode pubkeyToAddress (encode s.rlpItem) = .ok (s.withAction .store) ∧
      ∃ p', s.protobuf = .ok p' ∧ SignedTransaction.new pubkeyToAddress p' = .ok (s.withAction .store) := by
  have hto : actionOfTo ("0x" ++ storeAddress) = .ok (.call (reservedAddress storeAddress)) := by
    decide
  have hlower : actionOfTo (lowerHex (reservedAddress storeAddress)) = .ok .store := by
    decide
  have hdec : decodeAction (actionItem (.call (reservedAddress storeAddress))) = .ok .store := by
    rw [actionItem, decodeAction_hash, if_pos rfl]
  obtain ⟨s, hs⟩ : ∃ s, SignedTransaction.new pubkeyToAddress
      ⟨⟨⟨"0x" ++ storeAddress, "", 0, 0, [], [], 0, 0⟩, List.replicate 65 0, .secp⟩,
        List.replicate 32 0, List.replicate 64 0⟩ = .ok s :=
    ⟨_, by simp [SignedTransaction.new, UnverifiedTransaction.new, Transaction.new, hto]; rfl⟩
  -- the fields `Transaction::new` read, the action among them
  obtain ⟨-, -, u, hu, rfl⟩ := SignedTransaction.new_eq_ok pubkeyToAddress hs
  obtain ⟨-, t, ht, rfl⟩ := UnverifiedTransaction.new_eq_ok hu
  obtain ⟨-, a, ha, rfl⟩ := Transaction.new_eq_ok ht
  rw [hto, Except.ok.injEq] at ha
  subst ha
  have hfit : SignedTransaction.Fits ⟨⟨⟨"", 0, .ofNat 256 0, .call (reservedAddress storeAddress),
      .ofNat 256 (Word.bytesValue []), [], 0, 0, 0⟩, .ofNat 520 (Word.bytesValue (List.replicate 65 0)),
      .secp, .ofNat 256 (Word.bytesValue (List.replicate 32 0))⟩,
      pubkeyToAddress (.ofNat 512 (Word.bytesValue (List.replicate 64 0))),
      .ofNat 512 (Word.bytesValue (List.replicate 64 0))⟩ := by
    norm_num [SignedTransaction.Fits, Network.length_strBytes]
  refine ⟨_, hs, rfl, ?_, ?_, ?_⟩
  · intro heq
    have := congrArg (fun s : SignedTransaction => s.transaction.unsigned.action) heq
    simp [SignedTransaction.withAction] at this
  · rw [SignedTransaction.decode, untrusted_encode (SignedTransaction.small_rlpItem hfit), except_ok_bind,
      SignedTransaction.decodeItem_rlpItem pubkeyToAddress hfit
        (SignedTransaction.new_sender pubkeyToAddress hs) hdec]
  · obtain ⟨p', hp', hnew⟩ := SignedTransaction.new_protobuf pubkeyToAddress (by norm_num) hs
    rw [actionTo, hlower] at hnew
    exact ⟨p', hp', hnew⟩

end Types

end Cita
