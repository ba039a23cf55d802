import Cita.Chain.Transaction
import Cita.Chain.Logs

/-!
# Receipts and their two codecs (`types::receipt`)

The executor hands receipts to the chain as protobuf messages and the
chain stores them as RLP. The RLP of a receipt is a list of six items, or
of seven when it has a state root, which then comes first; its error is
the declaration index of the `ReceiptError` as a `u8`, read back through a
table of its own. The protobuf form writes `gas_used` as hex text and the
account nonce as a `u64`, and `From<ProtoReceipt>` does not read the log
bloom it carries: it builds the receipt with `Receipt::new`, which
computes the bloom from the logs.

So a receipt reads back through RLP whatever its bloom
(`Receipt.decode_rlp`), and through protobuf when its bloom is the one of
its logs and its nonce fits a `u64` (`Receipt.ofProto_protobuf`). The
bound on the length of the RLP is one of the model: a Rust vector is
shorter than `2^64` bytes.

`From<ProtoReceipt>` reads its hashes and addresses with `from_slice`
(`h256FromSlice`, `addressFromSlice`), which never panics.
-/

namespace Cita

open Rlp
open Cita.Types

/-! ## The data -/

/-- libproto's `ReceiptError`, whose variants mirror the receipt's. -/
inductive ProtoReceiptError where
  | notEnoughBaseGas
  | blockGasLimitReached
  | accountGasLimitReached
  | invalidTransactionNonce
  | notEnoughCash
  | noTransactionPermission
  | noContractPermission
  | noCallPermission
  | executionInternal
  | transactionMalformed
  | outOfGas
  | badJumpDestination
  | badInstruction
  | stackUnderflow
  | outOfStack
  | internal
  | mutableCallInStaticContext
  | outOfBounds
  | reverted
deriving DecidableEq, Repr

/-- libproto's `LogEntry`. -/
structure ProtoLogEntry where
  address : Bytes
  topics : List Bytes
  data : Bytes
deriving DecidableEq, Repr

/-- libproto's `Receipt`; a message field that is not set is `none`. -/
structure ProtoReceipt where
  stateRoot : Option Bytes
  gasUsed : String
  logBloom : Bytes
  logs : List ProtoLogEntry
  error : Option ProtoReceiptError
  accountNonce : Nat
  transactionHash : Bytes
deriving DecidableEq, Repr

/-- `ReceiptError::protobuf`. -/
def ReceiptError.protobuf : ReceiptError → ProtoReceiptError
  | .notEnoughBaseGas => .notEnoughBaseGas
  | .blockGasLimitReached => .blockGasLimitReached
  | .accountGasLimitReached => .accountGasLimitReached
  | .invalidNonce => .invalidTransactionNonce
  | .notEnoughCash => .notEnoughCash
  | .noTransactionPermission => .noTransactionPermission
  | .noContractPermission => .noContractPermission
  | .noCallPermission => .noCallPermission
  | .executionInternal => .executionInternal
  | .transactionMalformed => .transactionMalformed
  | .outOfGas => .outOfGas
  | .badJumpDestination => .badJumpDestination
  | .badInstruction => .badInstruction
  | .stackUnderflow => .stackUnderflow
  | .outOfStack => .outOfStack
  | .internal => .internal
  | .mutableCallInStaticContext => .mutableCallInStaticContext
  | .outOfBounds => .outOfBounds
  | .reverted => .reverted

/-- `ReceiptError::from_proto`. -/
def ReceiptError.fromProto : ProtoReceiptError → ReceiptError
  | .notEnoughBaseGas => .notEnoughBaseGas
  | .blockGasLimitReached => .blockGasLimitReached
  | .accountGasLimitReached => .accountGasLimitReached
  | .invalidTransactionNonce => .invalidNonce
  | .notEnoughCash => .notEnoughCash
  | .noTransactionPermission => .noTransactionPermission
  | .noContractPermission => .noContractPermission
  | .noCallPermission => .noCallPermission
  | .executionInternal => .executionInternal
  | .transactionMalformed => .transactionMalformed
  | .outOfGas => .outOfGas
  | .badJumpDestination => .badJumpDestination
  | .badInstruction => .badInstruction
  | .stackUnderflow => .stackUnderflow
  | .outOfStack => .outOfStack
  | .internal => .internal
  | .mutableCallInStaticContext => .mutableCallInStaticContext
  | .outOfBounds => .outOfBounds
  | .reverted => .reverted

/-- `*self as u8`: the index of the variant in the declaration. -/
def ReceiptError.code : ReceiptError → Nat
  | .notEnoughBaseGas => 0
  | .blockGasLimitReached => 1
  | .accountGasLimitReached => 2
  | .invalidNonce => 3
  | .notEnoughCash => 4
  | .noTransactionPermission => 5
  | .noContractPermission => 6
  | .noCallPermission => 7
  | .executionInternal => 8
  | .transactionMalformed => 9
  | .outOfGas => 10
  | .badJumpDestination => 11
  | .badInstruction => 12
  | .stackUnderflow => 13
  | .outOfStack => 14
  | .internal => 15
  | .mutableCallInStaticContext => 16
  | .outOfBounds => 17
  | .reverted => 18

/-- `ReceiptError`'s `Encodable`. -/
def ReceiptError.item (e : ReceiptError) : Item := uint (ReceiptError.code e)

/-- `ReceiptError`'s `Decodable`: a `u8`, read through its own table. -/
def decodeReceiptError (i : Item) : Except DecoderError ReceiptError := do
  match ← decodeUint 1 i with
  | 0 => pure .notEnoughBaseGas
  | 1 => pure .blockGasLimitReached
  | 2 => pure .accountGasLimitReached
  | 3 => pure .invalidNonce
  | 4 => pure .notEnoughCash
  | 5 => pure .noTransactionPermission
  | 6 => pure .noContractPermission
  | 7 => pure .noCallPermission
  | 8 => pure .executionInternal
  | 9 => pure .transactionMalformed
  | 10 => pure .outOfGas
  | 11 => pure .badJumpDestination
  | 12 => pure .badInstruction
  | 13 => pure .stackUnderflow
  | 14 => pure .outOfStack
  | 15 => pure .internal
  | 16 => pure .mutableCallInStaticContext
  | 17 => pure .outOfBounds
  | 18 => pure .reverted
  | _ => throw (.custom "Unknown Receipt error.")

/-! ## The protobuf side -/

/-- `U256::from_str(..).unwrap()`: hex digits, an odd count read with a
leading zero, at most 32 bytes. -/
def u256FromStr {ε : Type} (s : String) : Outcome ε U256 :=
  match Hex.value? s.toList with
  | none => .panic "called `Result::unwrap()` on an `Err` value"
  | some n => if (s.length + 1) / 2 ≤ 32 then .ok (.ofNat 256 n) else
      .panic "assertion failed: 4 * 8 >= bytes.len()"

/-- `LogEntry::protobuf`. -/
def logEntryProtobuf (log : LogEntry) : ProtoLogEntry :=
  ⟨Word.toBytes log.address.toNat 20, log.topics.map fun t => Word.toBytes t.toNat 32, log.data⟩

/-- The log entry `From<ProtoReceipt>` reads from a protobuf one. -/
def logEntryOfProto (log : ProtoLogEntry) : LogEntry :=
  ⟨addressFromSlice log.address, log.topics.map h256FromSlice, log.data⟩

/-- `Receipt::protobuf`. -/
def Receipt.protobuf (r : Receipt) : Outcome Empty ProtoReceipt := do
  let accountNonce ← asU64 r.accountNonce
  pure ⟨r.stateRoot.map (fun root => Word.toBytes root.toNat 32), String.ofList (Hex.minimal r.gasUsed.toNat),
    Word.toBytes r.logBloom.toNat 256, r.logs.map logEntryProtobuf, r.error.map ReceiptError.protobuf,
    accountNonce, Word.toBytes r.transactionHash.toNat 32⟩

variable (bloomed : Bytes → LogBloom)

/-- `From<ProtoReceipt> for Receipt`. -/
def Receipt.ofProto (p : ProtoReceipt) : Outcome Empty Receipt := do
  let stateRoot : Option H256 := p.stateRoot.map h256FromSlice
  let gasUsed ← u256FromStr p.gasUsed
  let accountNonce : U256 := .ofNat 256 p.accountNonce
  let transactionHash : H256 := h256FromSlice p.transactionHash
  let logs := p.logs.map logEntryOfProto
  let error := p.error.map ReceiptError.fromProto
  pure (Receipt.new bloomed stateRoot gasUsed logs error accountNonce transactionHash)

/-! ## The RLP side -/

/-- `LogEntry`'s `Encodable`. -/
def logEntryItem (log : LogEntry) : Item :=
  .list [Rlp.hash log.address.toNat 20, .list (log.topics.map fun t => Rlp.hash t.toNat 32), .bytes log.data]

/-- `LogEntry`'s `Decodable`: the three fields by index. -/
def decodeLogEntry (d : Item) : Except DecoderError LogEntry := do
  let address ← valAt d 0 (decodeHash 20)
  let topics ← listAt d 1 (decodeHash 32)
  let data ← valAt d 2 Item.value
  pure ⟨.ofNat 160 address, topics.map (BitVec.ofNat 256), data⟩

/-- The six items after the state root. -/
def Receipt.rlpFields (r : Receipt) : List Item :=
  [uint r.gasUsed.toNat, Rlp.hash r.logBloom.toNat 256, .list (r.logs.map logEntryItem),
    option ReceiptError.item r.error, uint r.accountNonce.toNat, Rlp.hash r.transactionHash.toNat 32]

/-- `Receipt`'s `Encodable`: the state root first when there is one. -/
def Receipt.rlpItem (r : Receipt) : Item :=
  match r.stateRoot with
  | some root => .list (Rlp.hash root.toNat 32 :: r.rlpFields)
  | none => .list r.rlpFields

/-- The six fields after the state root, from index `k` on. -/
def Receipt.decodeFields (d : Item) (k : Nat) (stateRoot : Option H256) :
    Except DecoderError Receipt := do
  let gasUsed ← valAt d k (decodeUint 32)
  let logBloom ← valAt d (k + 1) (decodeHash 256)
  let logs ← listAt d (k + 2) decodeLogEntry
  let error ← valAt d (k + 3) (decodeOption decodeReceiptError)
  let accountNonce ← valAt d (k + 4) (decodeUint 32)
  let transactionHash ← valAt d (k + 5) (decodeHash 32)
  pure ⟨stateRoot, .ofNat 256 gasUsed, .ofNat 2048 logBloom, logs, error, .ofNat 256 accountNonce,
    .ofNat 256 transactionHash⟩

/-- `Receipt`'s `Decodable`: six items have no state root; any other
count has one, at index 0. -/
def Receipt.decodeItem (d : Item) : Except DecoderError Receipt := do
  if (← d.itemCount) = 6 then Receipt.decodeFields d 0 none
  else
    let stateRoot ← valAt d 0 (decodeHash 32)
    Receipt.decodeFields d 1 (some (.ofNat 256 stateRoot))

/-- `rlp::decode::<Receipt>`. -/
def Receipt.decode (raw : List UInt8) : Except DecoderError Receipt := do
  Receipt.decodeItem (← untrusted raw)

/-! ## Reading back -/

theorem ReceiptError.fromProto_protobuf (e : ReceiptError) :
    ReceiptError.fromProto (ReceiptError.protobuf e) = e := by
  cases e <;> rfl

theorem ReceiptError.code_lt (e : ReceiptError) : ReceiptError.code e < 256 ^ 1 := by
  cases e <;> decide

theorem decodeReceiptError_item (e : ReceiptError) : decodeReceiptError (ReceiptError.item e) = .ok e := by
  rw [decodeReceiptError, ReceiptError.item, decodeUint_uint (ReceiptError.code_lt e), except_ok_bind]
  cases e <;> rfl

theorem logEntryOfProto_protobuf (log : LogEntry) : logEntryOfProto (logEntryProtobuf log) = log := by
  simp [logEntryOfProto, logEntryProtobuf, Function.comp_def]

theorem u256FromStr_minimal {ε : Type} (x : U256) :
    (u256FromStr (String.ofList (Hex.minimal x.toNat)) : Outcome ε U256) = .ok x := by
  have hlen : (Hex.minimal x.toNat).length ≤ 64 :=
    Hex.length_minimal_le (by norm_num) (lt_of_lt_of_eq x.isLt (by norm_num))
  have hbytes : ((Hex.minimal x.toNat).length + 1) / 2 ≤ 32 := by omega
  rw [u256FromStr, String.toList_ofList, Hex.value?_minimal]
  simp only [String.length_ofList, if_pos hbytes, BitVec.ofNat_toNat, BitVec.setWidth_eq]

/-! ## Through protobuf and back -/

/-- Through `protobuf()` and `From` a receipt comes back with the bloom
of its logs in place of its own. -/
theorem Receipt.ofProto_protobuf {r : Receipt} (hnonce : r.accountNonce.toNat < 2 ^ 64) :
    ∃ p, r.protobuf = .ok p ∧ Receipt.ofProto bloomed p = .ok { r with logBloom := logsBloom bloomed r.logs } := by
  have hnonce' : (asU64 r.accountNonce : Outcome Empty Nat) = .ok r.accountNonce.toNat := by
    rw [asU64, if_pos hnonce]
  refine ⟨_, by rw [Receipt.protobuf, hnonce']; rfl, ?_⟩
  simp [Receipt.ofProto, Receipt.new, u256FromStr_minimal, Function.comp_def,
    logEntryOfProto_protobuf, ReceiptError.fromProto_protobuf]

/-! ## Through RLP and back -/

theorem decodeLogEntry_item (log : LogEntry) : decodeLogEntry (logEntryItem log) = .ok log := by
  have htopics : (Item.list (log.topics.map fun t => Rlp.hash t.toNat 32)).asList (decodeHash 32) =
      .ok (log.topics.map fun t => t.toNat % 256 ^ 32) :=
    asList_map fun t _ => decodeHash_hash t.toNat 32
  have hback : (log.topics.map fun t => t.toNat % 256 ^ 32).map (BitVec.ofNat 256) = log.topics := by
    rw [List.map_map]
    exact List.map_id'' (fun t => Word.ofNat_toNat_mod t (show 256 = 8 * 32 from rfl)) _
  simp only [decodeLogEntry, logEntryItem, listAt, valAt, Item.itemAt, List.getElem?_cons_succ,
    List.getElem?_cons_zero, decodeHash_hash, htopics, value_bytes, except_ok_bind, hback,
    Word.ofNat_toNat_mod _ (show 160 = 8 * 20 from rfl)]
  rfl

/-- The six fields read back from index `k` on, after any `k` items. -/
theorem Receipt.decodeFields_append (r : Receipt) (pre : List Item) (root : Option H256) :
    Receipt.decodeFields (.list (pre ++ r.rlpFields)) pre.length root = .ok { r with stateRoot := root } := by
  have hlogs : (Item.list (r.logs.map logEntryItem)).asList decodeLogEntry = .ok (r.logs.map id) :=
    asList_map fun log _ => decodeLogEntry_item log
  have herror := decodeOption_option decodeReceiptError_item r.error
  simp only [Receipt.decodeFields, Receipt.rlpFields, listAt, valAt, Item.itemAt,
    List.getElem?_append_right (Nat.le_add_right _ _), List.getElem?_append_right (Nat.le_refl _),
    Nat.add_sub_cancel_left, Nat.sub_self, List.getElem?_cons_succ, List.getElem?_cons_zero,
    decodeUint_toNat _ (show 256 = 8 * 32 from rfl), decodeHash_hash, hlogs, herror, except_ok_bind,
    List.map_id, Word.ofNat_toNat_mod _ (show 256 = 8 * 32 from rfl), Word.ofNat_toNat_mod _ (show 2048 = 8 * 256 from rfl),
    BitVec.ofNat_toNat, BitVec.setWidth_eq]
  rfl

/-- A receipt reads back from its RLP item, in either form. -/
theorem Receipt.decodeItem_rlpItem (r : Receipt) : Receipt.decodeItem r.rlpItem = .ok r := by
  obtain ⟨stateRoot, gasUsed, logBloom, logs, error, accountNonce, transactionHash⟩ := r
  cases stateRoot with
  | none =>
    -- six items: no state root
    have h := Receipt.decodeFields_append ⟨none, gasUsed, logBloom, logs, error, accountNonce, transactionHash⟩
      [] none
    rw [List.nil_append, List.length_nil] at h
    rw [Receipt.decodeItem, Receipt.rlpItem, Item.itemCount, Receipt.rlpFields]
    exact h
  | some root =>
    -- seven items: the state root, then the six fields
    have h := Receipt.decodeFields_append ⟨some root, gasUsed, logBloom, logs, error, accountNonce, transactionHash⟩
      [Rlp.hash root.toNat 32] (some root)
    rw [List.singleton_append, List.length_singleton] at h
    simp only [Receipt.decodeItem, Receipt.rlpItem, Item.itemCount, Receipt.rlpFields, List.length_cons,
      valAt, Item.itemAt, List.getElem?_cons_zero, decodeHash_hash, except_ok_bind,
      Word.ofNat_toNat_mod root (show 256 = 8 * 32 from rfl)] at h ⊢
    exact h

/-- A receipt whose RLP fits in memory reads back from it. -/
theorem Receipt.decode_rlp {r : Receipt} (hlen : (encode r.rlpItem).length < 2 ^ 64) :
    Receipt.decode (encode r.rlpItem) = .ok r := by
  rw [Receipt.decode, untrusted_encode (small_of_length_encode _ hlen), except_ok_bind, r.decodeItem_rlpItem]

/-! ## Both codecs -/

/-- A receipt `Receipt::new` built, with its nonce in a `u64`, reads back
through RLP, in six items or seven, and through protobuf. -/
theorem receipt_codecs_round_trip (stateRoot : Option H256) (gasUsed : U256) (logs : List LogEntry)
    (error : Option ReceiptError) (accountNonce : U256) (transactionHash : H256)
    (hnonce : accountNonce.toNat < 2 ^ 64)
    (hlen : (encode (Receipt.new bloomed stateRoot gasUsed logs error accountNonce transactionHash).rlpItem).length <
      2 ^ 64) :
    (Receipt.new bloomed stateRoot gasUsed logs error accountNonce transactionHash).rlpItem.itemCount =
        .ok (if stateRoot.isSome then 7 else 6) ∧
      Receipt.decode (encode (Receipt.new bloomed stateRoot gasUsed logs error accountNonce transactionHash).rlpItem) =
        .ok (Receipt.new bloomed stateRoot gasUsed logs error accountNonce transactionHash) ∧
      ∃ p, (Receipt.new bloomed stateRoot gasUsed logs error accountNonce transactionHash).protobuf = .ok p ∧
        Receipt.ofProto bloomed p = .ok (Receipt.new bloomed stateRoot gasUsed logs error accountNonce transactionHash) := by
  refine ⟨?_, Receipt.decode_rlp hlen, ?_⟩
  · cases stateRoot <;> rfl
  · -- `From` recomputes the bloom `Receipt::new` computed
    exact Receipt.ofProto_protobuf bloomed hnonce

-- the RLP of the receipt is 300-odd bytes, written out by the kernel
set_option maxRecDepth 8000 in
theorem length_encode_rlpItem_logError :
    (encode (Receipt.new (fun _ => 0) (some 1) 21000 [⟨7, [3], [1, 2]⟩] (some .outOfGas) 5 9).rlpItem).length <
      2 ^ 64 := by
  decide

/-- A receipt with a state root, so of seven items, with one log of one
topic and an error. -/
theorem receipt_codecs_round_trip_logError :
    (5 : U256).toNat < 2 ^ 64 ∧
      (encode (Receipt.new (fun _ => 0) (some 1) 21000 [⟨7, [3], [1, 2]⟩] (some .outOfGas) 5 9).rlpItem).length <
        2 ^ 64 ∧
      ((Receipt.new (fun _ => 0) (some 1) 21000 [⟨7, [3], [1, 2]⟩] (some .outOfGas) 5 9).rlpItem.itemCount =
          .ok (if (some (1 : H256)).isSome then 7 else 6) ∧
        Receipt.decode
            (encode (Receipt.new (fun _ => 0) (some 1) 21000 [⟨7, [3], [1, 2]⟩] (some .outOfGas) 5 9).rlpItem) =
          .ok (Receipt.new (fun _ => 0) (some 1) 21000 [⟨7, [3], [1, 2]⟩] (some .outOfGas) 5 9) ∧
        ∃ p, (Receipt.new (fun _ => 0) (some 1) 21000 [⟨7, [3], [1, 2]⟩] (some .outOfGas) 5 9).protobuf = .ok p ∧
          Receipt.ofProto (fun _ => 0) p =
            .ok (Receipt.new (fun _ => 0) (some 1) 21000 [⟨7, [3], [1, 2]⟩] (some .outOfGas) 5 9)) :=
  ⟨by decide, length_encode_rlpItem_logError,
    receipt_codecs_round_trip (fun _ => 0) (some 1) 21000 [⟨7, [3], [1, 2]⟩] (some .outOfGas) 5 9 (by decide)
      length_encode_rlpItem_logError⟩

end Cita
