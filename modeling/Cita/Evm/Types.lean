import Cita.Lib.Outcome
import Cita.Lib.Word

/-!
# The EVM's data model

Words, addresses, the errors of `evm::Error`, the parameters of a message
call (`ActionParams`), the environment (`EnvInfo`), the cost schedule and
the externalities (`Ext`) the interpreter runs against.

`U256` and `H256` are both 256-bit words: the crate converts between them
by big-endian byte copy, which is the identity on the value. An `Address`
is the low 160 bits of a word (`u256_to_address` keeps the last 20 bytes
of the `H256`).

`Ext` is a trait in the source; here it is a record of functions over an
arbitrary state `σ` of the externalities, so that a statement about every
`Ext` quantifies over the record. The methods taking `&self` read `σ`;
those taking `&mut self` also return the new `σ`. What `Externalities`
fixes when it is built (the schedule, the environment, the call depth and
the static flag) is a constant of the record.
-/

namespace Cita

abbrev U256 := BitVec 256
abbrev U512 := BitVec 512
abbrev H256 := BitVec 256
abbrev Address := BitVec 160
abbrev Bytes := List UInt8

/-- `low_u64() as usize`, on the 64-bit targets the node runs on. -/
def lowU64 (x : U256) : Nat := x.toNat % 2 ^ 64

/-- `u256_to_address`: `Address::from(H256::from(value))` keeps the low 20 bytes. -/
def u256ToAddress (x : U256) : Address := x.setWidth 160

/-- `address_to_u256`: the address zero-extended to a word. -/
def addressToU256 (a : Address) : U256 := a.setWidth 256

/-- `U256::from(&[u8])`: the big-endian value of at most 32 bytes; longer
slices fail the crate's assertion. -/
def u256FromBytes (l : Bytes) : Outcome ε U256 :=
  if l.length ≤ 32 then .ok (BitVec.ofNat 256 (Word.bytesValue l))
  else .panic "assertion failed: 4 * 8 >= slice.len()"

/-- `to_big_endian` into a 32-byte buffer. -/
def u256ToBytes (x : U256) : Bytes := Word.toBytes x.toNat 32

/-- `from_slice` and `From<&[u8]>` of the `fixed-hash` crate for a hash of
`size` bytes: the bytes of the slice that fit, copied into a zeroed hash
from its first byte on. -/
def fromSlice (size : Nat) (b : Bytes) : Nat :=
  Word.bytesValue ((b ++ List.replicate size 0).take size)

/-- `Address::from_slice` and `Address::from(&[u8])`. -/
def addressFromSlice (b : Bytes) : Address := .ofNat 160 (fromSlice 20 b)

/-- `H256::from_slice` and `H256::from(&[u8])`. -/
def h256FromSlice (b : Bytes) : H256 := .ofNat 256 (fromSlice 32 b)

/-- A slice that fits is padded with zeros after its last byte. -/
theorem fromSlice_of_le {size : Nat} {b : Bytes} (h : b.length ≤ size) :
    fromSlice size b = Word.bytesValue (b ++ List.replicate (size - b.length) 0) := by
  rw [fromSlice, List.take_append, List.take_of_length_le h, List.take_replicate,
    Nat.min_eq_left (Nat.sub_le size _)]

/-- A slice of exactly the hash's size is its value. -/
theorem fromSlice_of_length_eq {size : Nat} {b : Bytes} (h : b.length = size) :
    fromSlice size b = Word.bytesValue b := by
  rw [fromSlice_of_le h.le, h, Nat.sub_self, List.replicate_zero, List.append_nil]

theorem fromSlice_toBytes (n size : Nat) : fromSlice size (Word.toBytes n size) = n % 256 ^ size := by
  rw [fromSlice_of_length_eq (Word.length_toBytes n size), Word.bytesValue_toBytes]

/-- A hash of `size` bytes written big-endian reads back. -/
theorem ofNat_fromSlice_toBytes {w size : Nat} (x : BitVec w) (hw : w = 8 * size) :
    BitVec.ofNat w (fromSlice size (Word.toBytes x.toNat size)) = x := by
  rw [fromSlice_toBytes, Word.ofNat_toNat_mod x hw]

@[simp] theorem addressFromSlice_toBytes (a : Address) : addressFromSlice (Word.toBytes a.toNat 20) = a :=
  ofNat_fromSlice_toBytes a rfl

@[simp] theorem h256FromSlice_toBytes (h : H256) : h256FromSlice (Word.toBytes h.toNat 32) = h :=
  ofNat_fromSlice_toBytes h rfl

/-- The `uint` crate's `+`: the sum, or a panic when it overflows. -/
def uintAdd (x y : U256) : Outcome ε U256 :=
  if (Word.overflowingAdd x y).2 then .panic "arithmetic operation overflow"
  else .ok (Word.overflowingAdd x y).1

/-- The `uint` crate's `-`: the difference, or a panic when it borrows. -/
def uintSub (x y : U256) : Outcome ε U256 :=
  if (Word.overflowingSub x y).2 then .panic "arithmetic operation overflow"
  else .ok (Word.overflowingSub x y).1

/-- The `uint` crate's `*`: the product, or a panic when it overflows. -/
def uintMul (x y : U256) : Outcome ε U256 :=
  if (Word.overflowingMul x y).2 then .panic "arithmetic operation overflow"
  else .ok (Word.overflowingMul x y).1

/-- A sum that `uintAdd` returns is the exact sum. -/
theorem toNat_of_uintAdd_eq_ok {ε : Type} {x y z : U256} (h : (uintAdd x y : Outcome ε U256) = .ok z) :
    z.toNat = x.toNat + y.toNat := by
  unfold uintAdd at h
  split at h
  · cases h
  · rename_i hov
    cases h
    exact Word.overflowingAdd_toNat (by simpa using hov)

theorem uintAdd_of_lt {ε : Type} {x y : U256} (h : x.toNat + y.toNat < 2 ^ 256) :
    (uintAdd x y : Outcome ε U256) = .ok (x + y) := by
  rw [uintAdd, if_neg]
  · rfl
  · simp only [Word.overflowingAdd, decide_eq_true_eq, not_le]
    exact h

theorem uintAdd_of_le {ε : Type} {x y : U256} (h : 2 ^ 256 ≤ x.toNat + y.toNat) :
    (uintAdd x y : Outcome ε U256) = .panic "arithmetic operation overflow" := by
  rw [uintAdd, if_pos]
  simpa [Word.overflowingAdd] using h

/-- `uintAdd` returns the sum exactly when it does not overflow. -/
theorem uintAdd_eq_ok_iff {ε : Type} {x y z : U256} :
    (uintAdd x y : Outcome ε U256) = .ok z ↔ x.toNat + y.toNat < 2 ^ 256 ∧ z = x + y := by
  constructor
  · intro h
    have hz := toNat_of_uintAdd_eq_ok h
    have hlt : x.toNat + y.toNat < 2 ^ 256 := hz ▸ z.isLt
    rw [uintAdd_of_lt hlt] at h
    exact ⟨hlt, (Outcome.ok.inj h).symm⟩
  · rintro ⟨hlt, rfl⟩
    exact uintAdd_of_lt hlt

/-- A difference that `uintSub` returns did not borrow. -/
theorem toNat_of_uintSub_eq_ok {ε : Type} {x y z : U256} (h : (uintSub x y : Outcome ε U256) = .ok z) :
    y.toNat ≤ x.toNat ∧ z.toNat = x.toNat - y.toNat := by
  unfold uintSub at h
  split at h
  · cases h
  · rename_i hb
    cases h
    have hb' : (Word.overflowingSub x y).2 = false := by simpa using hb
    refine ⟨?_, Word.overflowingSub_toNat hb'⟩
    simpa [Word.overflowingSub] using hb'

/-- `a + b` on `usize` in a release build. -/
def usizeAdd (a b : Nat) : Nat := (a + b) % 2 ^ 64

/-- `a - b` on `usize` in a release build, for `a, b < 2^64`. -/
def usizeSub (a b : Nat) : Nat := (a + 2 ^ 64 - b) % 2 ^ 64

/-- `evm::Error`. -/
inductive Error where
  | outOfGas
  | badJumpDestination (destination : Nat)
  | badInstruction (instruction : UInt8)
  | stackUnderflow (instruction : String) (wanted : Nat) (onStack : Nat)
  | outOfStack (instruction : String) (wanted : Nat) (limit : Nat)
  | mutableCallInStaticContext
  | internal (msg : String)
  | outOfBounds
  | reverted
deriving Repr, DecidableEq

/-- `ActionValue`. -/
inductive ActionValue where
  | transfer (v : U256)
  | apparent (v : U256)
deriving Repr, DecidableEq

def ActionValue.value : ActionValue → U256
  | .transfer v => v
  | .apparent v => v

/-- `CallType`. -/
inductive CallType where
  | none
  | call
  | callCode
  | delegateCall
  | staticCall
deriving Repr, DecidableEq

/-- `ActionParams`, the input of `Evm::exec`. -/
structure ActionParams where
  codeAddress : Address
  codeHash : H256
  address : Address
  sender : Address
  origin : Address
  gas : U256
  gasPrice : U256
  value : ActionValue
  code : Option Bytes
  data : Option Bytes
  callType : CallType
deriving Repr

/-- The fields of `EnvInfo` the interpreter reads. -/
structure EnvInfo where
  number : Nat
  author : Address
  timestamp : Nat
  difficulty : U256
  gasLimit : U256
deriving Repr

/-- `ReturnData`: a buffer and the slice of it that was returned. -/
structure ReturnData where
  mem : Bytes
  offset : Nat
  size : Nat
deriving Repr, DecidableEq

/-- `ReturnData::empty()`. -/
def ReturnData.empty : ReturnData := ⟨[], 0, 0⟩

/-- The `Deref` of `ReturnData`: `&self.mem[self.offset..self.offset + self.size]`. -/
def ReturnData.deref (r : ReturnData) : Outcome ε Bytes :=
  if r.offset + r.size ≤ r.mem.length then .ok ((r.mem.drop r.offset).take r.size)
  else .panic "range end index out of range for slice"

/-- `GasLeft`, the result of `Evm::exec`. -/
inductive GasLeft where
  | known (gas : U256)
  | needsReturn (gasLeft : U256) (data : ReturnData) (applyState : Bool)
deriving Repr, DecidableEq

/-- `ContractCreateResult`. -/
inductive ContractCreateResult where
  | created (address : Address) (gasLeft : U256)
  | failed
  | failedInStaticCall
  | reverted (gasLeft : U256) (data : ReturnData)
deriving Repr

/-- `MessageCallResult`. -/
inductive MessageCallResult where
  | success (gasLeft : U256) (data : ReturnData)
  | failed
  | reverted (gasLeft : U256) (data : ReturnData)
deriving Repr

/-- The gas a create or call result hands back, if any. -/
def ContractCreateResult.gasLeft? : ContractCreateResult → Option U256
  | .created _ g => some g
  | .reverted g _ => some g
  | _ => none

def MessageCallResult.gasLeft? : MessageCallResult → Option U256
  | .success g _ => some g
  | .reverted g _ => some g
  | .failed => none

/-- The fields of `Schedule` the modelled code reads. -/
structure Schedule where
  stackLimit : Nat
  maxDepth : Nat
  tierStepGas : List Nat
  expGas : Nat
  expByteGas : Nat
  sha3Gas : Nat
  sha3WordGas : Nat
  sloadGas : Nat
  sstoreSetGas : Nat
  sstoreResetGas : Nat
  sstoreRefundGas : Nat
  logGas : Nat
  logDataGas : Nat
  logTopicGas : Nat
  createGas : Nat
  callGas : Nat
  callStipend : Nat
  callValueTransferGas : Nat
  callNewAccountGas : Nat
  suicideRefundGas : Nat
  memoryGas : Nat
  quadCoeffDiv : Nat
  createDataGas : Nat
  copyGas : Nat
  extcodesizeGas : Nat
  extcodecopyBaseGas : Nat
  balanceGas : Nat
  suicideGas : Nat
  suicideToNewAccountCost : Nat
  subGasCapDivisor : Option Nat
  noEmpty : Bool
deriving Repr

/-- `Schedule::new_v1()`, the only schedule the node builds. -/
def Schedule.newV1 : Schedule where
  stackLimit := 1024
  maxDepth := 1024
  tierStepGas := [0, 2, 3, 5, 8, 10, 20, 0]
  expGas := 10
  expByteGas := 10
  sha3Gas := 30
  sha3WordGas := 6
  sloadGas := 50
  sstoreSetGas := 20000
  sstoreResetGas := 5000
  sstoreRefundGas := 15000
  logGas := 375
  logDataGas := 8
  logTopicGas := 375
  createGas := 32000
  callGas := 40
  callStipend := 2300
  callValueTransferGas := 9000
  callNewAccountGas := 25000
  suicideRefundGas := 24000
  memoryGas := 3
  quadCoeffDiv := 512
  createDataGas := 200
  copyGas := 3
  extcodesizeGas := 20
  extcodecopyBaseGas := 20
  balanceGas := 20
  suicideGas := 0
  suicideToNewAccountCost := 0
  subGasCapDivisor := none
  noEmpty := false

/-- The externalities (`Ext`) over a state `σ`. -/
structure Ext (σ : Type) where
  storageAt : σ → H256 → Except Error H256
  setStorage : σ → H256 → H256 → Except Error σ
  «exists» : σ → Address → Except Error Bool
  existsAndNotNull : σ → Address → Except Error Bool
  originBalance : σ → Except Error U256
  balance : σ → Address → Except Error U256
  blockhash : σ → U256 → H256
  /-- `create(gas, value, code)` -/
  create : σ → U256 → U256 → Bytes → ContractCreateResult × σ
  /-- `call(gas, sender, receiver, value, data, code_address, output, call_type)`;
  besides the result it returns the bytes written into `output`. -/
  call : σ → U256 → Address → Address → Option U256 → Bytes → Address → Bytes → CallType →
    MessageCallResult × Bytes × σ
  extcode : σ → Address → Except Error Bytes
  extcodesize : σ → Address → Except Error Nat
  log : σ → List H256 → Bytes → Except Error σ
  suicide : σ → Address → Except Error σ
  schedule : Schedule
  envInfo : EnvInfo
  depth : Nat
  incSstoreClears : σ → σ
  /-- `trace_prepare_execute(pc, instruction, gas_cost)` -/
  tracePrepareExecute : σ → Nat → UInt8 → U256 → Bool × σ
  /-- `trace_executed(gas_used, stack_push, mem_diff, store_diff)` -/
  traceExecuted : σ → U256 → List U256 → Option (Nat × Bytes) → Option (U256 × U256) → σ
  isStatic : Bool

/-- Externalities with no world behind them, under the node's schedule:
storage and balances read zero, no account exists, every `create` and
`call` fails, and nothing is traced. -/
def Ext.inert : Ext Unit where
  storageAt _ _ := .ok 0
  setStorage _ _ _ := .ok ()
  «exists» _ _ := .ok false
  existsAndNotNull _ _ := .ok false
  originBalance _ := .ok 0
  balance _ _ := .ok 0
  blockhash _ _ := 0
  create _ _ _ _ := (.failed, ())
  call _ _ _ _ _ _ _ out _ := (.failed, out, ())
  extcode _ _ := .ok []
  extcodesize _ _ := .ok 0
  log _ _ _ := .ok ()
  suicide _ _ := .ok ()
  schedule := Schedule.newV1
  envInfo := ⟨0, 0, 0, 0, 0⟩
  depth := 0
  incSstoreClears _ := ()
  tracePrepareExecute _ _ _ _ := (false, ())
  traceExecuted _ _ _ _ _ := ()
  isStatic := false

/-- `Ext.inert` with the tracer on: `trace_prepare_execute` asks for the
trace of every instruction. -/
def Ext.inertTraced : Ext Unit :=
  { Ext.inert with tracePrepareExecute := fun _ _ _ _ => (true, ()) }

end Cita
