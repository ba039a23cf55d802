import Cita.Evm.Types
import Cita.Lib.Slice

/-!
# The cross-chain verification contract (`native/crosschain_verify.rs`)

`CrossChainVerify` is a native contract. `exec` reads a four-byte
selector from the call data and `verify` handles selector zero: after
charging 10000 gas it reads four fields of 32 bytes (the contract address,
the hasher, the nonce and the proof's length) and the proof, decodes the
proof as a `TxProof`, asks the `ChainManagement` system contract for the
chain id and the authorities of the chain the proof comes from, and
returns the proven transaction's sender and payload.

The proof's decoding and checks and the system contract calls are the
parameters `CrossChainDeps`. Every step of `verify` checks its input, but
`exec` reads the selector with two `unwrap`s: call data that is missing
or shorter than four bytes makes the contract panic, whatever the proof
machinery does (`exec_short_data_panics`).
-/

namespace Cita

namespace Executor

/-- What `CrossChainVerify::verify` calls and this model does not describe,
over a proof type `P` and externalities `σ`. -/
structure CrossChainDeps (P σ : Type) where
  /-- `TxProof::from_bytes`, that is `rlp::decode`, which panics on bytes
  that are not the encoding of a `TxProof`. -/
  fromBytes : Bytes → Outcome Error P
  /-- The `from_chain_id` of `extract_relay_info()`. -/
  relayFromChainId : P → Option Nat
  /-- `ChainManagement::ext_chain_id(ext, gas, sender)`. -/
  extChainId : σ → U256 → Address → Option (U256 × Nat) × σ
  /-- `ChainManagement::ext_authorities(ext, gas, sender, chain_id)`. -/
  extAuthorities : σ → U256 → Address → Nat → Option (U256 × List Address) × σ
  /-- `extract_crosschain_data(addr, hasher, nonce, chain_id, authorities)`. -/
  extractCrosschainData : P → Address → String → Nat → Nat → List Address → Option (Address × Bytes)

variable {P σ : Type}

/-- `lower_hex()` of a `U256`: its hexadecimal digits without leading zeros. -/
def lowerHex (x : U256) : String := String.ofList (Nat.toDigits 16 x.toNat)

/-- `format!("{:08}", s)` for a string: the `0` flag counts only for
numbers, so the string is padded with spaces on the right. -/
def formatWidth8 (s : String) : String := s.pushn ' ' (8 - s.length)

/-- `data.get(a..b)`, with the error `verify` returns when it is `None`. -/
def field (data : Bytes) (a b : Nat) (msg : String) : Outcome Error Bytes :=
  match Slice.get data a b with
  | some bytes => .ok bytes
  | none => .err (.internal msg)

/-- An `Option` that `verify` turns into an `Err(Internal(msg))`. -/
def orInternal {α : Type} (o : Option α) (msg : String) : Outcome Error α :=
  match o with
  | some a => .ok a
  | none => .err (.internal msg)

/-- `CrossChainVerify::verify`. -/
def verify (deps : CrossChainDeps P σ) (params : ActionParams) (ext : σ) :
    Outcome Error (GasLeft × σ) := do
  let gasCost : U256 := 10000
  if params.gas < gasCost then Outcome.err .outOfGas
  let gasLeft := params.gas - gasCost
  let data ← orInternal params.data "no data"
  let dataLen := data.length
  if dataLen < 4 + 32 * 4 then Outcome.err (.internal "data too short")
  let addrData ← field data 4 36 "no addr"
  -- `Address::from(H256)` keeps the low 20 bytes
  let addr := u256ToAddress (BitVec.ofNat 256 (Word.bytesValue addrData))
  let hasherData ← field data 36 68 "no hasher"
  let hasher := lowerHex (BitVec.ofNat 256 (Word.bytesValue hasherData))
  if hasher.length > 8 then Outcome.err .outOfGas
  let hasher := if hasher.length < 8 then formatWidth8 hasher else hasher
  let nonceData ← field data 68 100 "no nonce"
  let nonce := lowU64 (BitVec.ofNat 256 (Word.bytesValue nonceData))
  let proofLenData ← field data 100 132 "no proof len"
  let proofLen := lowU64 (BitVec.ofNat 256 (Word.bytesValue proofLenData))
  let index := 132
  -- `index + proof_len` is a `usize` sum
  if usizeAdd index proofLen > dataLen then Outcome.err (.internal "data shorter than proof len")
  let proofData ← field data index (usizeAdd index proofLen) "no proof data"
  let proof ← deps.fromBytes proofData
  let fromChainId ← orInternal (deps.relayFromChainId proof) "extract relay info failed"
  let (ret, ext) := deps.extChainId ext gasLeft params.sender
  let (gasLeft, chainId) ← orInternal ret "get chain id failed"
  let (ret, ext) := deps.extAuthorities ext gasLeft params.sender fromChainId
  let (gasLeft, authorities) ← orInternal ret "get authorities failed"
  let (sender, txData) ← orInternal
    (deps.extractCrosschainData proof addr hasher nonce chainId authorities)
    "extract_crosschain_data failed"
  let output := List.replicate 12 0 ++ Word.toBytes sender.toNat 20 ++ txData
  pure (.needsReturn gasLeft ⟨output, 0, output.length⟩ true, ext)

/-- The message of `Option::unwrap` on `None`. -/
def unwrapNone : String := "called `Option::unwrap()` on a `None` value"

/-- `CrossChainVerify::exec`: the selector is
`BigEndian::read_u32(params.data.unwrap().get(0..4).unwrap())`. -/
def exec (deps : CrossChainDeps P σ) (params : ActionParams) (ext : σ) :
    Outcome Error (GasLeft × σ) := do
  let data ← Outcome.expect params.data unwrapNone
  let selector ← Outcome.expect (Slice.get data 0 4) unwrapNone
  if Word.bytesValue selector = 0 then verify deps params ext else .err .outOfGas

/-- Call data that is missing or shorter than four bytes makes `exec` panic. -/
theorem exec_short_data_panics (deps : CrossChainDeps P σ) (params : ActionParams) (ext : σ)
    (h : ∀ data ∈ params.data, data.length < 4) : exec deps params ext = .panic unwrapNone := by
  cases hd : params.data with
  | none => simp [exec, hd, Outcome.expect]
  | some data =>
      -- the selector's slice ends past the data
      have hget : Slice.get data 0 4 = none := Slice.get_eq_none (h data hd)
      simp [exec, hd, hget, Outcome.expect]

/-- Dependencies that accept no proof. -/
def CrossChainDeps.rejecting : CrossChainDeps Unit Unit where
  fromBytes _ := .ok ()
  relayFromChainId _ := none
  extChainId _ _ _ := (none, ())
  extAuthorities _ _ _ _ := (none, ())
  extractCrosschainData _ _ _ _ _ _ := none

/-- A call of the contract with 20000 gas and two bytes of data. -/
def ActionParams.twoBytes : ActionParams :=
  ⟨0, 0, 0, 1, 1, 20000, 1, .transfer 0, none, some [0, 0], .call⟩

theorem exec_short_data_panics_twoBytes :
    (∀ data ∈ ActionParams.twoBytes.data, data.length < 4) ∧
      exec CrossChainDeps.rejecting ActionParams.twoBytes () = .panic unwrapNone :=
  have h : ∀ data ∈ ActionParams.twoBytes.data, data.length < 4 := by
    intro data hd
    cases hd
    decide
  ⟨h, exec_short_data_panics CrossChainDeps.rejecting ActionParams.twoBytes () h⟩

end Executor

end Cita
