import Cita.Evm.Types

/-!
# The data of the chain service

The logs and receipts the executor makes and the chain stores
(`types::log_entry`, `types::receipt`), the headers and bodies of blocks,
the `ExecutedResult`s the executor sends the chain, the blocks consensus
and the network hand it (`BlockInQueue`), and the log filters of its
JSON-RPC interface (`types::filter::Filter`).

Two functions of this data are hashes and are parameters of what uses
them: the hash of a header (`Header::hash`, the Keccak of its RLP) and the
bits that a piece of raw data sets in a bloom (`BloomTools::accrue_raw`).
A block's transactions are kept as their hashes, the only thing the chain
reads of them, and a proof as the height of the BFT proof it carries.
-/

namespace Cita

/-! ## Logs and receipts -/

/-- `LogBloom`: 2048 bits. -/
abbrev LogBloom := BitVec 2048

/-- `contains_bloom`: every bit of `bloom` is set. -/
def LogBloom.containsBloom (self bloom : LogBloom) : Bool := self &&& bloom == bloom

/-- `LogEntry`. -/
structure LogEntry where
  address : Address
  topics : List H256
  data : Bytes
deriving DecidableEq, Repr

/-- `ReceiptError`. -/
inductive ReceiptError where
  | notEnoughBaseGas
  | blockGasLimitReached
  | accountGasLimitReached
  | invalidNonce
  | notEnoughCash
  | noTransactionPermission
  | noContractPermission
  | noCallPermission
  | executionInternal
  | transactionMalformed
  | outOfGas
  | badJumpDestination
  | badInstruction
  | stackUnderflow
  | outOfStack
  | internal
  | mutableCallInStaticContext
  | outOfBounds
  | reverted
deriving DecidableEq, Repr

/-- `Receipt`. -/
structure Receipt where
  stateRoot : Option H256
  gasUsed : U256
  logBloom : LogBloom
  logs : List LogEntry
  error : Option ReceiptError
  accountNonce : U256
  transactionHash : H256
deriving DecidableEq, Repr

section Bloom

variable (bloomed : Bytes → LogBloom)

/-- `LogEntry::bloom`: the bits of the address, then those of each topic. -/
def LogEntry.bloom (log : LogEntry) : LogBloom :=
  log.topics.foldl (fun b t => b ||| bloomed (u256ToBytes t)) (bloomed (Word.toBytes log.address.toNat 20))

/-- The bloom `Receipt::new` folds from the logs. -/
def logsBloom (logs : List LogEntry) : LogBloom := logs.foldl (fun b l => b ||| l.bloom bloomed) 0

/-- `Receipt::new`: the bloom is the logs'. -/
def Receipt.new (stateRoot : Option H256) (gasUsed : U256) (logs : List LogEntry)
    (error : Option ReceiptError) (accountNonce : U256) (transactionHash : H256) : Receipt :=
  ⟨stateRoot, gasUsed, logsBloom bloomed logs, logs, error, accountNonce, transactionHash⟩

end Bloom

namespace Libchain

/-- `ProofType`. -/
inductive ProofType where
  | authorityRound
  | raft
  | bft
deriving DecidableEq, Repr

/-- `ProtoProof`: its type, and the height of the `BftProof` its content
decodes to. `Proof::new()` is the authority-round proof with nothing in it. -/
structure Proof where
  fieldType : ProofType
  height : Nat
deriving DecidableEq, Repr

/-- `Proof::new()`. -/
def Proof.new : Proof := ⟨.authorityRound, 0⟩

/-- `usize::MAX` and `u64::MAX` on the 64-bit targets: the height a
block-1 proof and a proof-only sync block carry. -/
def u64Max : Nat := 2 ^ 64 - 1

/-- `Header`, without its cached hash. -/
structure Header where
  parentHash : H256
  timestamp : Nat
  number : Nat
  transactionsRoot : H256
  stateRoot : H256
  receiptsRoot : H256
  logBloom : LogBloom
  gasUsed : U256
  gasLimit : U256
  proof : Proof
  version : Nat
  proposer : Address
deriving DecidableEq, Repr

/-- `Header::new()` and `Header::default()`. -/
def Header.new : Header := ⟨0, 0, 0, 0, 0, 0, 0, 0, 0, Proof.new, 0, 0⟩

/-- `proof_type`: none for the empty proof. -/
def Header.proofType (h : Header) : Option ProofType :=
  if h.proof = Proof.new then none else some h.proof.fieldType

/-- `BlockBody`, its transactions given by their hashes. -/
structure BlockBody where
  transactionHashes : List H256
deriving DecidableEq, Repr

/-- `Block`: `Deref` to its header. -/
structure Block where
  header : Header
  body : BlockBody
deriving DecidableEq, Repr

/-- `Block::default()`. -/
def Block.default : Block := ⟨Header.new, ⟨[]⟩⟩

def Block.number (b : Block) : Nat := b.header.number

def Block.parentHash (b : Block) : H256 := b.header.parentHash

def Block.proof (b : Block) : Proof := b.header.proof

/-- A block waiting in `block_map` for its executed result. -/
inductive BlockInQueue where
  | consensusBlock (block : Block) (proof : Proof)
  | syncBlock (block : Block) (proof : Option Proof)
deriving DecidableEq, Repr

/-- The queued block itself. -/
def BlockInQueue.block : BlockInQueue → Block
  | .consensusBlock b _ => b
  | .syncBlock b _ => b

/-- The header of `ExecutedInfo`. -/
structure ExecutedHeader where
  prevhash : H256
  timestamp : Nat
  height : Nat
  stateRoot : H256
  transactionsRoot : H256
  receiptsRoot : H256
  logBloom : LogBloom
  gasUsed : U256
  gasLimit : U256
  proposer : Address
deriving DecidableEq, Repr

/-- `ExecutedInfo`: the header and the receipts of an executed block. -/
structure ExecutedInfo where
  header : ExecutedHeader
  receipts : List Receipt
deriving DecidableEq, Repr

/-- `AccountGasLimit`. -/
structure AccountGasLimit where
  commonQuotaLimit : Nat
  specificQuotaLimit : List (Address × Nat)
deriving DecidableEq, Repr

/-- `ConsensusConfig`, the system configuration after the block. -/
structure ConsensusConfig where
  nodes : List Address
  blockInterval : Nat
  checkQuota : Bool
  blockGasLimit : Nat
  accountGasLimit : AccountGasLimit
deriving DecidableEq, Repr

/-- `ExecutedResult`. -/
structure ExecutedResult where
  config : ConsensusConfig
  executedInfo : ExecutedInfo
deriving DecidableEq, Repr

/-- The height an executed result is for. -/
def ExecutedResult.height (r : ExecutedResult) : Nat := r.executedInfo.header.height

/-- `BlockId`. -/
inductive BlockId where
  | hash (h : H256)
  | number (n : Nat)
  | earliest
  | latest
deriving DecidableEq, Repr

/-! ## Log filters -/

/-- `types::filter::Filter`. -/
structure Filter where
  fromBlock : BlockId
  toBlock : BlockId
  address : Option (List Address)
  topics : List (Option (List H256))
  limit : Option Nat
deriving DecidableEq, Repr

/-- `VariadicValue` of the JSON-RPC types: `null`, one value, or a list of
them. -/
inductive VariadicValue (α : Type) where
  | null
  | single (a : α)
  | multiple (as : List α)
deriving DecidableEq, Repr

namespace Filter

/-- The topic positions `From<RpcFilter>` builds: of the first four given,
`null` names no topic, one topic names that one and a list names any of
it; the positions not given are `None`, so there are always four. -/
def topicsOfRpc (topics : Option (List (VariadicValue H256))) : List (Option (List H256)) :=
  let given := ((topics.getD []).take 4).map fun
    | .null => none
    | .single t => some [t]
    | .multiple ts => some ts
  [given.getD 0 none, given.getD 1 none, given.getD 2 none, given.getD 3 none]

/-- `From<RpcFilter> for Filter`, from the block ids the RPC filter's block
numbers convert to. -/
def ofRpc (fromBlock toBlock : BlockId) (address : Option (VariadicValue Address))
    (topics : Option (List (VariadicValue H256))) (limit : Option Nat) : Filter :=
  ⟨fromBlock, toBlock,
    address.bind fun
      | .null => none
      | .single a => some [a]
      | .multiple as => some as,
    topicsOfRpc topics, limit⟩

@[simp] theorem length_topicsOfRpc (topics : Option (List (VariadicValue H256))) :
    (topicsOfRpc topics).length = 4 := rfl

/-- `bloom_possibilities`: a bloom for each address, crossed with one topic
from each position that names topics. `bloomed` gives the bits of raw data. -/
def bloomPossibilities (bloomed : Bytes → LogBloom) (f : Filter) : List LogBloom :=
  let blooms : List LogBloom := match f.address with
    | some addresses@(_ :: _) => addresses.map fun a => bloomed (Word.toBytes a.toNat 20)
    | _ => [0]
  f.topics.foldl (fun bs topic => match topic with
    | none => bs
    | some topics => bs.flatMap fun b => topics.map fun t => b ||| bloomed (u256ToBytes t))
    blooms

/-- `matches`: one of the addresses, and at each position that names topics
one of them. -/
def «matches» (f : Filter) (log : LogEntry) : Bool :=
  let addressMatches := match f.address with
    | some addresses@(_ :: _) => addresses.any (log.address == ·)
    | _ => true
  addressMatches && f.topics.zipIdx.all fun (topic, i) => match topic with
    | some topics@(_ :: _) => topics.any fun t => log.topics[i]? == some t
    | _ => true

end Filter

/-- `LocalizedLogEntry`: a log with where it was produced. -/
structure LocalizedLogEntry where
  entry : LogEntry
  blockHash : H256
  blockNumber : Nat
  transactionHash : H256
  transactionIndex : Nat
  transactionLogIndex : Nat
  logIndex : Nat
deriving DecidableEq, Repr

/-- `PollFilter`: the number of the first block not yet reported, and for a
log filter the filter. -/
inductive PollFilter where
  | block (blockNumber : Nat)
  | logs (blockNumber : Nat) (filter : Filter)
deriving DecidableEq, Repr

/-- `FilterChanges`. -/
inductive FilterChanges where
  | empty
  | logs (logs : List LocalizedLogEntry)
  | hashes (hashes : List H256)
deriving DecidableEq, Repr

end Libchain

end Cita
