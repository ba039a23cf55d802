import Mathlib.Tactic.Basic

/-!
# The instruction set

`instructions.rs` names each opcode byte by a constant and fills the
table `INSTRUCTIONS` with an `InstructionInfo` per byte: the name, how
many stack items the instruction takes (`args`) and leaves (`ret`), and
its gas tier. Bytes without an entry keep the default, whose tier is
`Invalid`.

The interpreter matches an opcode byte against the constants. Here the
byte is first read as an `Op` (`decode`), and the matches become matches
on `Op`; the four numbered families (`PUSH1..PUSH32`, `DUP1..DUP16`,
`SWAP1..SWAP16`, `LOG0..LOG4`) carry their number, which is what
`get_push_bytes`, `get_dup_position`, `get_swap_position` and
`get_log_topics` compute from the byte.
-/

namespace Cita

/-- `GasPriceTier`. -/
inductive GasPriceTier where
  | zero
  | base
  | veryLow
  | low
  | mid
  | high
  | ext
  | special
  | invalid
deriving Repr, DecidableEq

/-- `get_tier_idx`: the index of a tier in `Schedule::tier_step_gas`. -/
def getTierIdx : GasPriceTier → Nat
  | .zero => 0
  | .base => 1
  | .veryLow => 2
  | .low => 3
  | .mid => 4
  | .high => 5
  | .ext => 6
  | .special => 7
  | .invalid => 8

/-- The fields of `InstructionInfo` the interpreter reads. -/
structure InstructionInfo where
  name : String
  args : Nat
  ret : Nat
  tier : GasPriceTier
deriving Repr, DecidableEq

/-- An opcode byte, read against the constants of `instructions.rs`. -/
inductive Op where
  | STOP
  | ADD
  | MUL
  | SUB
  | DIV
  | SDIV
  | MOD
  | SMOD
  | ADDMOD
  | MULMOD
  | EXP
  | SIGNEXTEND
  | LT
  | GT
  | SLT
  | SGT
  | EQ
  | ISZERO
  | AND
  | OR
  | XOR
  | NOT
  | BYTE
  | SHL
  | SHR
  | SAR
  | SHA3
  | ADDRESS
  | BALANCE
  | ORIGIN
  | CALLER
  | CALLVALUE
  | CALLDATALOAD
  | CALLDATASIZE
  | CALLDATACOPY
  | CODESIZE
  | CODECOPY
  | GASPRICE
  | EXTCODESIZE
  | EXTCODECOPY
  | RETURNDATASIZE
  | RETURNDATACOPY
  | BLOCKHASH
  | COINBASE
  | TIMESTAMP
  | NUMBER
  | DIFFICULTY
  | GASLIMIT
  | POP
  | MLOAD
  | MSTORE
  | MSTORE8
  | SLOAD
  | SSTORE
  | JUMP
  | JUMPI
  | PC
  | MSIZE
  | GAS
  | JUMPDEST
  | CREATE
  | CALL
  | CALLCODE
  | RETURN
  | DELEGATECALL
  | STATICCALL
  | REVERT
  | SUICIDE
  /-- `PUSH1`..`PUSH32`, with the number of immediate bytes. -/
  | PUSH (n : Nat)
  /-- `DUP1`..`DUP16`. -/
  | DUP (n : Nat)
  /-- `SWAP1`..`SWAP16`. -/
  | SWAP (n : Nat)
  /-- `LOG0`..`LOG4`, with the number of topics. -/
  | LOG (n : Nat)
  /-- A byte that no constant names. -/
  | INVALID
deriving Repr, DecidableEq

/-- The constant an opcode byte equals. -/
def decode (b : UInt8) : Op :=
  match b.toNat with
  | 0x00 => .STOP
  | 0x01 => .ADD
  | 0x02 => .MUL
  | 0x03 => .SUB
  | 0x04 => .DIV
  | 0x05 => .SDIV
  | 0x06 => .MOD
  | 0x07 => .SMOD
  | 0x08 => .ADDMOD
  | 0x09 => .MULMOD
  | 0x0a => .EXP
  | 0x0b => .SIGNEXTEND
  | 0x10 => .LT
  | 0x11 => .GT
  | 0x12 => .SLT
  | 0x13 => .SGT
  | 0x14 => .EQ
  | 0x15 => .ISZERO
  | 0x16 => .AND
  | 0x17 => .OR
  | 0x18 => .XOR
  | 0x19 => .NOT
  | 0x1a => .BYTE
  | 0x1b => .SHL
  | 0x1c => .SHR
  | 0x1d => .SAR
  | 0x20 => .SHA3
  | 0x30 => .ADDRESS
  | 0x31 => .BALANCE
  | 0x32 => .ORIGIN
  | 0x33 => .CALLER
  | 0x34 => .CALLVALUE
  | 0x35 => .CALLDATALOAD
  | 0x36 => .CALLDATASIZE
  | 0x37 => .CALLDATACOPY
  | 0x38 => .CODESIZE
  | 0x39 => .CODECOPY
  | 0x3a => .GASPRICE
  | 0x3b => .EXTCODESIZE
  | 0x3c => .EXTCODECOPY
  | 0x3d => .RETURNDATASIZE
  | 0x3e => .RETURNDATACOPY
  | 0x40 => .BLOCKHASH
  | 0x41 => .COINBASE
  | 0x42 => .TIMESTAMP
  | 0x43 => .NUMBER
  | 0x44 => .DIFFICULTY
  | 0x45 => .GASLIMIT
  | 0x50 => .POP
  | 0x51 => .MLOAD
  | 0x52 => .MSTORE
  | 0x53 => .MSTORE8
  | 0x54 => .SLOAD
  | 0x55 => .SSTORE
  | 0x56 => .JUMP
  | 0x57 => .JUMPI
  | 0x58 => .PC
  | 0x59 => .MSIZE
  | 0x5a => .GAS
  | 0x5b => .JUMPDEST
  | 0xf0 => .CREATE
  | 0xf1 => .CALL
  | 0xf2 => .CALLCODE
  | 0xf3 => .RETURN
  | 0xf4 => .DELEGATECALL
  | 0xfa => .STATICCALL
  | 0xfd => .REVERT
  | 0xff => .SUICIDE
  | n =>
      if 0x60 ≤ n ∧ n ≤ 0x7f then .PUSH (n - 0x60 + 1)
      else if 0x80 ≤ n ∧ n ≤ 0x8f then .DUP (n - 0x80 + 1)
      else if 0x90 ≤ n ∧ n ≤ 0x9f then .SWAP (n - 0x90 + 1)
      else if 0xa0 ≤ n ∧ n ≤ 0xa4 then .LOG (n - 0xa0)
      else .INVALID

/-- The entry of `INSTRUCTIONS` for an opcode. -/
def Op.info : Op → InstructionInfo
  | .STOP => ⟨"STOP", 0, 0, .zero⟩
  | .ADD => ⟨"ADD", 2, 1, .veryLow⟩
  | .MUL => ⟨"MUL", 2, 1, .low⟩
  | .SUB => ⟨"SUB", 2, 1, .veryLow⟩
  | .DIV => ⟨"DIV", 2, 1, .low⟩
  | .SDIV => ⟨"SDIV", 2, 1, .low⟩
  | .MOD => ⟨"MOD", 2, 1, .low⟩
  | .SMOD => ⟨"SMOD", 2, 1, .low⟩
  | .ADDMOD => ⟨"ADDMOD", 3, 1, .mid⟩
  | .MULMOD => ⟨"MULMOD", 3, 1, .mid⟩
  | .EXP => ⟨"EXP", 2, 1, .special⟩
  | .SIGNEXTEND => ⟨"SIGNEXTEND", 2, 1, .low⟩
  | .LT => ⟨"LT", 2, 1, .veryLow⟩
  | .GT => ⟨"GT", 2, 1, .veryLow⟩
  | .SLT => ⟨"SLT", 2, 1, .veryLow⟩
  | .SGT => ⟨"SGT", 2, 1, .veryLow⟩
  | .EQ => ⟨"EQ", 2, 1, .veryLow⟩
  | .ISZERO => ⟨"ISZERO", 1, 1, .veryLow⟩
  | .AND => ⟨"AND", 2, 1, .veryLow⟩
  | .OR => ⟨"OR", 2, 1, .veryLow⟩
  | .XOR => ⟨"XOR", 2, 1, .veryLow⟩
  | .NOT => ⟨"NOT", 1, 1, .veryLow⟩
  | .BYTE => ⟨"BYTE", 2, 1, .veryLow⟩
  | .SHL => ⟨"SHL", 2, 1, .veryLow⟩
  | .SHR => ⟨"SHR", 2, 1, .veryLow⟩
  | .SAR => ⟨"SAR", 2, 1, .veryLow⟩
  | .SHA3 => ⟨"SHA3", 2, 1, .special⟩
  | .ADDRESS => ⟨"ADDRESS", 0, 1, .base⟩
  | .BALANCE => ⟨"BALANCE", 1, 1, .special⟩
  | .ORIGIN => ⟨"ORIGIN", 0, 1, .base⟩
  | .CALLER => ⟨"CALLER", 0, 1, .base⟩
  | .CALLVALUE => ⟨"CALLVALUE", 0, 1, .base⟩
  | .CALLDATALOAD => ⟨"CALLDATALOAD", 1, 1, .veryLow⟩
  | .CALLDATASIZE => ⟨"CALLDATASIZE", 0, 1, .base⟩
  | .CALLDATACOPY => ⟨"CALLDATACOPY", 3, 0, .veryLow⟩
  | .CODESIZE => ⟨"CODESIZE", 0, 1, .base⟩
  | .CODECOPY => ⟨"CODECOPY", 3, 0, .veryLow⟩
  | .GASPRICE => ⟨"GASPRICE", 0, 1, .base⟩
  | .EXTCODESIZE => ⟨"EXTCODESIZE", 1, 1, .special⟩
  | .EXTCODECOPY => ⟨"EXTCODECOPY", 4, 0, .special⟩
  | .RETURNDATASIZE => ⟨"RETURNDATASIZE", 0, 1, .base⟩
  | .RETURNDATACOPY => ⟨"RETURNDATACOPY", 3, 0, .veryLow⟩
  | .BLOCKHASH => ⟨"BLOCKHASH", 1, 1, .ext⟩
  | .COINBASE => ⟨"COINBASE", 0, 1, .base⟩
  | .TIMESTAMP => ⟨"TIMESTAMP", 0, 1, .base⟩
  | .NUMBER => ⟨"NUMBER", 0, 1, .base⟩
  | .DIFFICULTY => ⟨"DIFFICULTY", 0, 1, .base⟩
  | .GASLIMIT => ⟨"GASLIMIT", 0, 1, .base⟩
  | .POP => ⟨"POP", 1, 0, .base⟩
  | .MLOAD => ⟨"MLOAD", 1, 1, .veryLow⟩
  | .MSTORE => ⟨"MSTORE", 2, 0, .veryLow⟩
  | .MSTORE8 => ⟨"MSTORE8", 2, 0, .veryLow⟩
  | .SLOAD => ⟨"SLOAD", 1, 1, .special⟩
  | .SSTORE => ⟨"SSTORE", 2, 0, .special⟩
  | .JUMP => ⟨"JUMP", 1, 0, .mid⟩
  | .JUMPI => ⟨"JUMPI", 2, 0, .high⟩
  | .PC => ⟨"PC", 0, 1, .base⟩
  | .MSIZE => ⟨"MSIZE", 0, 1, .base⟩
  | .GAS => ⟨"GAS", 0, 1, .base⟩
  | .JUMPDEST => ⟨"JUMPDEST", 0, 0, .special⟩
  | .CREATE => ⟨"CREATE", 3, 1, .special⟩
  | .CALL => ⟨"CALL", 7, 1, .special⟩
  | .CALLCODE => ⟨"CALLCODE", 7, 1, .special⟩
  | .RETURN => ⟨"RETURN", 2, 0, .zero⟩
  | .DELEGATECALL => ⟨"DELEGATECALL", 6, 1, .special⟩
  | .STATICCALL => ⟨"STATICCALL", 6, 1, .special⟩
  | .REVERT => ⟨"REVERT", 2, 0, .zero⟩
  | .SUICIDE => ⟨"SUICIDE", 1, 0, .special⟩
  | .PUSH n => ⟨s!"PUSH{n}", 0, 1, .veryLow⟩
  | .DUP n => ⟨s!"DUP{n}", n, n + 1, .veryLow⟩
  | .SWAP n => ⟨s!"SWAP{n}", n + 1, n + 1, .veryLow⟩
  | .LOG n => ⟨s!"LOG{n}", n + 2, 0, .special⟩
  | .INVALID => ⟨"", 0, 0, .invalid⟩

/-- `INSTRUCTIONS[instruction as usize]`. -/
def instructions (b : UInt8) : InstructionInfo := (decode b).info

/-- `MAX_NO_OF_TOPICS`. -/
def maxNoOfTopics : Nat := 4

end Cita
