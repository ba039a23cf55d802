import Cita.Evm.Instructions
import Cita.Evm.Types
import Cita.Lib.Slice

/-!
# Memory, stack and code of the interpreter

`impl Memory for Vec<u8>` (`memory.rs`), `VecStack` (`stack.rs`),
`CodeReader` and `SharedCache::find_jump_destinations`.

Memory offsets arrive as words and are cut to `usize` by `low_u64`;
`read_slice`, `writeable_slice` and `into_return_data` first ask
`is_valid_range` (a non-empty range whose end fits a `usize`), the other
accessors index the vector directly and panic outside it. Every `usize`
sum is `usizeAdd`, which wraps as a release build does.

The stack is a list with the top first: `peek n` is the element `n` below
the top, `stack[len - n - 1]` in the source.
-/

namespace Cita

/-- `MAX_RETURN_WASTE_BYTES`. -/
def maxReturnWasteBytes : Nat := 16384

/-- `is_valid_range`: when the size is zero the memory was not expanded. -/
def isValidRange (off size : Nat) : Bool :=
  size > 0 && !(off + size ≥ 2 ^ 64)

namespace Memory

/-- `read_slice(init_off, init_size)`. -/
def readSlice (m : Bytes) (initOff initSize : U256) : Outcome Error Bytes :=
  let off := lowU64 initOff
  let size := lowU64 initSize
  if !isValidRange off size then .ok [] else Slice.range m off (usizeAdd off size)

/-- `read(offset)`: the word at `offset`. -/
def read (m : Bytes) (offset : U256) : Outcome Error U256 := do
  let off := lowU64 offset
  let bytes ← Slice.range m off (usizeAdd off 32)
  u256FromBytes bytes

/-- `writeable_slice(offset, size)`, as the start and length of the slice. -/
def writeableSlice (m : Bytes) (offset size : U256) : Outcome Error (Nat × Nat) :=
  let off := lowU64 offset
  let s := lowU64 size
  if !isValidRange off s then .ok (0, 0)
  else do
    let _ ← (Slice.range m off (usizeAdd off s) : Outcome Error Bytes)
    pure (off, s)

/-- `write_slice(offset, slice)`. -/
def writeSlice (m : Bytes) (offset : U256) (slice : Bytes) : Outcome Error Bytes :=
  if slice.isEmpty then .ok m
  else do
    let off := lowU64 offset
    let _ ← (Slice.range m off (usizeAdd off slice.length) : Outcome Error Bytes)
    pure (Slice.write m off slice)

/-- `write(offset, value)`: the big-endian bytes of a word. -/
def write (m : Bytes) (offset value : U256) : Outcome Error Bytes := do
  let off := lowU64 offset
  let _ ← (Slice.range m off (usizeAdd off 32) : Outcome Error Bytes)
  pure (Slice.write m off (u256ToBytes value))

/-- `write_byte(offset, value)`: `self[off] = value.low_u64() as u8`. -/
def writeByte (m : Bytes) (offset value : U256) : Outcome Error Bytes := do
  let off := lowU64 offset
  let _ ← (Slice.index m off : Outcome Error UInt8)
  pure (m.set off (lowU64 value).toUInt8)

/-- `expand(size)`: resize with zeros if the memory is smaller. -/
def expand (m : Bytes) (size : Nat) : Bytes :=
  if size > m.length then Slice.resize m size 0 else m

/-- `into_return_data(offset, size)`; a buffer much larger than the returned
slice is cut down to it (`drain(..offset)`, `truncate(size)`). -/
def intoReturnData (m : Bytes) (offset size : U256) : Outcome Error ReturnData :=
  let offset := lowU64 offset
  let size := lowU64 size
  if !isValidRange offset size then .ok .empty
  else if usizeSub m.length size > maxReturnWasteBytes then do
    let _ ← (Slice.range m 0 offset : Outcome Error Bytes)
    pure ⟨(m.drop offset).take size, 0, size⟩
  else .ok ⟨m, offset, size⟩

/-- The bytes the callee left in an output slice of `len` bytes at `start`:
what it wrote, then what it did not overwrite. -/
def writeBack (m : Bytes) (start len : Nat) (out : Bytes) : Bytes :=
  let old := (m.drop start).take len
  Slice.write m start (out.take len ++ old.drop out.length)

end Memory

namespace Stack

/-- `peek(no_from_top)`. -/
def peek (s : List U256) (n : Nat) : Outcome Error U256 := Slice.index s n

/-- `has(no_of_elems)`. -/
def has (s : List U256) (n : Nat) : Bool := s.length ≥ n

/-- `pop_back()`. -/
def popBack : List U256 → Outcome Error (U256 × List U256)
  | [] => .panic "Tried to pop from empty stack."
  | x :: s => .ok (x, s)

/-- `n` successive `pop_back()`s, in the order they pop. -/
def popMany : List U256 → Nat → Outcome Error (List U256 × List U256)
  | s, 0 => .ok ([], s)
  | s, n + 1 => do
      let (x, s) ← popBack s
      let (xs, s) ← popMany s n
      pure (x :: xs, s)

/-- `pop_n(no_of_elems)`: at most `MAX_NO_OF_TOPICS` elements. -/
def popN (s : List U256) (n : Nat) : Outcome Error (List U256 × List U256) := do
  Outcome.assert (decide (n ≤ maxNoOfTopics))
    "assertion failed: no_of_elems <= instructions::MAX_NO_OF_TOPICS"
  popMany s n

/-- `swap_with_top(no_from_top)`: `swap(len - n - 1, len - 1)`. -/
def swapWithTop (s : List U256) (n : Nat) : Outcome Error (List U256) :=
  match s[n]?, s[0]? with
  | some a, some b => .ok ((s.set 0 a).set n b)
  | _, _ => .panic "index out of bounds"

/-- `peek_top(no_of_elems)`: the top elements, lowest first. -/
def peekTop (s : List U256) (n : Nat) : Outcome Error (List U256) := do
  Outcome.assert (decide (s.length ≥ n)) "peek_top asked for more items than exist."
  pure (s.take n).reverse

end Stack

/-- `CodeReader::read(no_of_bytes)`: the word made of the next bytes of code,
cut at the end of the code, and the position after them. -/
def codeRead (code : Bytes) (position n : Nat) : Outcome Error (U256 × Nat) := do
  let max := min (position + n) code.length
  let bytes ← Slice.range code position max
  let v ← u256FromBytes bytes
  pure (v, position + n)

/-- The loop state of `find_jump_destinations`: the positions found so far
and the position of the next instruction. -/
def jumpScanStep (acc : List Nat × Nat) (bi : UInt8 × Nat) : List Nat × Nat :=
  let (dests, next) := acc
  let (instruction, position) := bi
  if position < next then acc
  else
    match decode instruction with
    | .JUMPDEST => (dests ++ [position], position + 1)
    | .PUSH n => (dests, position + n + 1)
    | _ => (dests, position + 1)

/-- `SharedCache::find_jump_destinations`: the `while` loop visits the
instruction boundaries in order, so one pass over the bytes that skips
those before the next boundary visits the same positions. The cache in
front of it returns what this computes for the code. -/
def findJumpDestinations (code : Bytes) : List Nat :=
  (code.zipIdx.foldl jumpScanStep ([], 0)).1

end Cita
