import Cita.Evm.Memory
import Cita.Lib.Wp

/-!
# The interpreter's frame and its stack instructions

`exec_instruction` mutates the interpreter's memory and return-data
buffer, the stack, the code reader and the externalities; `Frame` holds
the five and `Exec` is a state monad over it with Rust's error and panic
outcomes. The primitive actions (`Exec.pop`, `Exec.push`, ...) are the
calls of `VecStack` and `Memory` the source makes.

This module also has `exec_stack_instruction` (`DUP`, `SWAP`, `POP` and
the arithmetic, comparison and bit instructions) and the sign helpers
`get_and_reset_sign` and `set_sign`. The 256-bit words are `BitVec 256`,
whose `+`, `-`, `*` wrap as `overflowing_add` and friends do.
-/

namespace Cita

/-- What `exec_instruction` may change: the interpreter's memory and return
data, the stack (top first), the code reader's position and the state of
the externalities. -/
structure Frame (σ : Type) where
  mem : Bytes
  returnData : ReturnData
  stack : List U256
  position : Nat
  ext : σ

/-- The interpreter's actions on a frame. -/
abbrev Exec (σ α : Type) := StateT (Frame σ) (Outcome Error) α

namespace Exec

variable {σ α : Type}

/-- A call to code that does not touch the frame. -/
abbrev lift (x : Outcome Error α) : Exec σ α := StateT.lift x

/-- The `?` operator on a call to `Ext`. -/
def liftExcept (x : Except Error α) : Exec σ α := lift (Outcome.ofExcept x)

def throw (e : Error) : Exec σ α := lift (.err e)

def pop : Exec σ U256 := fun f => do
  let (x, s) ← Stack.popBack f.stack
  pure (x, { f with stack := s })

def push (x : U256) : Exec σ Unit := fun f => pure ((), { f with stack := x :: f.stack })

def peek (n : Nat) : Exec σ U256 := fun f => do
  let x ← Stack.peek f.stack n
  pure (x, f)

def popN (n : Nat) : Exec σ (List U256) := fun f => do
  let (xs, s) ← Stack.popN f.stack n
  pure (xs, { f with stack := s })

def swapWithTop (n : Nat) : Exec σ Unit := fun f => do
  let s ← Stack.swapWithTop f.stack n
  pure ((), { f with stack := s })

def ext : Exec σ σ := fun f => pure (f.ext, f)

def setExt (s : σ) : Exec σ Unit := fun f => pure ((), { f with ext := s })

def mem : Exec σ Bytes := fun f => pure (f.mem, f)

def setMem (m : Bytes) : Exec σ Unit := fun f => pure ((), { f with mem := m })

def returnData : Exec σ ReturnData := fun f => pure (f.returnData, f)

def setReturnData (r : ReturnData) : Exec σ Unit := fun f => pure ((), { f with returnData := r })

def position : Exec σ Nat := fun f => pure (f.position, f)

def setPosition (p : Nat) : Exec σ Unit := fun f => pure ((), { f with position := p })

/-! ### The rule of each action -/

variable {Q : α → Frame σ → Prop} {f : Frame σ}

@[simp] theorem wp_liftExcept (x : Except Error α) :
    wp (liftExcept x) Q f ↔ ∀ a, x = .ok a → Q a f := by
  cases x <;> simp [liftExcept]

@[simp] theorem wp_throw (e : Error) : wp (throw e) Q f := by
  simp [throw]

@[simp] theorem wp_pop {Q : U256 → Frame σ → Prop} :
    wp pop Q f ↔ ∀ x s, f.stack = x :: s → Q x { f with stack := s } := by
  rcases hs : f.stack with _ | ⟨y, s⟩ <;> simp [wp, pop, StateT.run, Stack.popBack, hs]

@[simp] theorem wp_push {Q : Unit → Frame σ → Prop} (x : U256) :
    wp (push x) Q f ↔ Q () { f with stack := x :: f.stack } := by
  simp only [wp, push, StateT.run]
  exact ⟨fun h => h () _ rfl, fun h _ _ hx => by cases hx; exact h⟩

@[simp] theorem wp_peek {Q : U256 → Frame σ → Prop} (n : Nat) :
    wp (peek n) Q f ↔ ∀ x, f.stack[n]? = some x → Q x f := by
  simp [wp, peek, StateT.run, Stack.peek, Outcome.bind_eq_ok]

@[simp] theorem wp_popN {Q : List U256 → Frame σ → Prop} (n : Nat) :
    wp (popN n) Q f ↔ ∀ xs s, Stack.popN f.stack n = .ok (xs, s) → Q xs { f with stack := s } := by
  simp [wp, popN, StateT.run, Outcome.bind_eq_ok]

@[simp] theorem wp_swapWithTop {Q : Unit → Frame σ → Prop} (n : Nat) :
    wp (swapWithTop n) Q f ↔
      ∀ s, Stack.swapWithTop f.stack n = .ok s → Q () { f with stack := s } := by
  simp only [wp, swapWithTop, StateT.run, Outcome.bind_eq_ok]
  refine ⟨fun h s hs => h () _ ⟨s, hs, rfl⟩, fun h _ _ hx => ?_⟩
  obtain ⟨s, hs, hx⟩ := hx
  cases hx
  exact h s hs

@[simp] theorem wp_ext {Q : σ → Frame σ → Prop} : wp ext Q f ↔ Q f.ext f := by
  simp [wp, ext, StateT.run]

@[simp] theorem wp_setExt {Q : Unit → Frame σ → Prop} (s : σ) :
    wp (setExt s) Q f ↔ Q () { f with ext := s } := by
  simp only [wp, setExt, StateT.run]
  exact ⟨fun h => h () _ rfl, fun h _ _ hx => by cases hx; exact h⟩

@[simp] theorem wp_mem {Q : Bytes → Frame σ → Prop} : wp mem Q f ↔ Q f.mem f := by
  simp [wp, mem, StateT.run]

@[simp] theorem wp_setMem {Q : Unit → Frame σ → Prop} (m : Bytes) :
    wp (setMem m) Q f ↔ Q () { f with mem := m } := by
  simp only [wp, setMem, StateT.run]
  exact ⟨fun h => h () _ rfl, fun h _ _ hx => by cases hx; exact h⟩

@[simp] theorem wp_returnData {Q : ReturnData → Frame σ → Prop} :
    wp returnData Q f ↔ Q f.returnData f := by
  simp [wp, returnData, StateT.run]

@[simp] theorem wp_setReturnData {Q : Unit → Frame σ → Prop} (r : ReturnData) :
    wp (setReturnData r) Q f ↔ Q () { f with returnData := r } := by
  simp only [wp, setReturnData, StateT.run]
  exact ⟨fun h => h () _ rfl, fun h _ _ hx => by cases hx; exact h⟩

@[simp] theorem wp_position {Q : Nat → Frame σ → Prop} : wp position Q f ↔ Q f.position f := by
  simp [wp, position, StateT.run]

@[simp] theorem wp_setPosition {Q : Unit → Frame σ → Prop} (p : Nat) :
    wp (setPosition p) Q f ↔ Q () { f with position := p } := by
  simp only [wp, setPosition, StateT.run]
  exact ⟨fun h => h () _ rfl, fun h _ _ hx => by cases hx; exact h⟩

/-! ### The run of each action on a frame written out -/

@[simp] theorem run_pop_cons (m : Bytes) (r : ReturnData) (x : U256) (s : List U256) (p : Nat) (e : σ) :
    (pop : Exec σ U256).run ⟨m, r, x :: s, p, e⟩ = .ok (x, ⟨m, r, s, p, e⟩) := rfl

@[simp] theorem run_mem (f : Frame σ) : (mem : Exec σ Bytes).run f = .ok (f.mem, f) := rfl

@[simp] theorem run_setMem (f : Frame σ) (m : Bytes) :
    (setMem m : Exec σ Unit).run f = .ok ((), { f with mem := m }) := rfl

@[simp] theorem run_push (f : Frame σ) (x : U256) :
    (push x : Exec σ Unit).run f = .ok ((), { f with stack := x :: f.stack }) := rfl

@[simp] theorem run_position (f : Frame σ) : (position : Exec σ Nat).run f = .ok (f.position, f) :=
  rfl

@[simp] theorem run_setPosition (f : Frame σ) (p : Nat) :
    (setPosition p : Exec σ Unit).run f = .ok ((), { f with position := p }) := rfl

end Exec

/-- `set_sign`: the two's-complement negation when `sign` is set. -/
def setSign (value : U256) (sign : Bool) : U256 :=
  if sign then (~~~(0 : U256) ^^^ value) + 1 else value

/-- `get_and_reset_sign`: the magnitude and the sign bit. -/
def getAndResetSign (value : U256) : U256 × Bool :=
  let sign := value.msb
  (setSign value sign, sign)

/-- `bool_to_u256`. -/
def boolToU256 (b : Bool) : U256 := if b then 1 else 0

/-- `overflowing_pow(expon).0`: square and multiply over the 256 bits of the
exponent, wrapping. -/
def wrappingPow (base : U256) : Nat → Nat → U256
  | 0, _ => 1
  | k + 1, e =>
      let r := wrappingPow (base * base) k (e / 2)
      if e % 2 = 1 then base * r else r

/-- `U256::from(U512)`: the low half, when the high half is zero. -/
def u256FromU512 (x : U512) : Outcome Error U256 :=
  if x.toNat < 2 ^ 256 then .ok (x.setWidth 256) else .panic "Overflow"

/-- The `DIV` arm: shifts for the powers of two the source singles out,
`overflowing_div` otherwise, and zero for a zero divisor. -/
def divWord (a b : U256) : U256 :=
  if b = 0 then 0
  else if b = 1 then a
  else if b = 2 then a >>> 1
  else if b = 2 ^ 5 then a >>> 5
  else if b = 2 ^ 8 then a >>> 8
  else if b = 2 ^ 16 then a >>> 16
  else if b = 2 ^ 24 then a >>> 24
  else if b = 2 ^ 64 then a >>> 64
  else if b = 2 ^ 96 then a >>> 96
  else if b = 2 ^ 224 then a >>> 224
  else if b = 2 ^ 248 then a >>> 248
  else a / b

/-- The `SDIV` arm on the popped words. -/
def sdivWord (ua ub : U256) : U256 :=
  let (a, signA) := getAndResetSign ua
  let (b, signB) := getAndResetSign ub
  -- the source's `min`, `(1 << 255) - 1`
  let min : U256 := (1 <<< 255) - 1
  if b = 0 then 0
  else if a = min && b = ~~~0 then min
  else setSign (a / b) (signA ^^ signB)

/-- The `SMOD` arm on the popped words. -/
def smodWord (ua ub : U256) : U256 :=
  let (a, signA) := getAndResetSign ua
  let b := (getAndResetSign ub).1
  if b ≠ 0 then setSign (a % b) signA else 0

/-- The `SLT` arm on the popped words. -/
def sltWord (ua ub : U256) : Bool :=
  let (a, negA) := getAndResetSign ua
  let (b, negB) := getAndResetSign ub
  let isPositiveLt := decide (a < b) && !(negA || negB)
  let isNegativeLt := decide (a > b) && (negA && negB)
  let hasDifferentSigns := negA && !negB
  isPositiveLt || isNegativeLt || hasDifferentSigns

/-- The `SGT` arm on the popped words. -/
def sgtWord (ua ub : U256) : Bool :=
  let (a, negA) := getAndResetSign ua
  let (b, negB) := getAndResetSign ub
  let isPositiveGt := decide (a > b) && !(negA || negB)
  let isNegativeGt := decide (a < b) && (negA && negB)
  let hasDifferentSigns := !negA && negB
  isPositiveGt || isNegativeGt || hasDifferentSigns

/-- The `BYTE` arm: byte `word` of `val`, counting from the most significant. -/
def byteWord (word val : U256) : U256 :=
  if word < 32 then (val >>> (8 * (31 - lowU64 word))) &&& 0xff else 0

/-- The `SIGNEXTEND` arm once `bit < 32`. -/
def signextendWord (bit number : U256) : U256 :=
  let bitPosition := lowU64 bit * 8 + 7
  let mask : U256 := (1 <<< bitPosition) - 1
  if number.getLsbD bitPosition then number ||| ~~~mask else number &&& mask

/-- The `SAR` arm. -/
def sarWord (shift value : U256) : U256 :=
  let sign := value &&& (1 <<< 255) ≠ 0
  if shift ≥ 256 then (if sign then ~~~0 else 0)
  else
    -- `shift.as_u32()` is in range here
    let shift := shift.toNat
    let shifted := value >>> shift
    if sign then shifted ||| (~~~(0 : U256) <<< (256 - shift)) else shifted

variable {σ : Type}

open Exec in
/-- `exec_stack_instruction`. -/
def execStackInstruction (instruction : UInt8) (op : Op) : Exec σ Unit :=
  match op with
  | .DUP n => do
      let val ← peek (n - 1)
      push val
  | .SWAP n => swapWithTop n
  | .POP => do
      let _ ← pop
  | .ADD => do
      let a ← pop
      let b ← pop
      push (a + b)
  | .MUL => do
      let a ← pop
      let b ← pop
      push (a * b)
  | .SUB => do
      let a ← pop
      let b ← pop
      push (a - b)
  | .DIV => do
      let a ← pop
      let b ← pop
      push (divWord a b)
  | .MOD => do
      let a ← pop
      let b ← pop
      push (if b ≠ 0 then a % b else 0)
  | .SDIV => do
      let a ← pop
      let b ← pop
      push (sdivWord a b)
  | .SMOD => do
      let ua ← pop
      let ub ← pop
      push (smodWord ua ub)
  | .EXP => do
      let base ← pop
      let expon ← pop
      push (wrappingPow base 256 expon.toNat)
  | .NOT => do
      let a ← pop
      push (~~~a)
  | .LT => do
      let a ← pop
      let b ← pop
      push (boolToU256 (decide (a < b)))
  | .SLT => do
      let a ← pop
      let b ← pop
      push (boolToU256 (sltWord a b))
  | .GT => do
      let a ← pop
      let b ← pop
      push (boolToU256 (decide (a > b)))
  | .SGT => do
      let a ← pop
      let b ← pop
      push (boolToU256 (sgtWord a b))
  | .EQ => do
      let a ← pop
      let b ← pop
      push (boolToU256 (decide (a = b)))
  | .ISZERO => do
      let a ← pop
      push (boolToU256 (decide (a = 0)))
  | .AND => do
      let a ← pop
      let b ← pop
      push (a &&& b)
  | .OR => do
      let a ← pop
      let b ← pop
      push (a ||| b)
  | .XOR => do
      let a ← pop
      let b ← pop
      push (a ^^^ b)
  | .BYTE => do
      let word ← pop
      let val ← pop
      push (byteWord word val)
  | .ADDMOD => do
      let a ← pop
      let b ← pop
      let c ← pop
      if c ≠ 0 then
        -- upcast to 512
        let x := (a.setWidth 512 + b.setWidth 512) % c.setWidth 512
        push (← lift (u256FromU512 x))
      else push 0
  | .MULMOD => do
      let a ← pop
      let b ← pop
      let c ← pop
      if c ≠ 0 then
        let x := (a.setWidth 512 * b.setWidth 512) % c.setWidth 512
        push (← lift (u256FromU512 x))
      else push 0
  | .SIGNEXTEND => do
      let bit ← pop
      if bit < 32 then
        let number ← pop
        push (signextendWord bit number)
  | .SHL => do
      let shift ← pop
      let value ← pop
      push (if shift ≥ 256 then 0 else value <<< shift.toNat)
  | .SHR => do
      let shift ← pop
      let value ← pop
      push (if shift ≥ 256 then 0 else value >>> shift.toNat)
  | .SAR => do
      let shift ← pop
      let value ← pop
      push (sarWord shift value)
  | _ => throw (.badInstruction instruction)

end Cita
