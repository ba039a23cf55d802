import Cita.Evm.Cost
import Cita.Evm.Memory

/-!
# The gasometer

`gasometer.rs`: what an instruction costs before it runs. `requirements`
reads the instruction and the stack, asks `Ext` where the price depends on
the state (`SSTORE`, `SUICIDE`, a `CALL` to a new account), and returns
the gas to charge, the memory to expand to and, for `CALL`s and `CREATE`,
the gas handed to the child (`provide_gas`). The child's gas is part of
the charge: the caller gets back what the child did not use.

`overflowing!` turns a flagged overflow into `Err(OutOfGas)`; `Cost`'s
plain operators keep their own meaning (`CostType`).
-/

namespace Cita

open CostType

/-- `Gasometer`. -/
structure Gasometer (Cost : Type) where
  currentGas : Cost
  currentMemGas : Cost
deriving Repr

/-- `Request`: the base price of an instruction and the memory it touches. -/
inductive Request (Cost : Type) where
  | gas (gas : Cost)
  | gasMem (gas mem : Cost)
  | gasMemProvide (gas mem : Cost) (requested : Option U256)
  | gasMemCopy (gas mem copy : Cost)

/-- `InstructionRequirements`. -/
structure InstructionRequirements (Cost : Type) where
  gasCost : Cost
  provideGas : Option Cost
  memoryTotalGas : Cost
  memoryRequiredSize : Nat

/-- `overflowing!`: an overflow is `Err(OutOfGas)`. -/
def overflowing {β : Type} (r : β × Bool) : Outcome Error β :=
  if r.2 then .err .outOfGas else .ok r.1

@[simp] theorem overflowing_eq_ok {β : Type} {r : β × Bool} {z : β} :
    overflowing r = .ok z ↔ r.2 = false ∧ r.1 = z := by
  unfold overflowing
  split <;> simp_all

variable {Cost : Type} [CostType Cost]

/-- `<` on a cost. -/
def CostType.lt (x y : Cost) : Bool := !le y x

/-- `cmp::max` on costs. -/
def CostType.max (x y : Cost) : Cost := if le x y then y else x

/-- `cmp::min` on costs. -/
def CostType.min (x y : Cost) : Cost := if le x y then x else y

namespace Gasometer

/-- `Gasometer::new(current_gas)`. -/
def new (currentGas : Cost) : Gasometer Cost := ⟨currentGas, ofUsize 0⟩

/-- `verify_gas(gas_cost)`. -/
def verifyGas (g : Gasometer Cost) (gasCost : Cost) : Except Error Unit :=
  if CostType.lt g.currentGas gasCost then .error .outOfGas else .ok ()

/-- The `_` arm of `gas_provided`: without a cap the requested gas, which must fit. -/
def gasProvidedUncapped (g : Gasometer Cost) (needed : Cost)
    (requested : Option (Except Error Cost)) : Outcome Error Cost :=
  match requested with
  | some r => Outcome.ofExcept r
  | none => if le needed g.currentGas then sub g.currentGas needed else pure (ofUsize 0)

/-- `gas_provided(schedule, needed, requested)`: the gas handed to a
`CALL` or `CREATE` after `needed` is paid. -/
def gasProvided (g : Gasometer Cost) (schedule : Schedule) (needed : Cost)
    (requested : Option U256) : Outcome Error Cost :=
  let requested := requested.map (fromU256 (α := Cost))
  match schedule.subGasCapDivisor with
  | some capDivisor =>
      if le needed g.currentGas then do
        let gasRemaining ← sub g.currentGas needed
        let maxGasProvided ← match capDivisor with
          | 64 => sub gasRemaining (shr gasRemaining 6)
          | d => do
              let q ← div gasRemaining (ofUsize d)
              sub gasRemaining q
        match requested with
        | some (.ok r) => pure (CostType.min r maxGasProvided)
        | _ => pure maxGasProvided
      else gasProvidedUncapped g needed requested
  | none => gasProvidedUncapped g needed requested

/-- The memory part of `mem_gas_cost`: `s * memory_gas + s * s / 512` for
`s` words. -/
def gasForMem (schedule : Schedule) (memSize : Cost) : Outcome Error Cost := do
  let s := shr memSize 5
  let a ← overflowing (overflowMul s (ofUsize schedule.memoryGas))
  Outcome.assert (decide (schedule.quadCoeffDiv = 512)) "assertion failed: `(left == right)`"
  let b ← overflowing (overflowMulShr s s 9)
  overflowing (overflowAdd a b)

/-- `mem_gas_cost(schedule, current_mem_size, mem_size)`: the price of
growing the memory, the memory gas after it, and the new size in bytes. -/
def memGasCost (g : Gasometer Cost) (schedule : Schedule) (currentMemSize : Nat)
    (memSize : Cost) : Outcome Error (Cost × Cost × Nat) := do
  let currentMemSize : Cost := ofUsize currentMemSize
  let reqMemSizeRounded := shl (shr (← overflowing (overflowAdd memSize (ofUsize 31))) 5) 5
  let (memGasCost, newMemGas) ←
    if CostType.lt currentMemSize reqMemSizeRounded then do
      let newMemGas ← gasForMem schedule reqMemSizeRounded
      let cost ← sub newMemGas g.currentMemGas
      pure (cost, newMemGas)
    else pure (ofUsize 0, g.currentMemGas)
  let size ← asUsize reqMemSizeRounded
  pure (memGasCost, newMemGas, size)

end Gasometer

/-- `mem_needed_const(mem, add)`. -/
def memNeededConst (mem : U256) (add : Nat) : Outcome Error Cost := do
  let v ← overflowing (Word.overflowingAdd mem (BitVec.ofNat 256 add))
  Outcome.ofExcept (fromU256 v)

/-- `mem_needed(offset, size)`: nothing for an empty range. -/
def memNeeded (offset size : U256) : Outcome Error Cost :=
  if size = 0 then .ok (ofUsize 0)
  else do
    let v ← overflowing (Word.overflowingAdd offset size)
    Outcome.ofExcept (fromU256 v)

/-- `add_gas_usize(value, num)`. -/
def addGasUsize (value : Cost) (num : Nat) : Cost × Bool := overflowAdd value (ofUsize num)

/-- `if c { gas = overflowing!(gas.overflow_add(extra.into())); }`. -/
def addGasIf (c : Bool) (gas : Cost) (extra : Nat) : Outcome Error Cost :=
  if c then overflowing (overflowAdd gas (ofUsize extra)) else pure gas

/-- `bits()`: the number of significant bits of a word. -/
def u256Bits (x : U256) : Nat := if x = 0 then 0 else x.toNat.log2 + 1

/-- Whether the condition `(!no_empty && !exists) || (no_empty &&
is_value_transfer && !exists_and_not_null)` holds, asking `Ext` only what
the short-circuit evaluation asks. -/
def newAccountCharged {σ : Type} (E : Ext σ) (s : σ) (schedule : Schedule) (address : Address)
    (isValueTransfer : Bool) : Outcome Error Bool :=
  if !schedule.noEmpty then do
    let e ← Outcome.ofExcept (E.exists s address)
    pure !e
  else if isValueTransfer then do
    let e ← Outcome.ofExcept (E.existsAndNotNull s address)
    pure !e
  else pure false

namespace Gasometer

variable {σ : Type}

/-- The `Request` of each instruction, the `match` of `requirements`. -/
def request (E : Ext σ) (s : σ) (op : Op) (stack : List U256) (defaultGas : Cost) :
    Outcome Error (Request Cost) :=
  let schedule := E.schedule
  match op with
  | .JUMPDEST => pure (.gas (ofUsize 1))
  | .SSTORE => do
      let address ← Stack.peek stack 0
      let newval ← Stack.peek stack 1
      let val ← Outcome.ofExcept (E.storageAt s address)
      let gas := if val = 0 && newval ≠ 0 then schedule.sstoreSetGas else schedule.sstoreResetGas
      pure (.gas (ofUsize gas))
  | .SLOAD => pure (.gas (ofUsize schedule.sloadGas))
  | .BALANCE => pure (.gas (ofUsize schedule.balanceGas))
  | .EXTCODESIZE => pure (.gas (ofUsize schedule.extcodesizeGas))
  | .SUICIDE => do
      let gas : Cost := ofUsize schedule.suicideGas
      let isValueTransfer := (← Outcome.ofExcept (E.originBalance s)) ≠ 0
      let address := u256ToAddress (← Stack.peek stack 0)
      if (← newAccountCharged E s schedule address isValueTransfer) then
        let gas ← overflowing (overflowAdd gas (ofUsize schedule.suicideToNewAccountCost))
        pure (.gas gas)
      else pure (.gas gas)
  | .MSTORE | .MLOAD => do
      pure (.gasMem defaultGas (← memNeededConst (← Stack.peek stack 0) 32))
  | .MSTORE8 => do
      pure (.gasMem defaultGas (← memNeededConst (← Stack.peek stack 0) 1))
  | .RETURN | .REVERT => do
      pure (.gasMem defaultGas (← memNeeded (← Stack.peek stack 0) (← Stack.peek stack 1)))
  | .SHA3 => do
      let w ← overflowing (addGasUsize (← Outcome.ofExcept (fromU256 (← Stack.peek stack 1))) 31)
      let words := shr w 5
      let gas ← add (ofUsize schedule.sha3Gas) (← mul (ofUsize schedule.sha3WordGas) words)
      pure (.gasMem gas (← memNeeded (← Stack.peek stack 0) (← Stack.peek stack 1)))
  | .CALLDATACOPY | .CODECOPY | .RETURNDATACOPY => do
      let mem ← memNeeded (← Stack.peek stack 0) (← Stack.peek stack 2)
      let copy ← Outcome.ofExcept (fromU256 (← Stack.peek stack 2))
      pure (.gasMemCopy defaultGas mem copy)
  | .EXTCODECOPY => do
      let mem ← memNeeded (← Stack.peek stack 1) (← Stack.peek stack 3)
      let copy ← Outcome.ofExcept (fromU256 (← Stack.peek stack 3))
      pure (.gasMemCopy (ofUsize schedule.extcodecopyBaseGas) mem copy)
  | .LOG noOfTopics => do
      let logGas := schedule.logGas + schedule.logTopicGas * noOfTopics
      let size ← Outcome.ofExcept (fromU256 (← Stack.peek stack 1))
      let dataGas ← overflowing (overflowMul size (ofUsize schedule.logDataGas))
      let gas ← overflowing (overflowAdd dataGas (ofUsize logGas))
      pure (.gasMem gas (← memNeeded (← Stack.peek stack 0) (← Stack.peek stack 1)))
  | .CALL | .CALLCODE => do
      let gas : Cost := ofUsize schedule.callGas
      let memOut ← memNeeded (← Stack.peek stack 5) (← Stack.peek stack 6)
      let memIn ← memNeeded (← Stack.peek stack 3) (← Stack.peek stack 4)
      let mem := CostType.max memOut memIn
      let address := u256ToAddress (← Stack.peek stack 1)
      let isValueTransfer := (← Stack.peek stack 2) ≠ 0
      -- `instruction == CALL && (..)` asks `Ext` only for a `CALL`
      let newAccount ←
        (if op = .CALL then newAccountCharged E s schedule address isValueTransfer else pure false)
      let gas ← addGasIf newAccount gas schedule.callNewAccountGas
      let gas ← addGasIf isValueTransfer gas schedule.callValueTransferGas
      let requested ← Stack.peek stack 0
      pure (.gasMemProvide gas mem (some requested))
  | .DELEGATECALL | .STATICCALL => do
      let gas : Cost := ofUsize schedule.callGas
      let memOut ← memNeeded (← Stack.peek stack 4) (← Stack.peek stack 5)
      let memIn ← memNeeded (← Stack.peek stack 2) (← Stack.peek stack 3)
      let requested ← Stack.peek stack 0
      pure (.gasMemProvide gas (CostType.max memOut memIn) (some requested))
  | .CREATE => do
      let gas : Cost := ofUsize schedule.createGas
      let mem ← memNeeded (← Stack.peek stack 1) (← Stack.peek stack 2)
      pure (.gasMemProvide gas mem none)
  | .EXP => do
      let expon ← Stack.peek stack 1
      let bytes := (u256Bits expon + 7) / 8
      pure (.gas (ofUsize (schedule.expGas + schedule.expByteGas * bytes)))
  | _ => pure (.gas defaultGas)

/-- `requirements(ext, instruction, info, stack, current_mem_size)`. -/
def requirements (g : Gasometer Cost) (E : Ext σ) (s : σ) (op : Op) (info : InstructionInfo)
    (stack : List U256) (currentMemSize : Nat) : Outcome Error (InstructionRequirements Cost) := do
  let schedule := E.schedule
  let tier := getTierIdx info.tier
  let defaultGas : Cost := ofUsize (← Slice.index schedule.tierStepGas tier)
  match ← request E s op stack defaultGas with
  | .gas gas => pure ⟨gas, none, g.currentMemGas, 0⟩
  | .gasMem gas memSize => do
      let (memGasCost, newMemGas, newMemSize) ← g.memGasCost schedule currentMemSize memSize
      let gas ← overflowing (overflowAdd gas memGasCost)
      pure ⟨gas, none, newMemGas, newMemSize⟩
  | .gasMemProvide gas memSize requested => do
      let (memGasCost, newMemGas, newMemSize) ← g.memGasCost schedule currentMemSize memSize
      let gas ← overflowing (overflowAdd gas memGasCost)
      let provided ← g.gasProvided schedule gas requested
      let totalGas ← overflowing (overflowAdd gas provided)
      pure ⟨totalGas, some provided, newMemGas, newMemSize⟩
  | .gasMemCopy gas memSize copy => do
      let (memGasCost, newMemGas, newMemSize) ← g.memGasCost schedule currentMemSize memSize
      let copy := shr (← overflowing (addGasUsize copy 31)) 5
      let copyGas ← mul (ofUsize schedule.copyGas) copy
      let gas ← overflowing (overflowAdd gas copyGas)
      let gas ← overflowing (overflowAdd gas memGasCost)
      pure ⟨gas, none, newMemGas, newMemSize⟩

end Gasometer

end Cita
