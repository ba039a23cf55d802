import Cita.Evm.Types

/-!
# `CostType`: the arithmetic of gas

`Interpreter<Cost>` counts gas in `Cost`, which is `U256` or, when the
gas fits, `usize` (`evm.rs`). The two implementations differ where the
proofs have to look:

- `U256`'s `+`, `-` and `*` panic on overflow (the `uint` crate), its
  `as_usize` panics above `2^64`, and `from_u256` always succeeds;
- `usize`'s operators wrap (a release build has no overflow checks),
  `as_usize` is the identity, and `from_u256` fails with `OutOfGas` for
  a value that does not fit;
- both flag overflow in `overflow_mul_shr` when the full product does not
  fit the type, whatever the shift.

`LawfulCostType` states what the gas accounting needs of either, on the
number `value x` a cost stands for; `CostType.u256Lawful` and
`CostType.usizeLawful` prove it for the two implementations, and the
gas proofs are written once over any lawful cost type.
-/

namespace Cita

/-- `usize` on the 64-bit targets the node runs on. -/
abbrev Usize := BitVec 64

/-- The operations of the `CostType` trait, with Rust's operators among them. -/
class CostType (α : Type) where
  /-- `From<usize>` -/
  ofUsize : Nat → α
  asU256 : α → U256
  fromU256 : U256 → Except Error α
  /-- "Convert to usize (may panic)" -/
  asUsize : α → Outcome Error Nat
  add : α → α → Outcome Error α
  sub : α → α → Outcome Error α
  mul : α → α → Outcome Error α
  div : α → α → Outcome Error α
  shr : α → Nat → α
  shl : α → Nat → α
  le : α → α → Bool
  overflowAdd : α → α → α × Bool
  overflowMul : α → α → α × Bool
  /-- `(self * other) >> shr` with an overflow flag -/
  overflowMulShr : α → α → Nat → α × Bool

namespace CostType

instance u256 : CostType U256 where
  ofUsize n := BitVec.ofNat 256 n
  asU256 x := x
  fromU256 v := .ok v
  asUsize x := if x.toNat < 2 ^ 64 then .ok x.toNat
    else .panic "Integer overflow when casting U256"
  add := uintAdd
  sub := uintSub
  mul := uintMul
  div x y := if y = 0 then .panic "attempt to divide by zero" else .ok (x / y)
  shr x k := x >>> k
  shl x k := x <<< k
  le x y := decide (x ≤ y)
  overflowAdd := Word.overflowingAdd
  overflowMul := Word.overflowingMul
  -- `full_mul` to a `U512`, overflow when its upper half is not zero, then
  -- the low half of the product shifted right
  overflowMulShr x y k :=
    (BitVec.ofNat 256 (x.toNat * y.toNat / 2 ^ k), decide (2 ^ 256 ≤ x.toNat * y.toNat))

instance usize : CostType Usize where
  ofUsize n := BitVec.ofNat 64 n
  asU256 x := x.setWidth 256
  -- `let res = val.low_u64() as usize; if U256::from(res) != val { Err(OutOfGas) }`
  fromU256 v := if v.toNat % 2 ^ 64 ≠ v.toNat then .error .outOfGas
    else .ok (BitVec.ofNat 64 v.toNat)
  asUsize x := .ok x.toNat
  add x y := .ok (x + y)
  sub x y := .ok (x - y)
  mul x y := .ok (x * y)
  div x y := if y = 0 then .panic "attempt to divide by zero" else .ok (x / y)
  -- a release build masks the shift amount
  shr x k := x >>> (k % 64)
  shl x k := x <<< (k % 64)
  le x y := decide (x ≤ y)
  overflowAdd := Word.overflowingAdd
  overflowMul := Word.overflowingMul
  -- the product in a `U128`, overflow when its upper word is not zero
  overflowMulShr x y k :=
    (BitVec.ofNat 64 (x.toNat * y.toNat / 2 ^ k), decide (2 ^ 64 ≤ x.toNat * y.toNat))

end CostType

open CostType

/-- The number a cost stands for. -/
def CostType.value {α : Type} [CostType α] (x : α) : Nat := (asU256 x).toNat

/-- What the gas accounting needs of a cost type, stated on `value`; `width`
is the number of bits of the type. -/
class LawfulCostType (α : Type) [CostType α] where
  width : Nat
  width_ge : 64 ≤ width
  value_lt (x : α) : value x < 2 ^ width
  value_ofUsize {n : Nat} : n < 2 ^ 64 → value (ofUsize n : α) = n
  value_ofUsize_le (n : Nat) : value (ofUsize n : α) ≤ n
  value_fromU256 {v : U256} {x : α} : fromU256 v = .ok x → value x = v.toNat
  fromU256_of_lt {v : U256} : v.toNat < 2 ^ width → ∃ x : α, fromU256 v = .ok x
  le_iff (x y : α) : le x y = decide (value x ≤ value y)
  add_ok {x y : α} : value x + value y < 2 ^ width → ∃ z, add x y = .ok z ∧ value z = value x + value y
  sub_ok {x y : α} : value y ≤ value x → ∃ z, sub x y = .ok z ∧ value z = value x - value y
  /-- a sum that returns is never more than the sum of the values (it may wrap) -/
  add_le {x y z : α} : add x y = .ok z → value z ≤ value x + value y
  overflowAdd_ok {x y : α} :
    (overflowAdd x y).2 = false → value (overflowAdd x y).1 = value x + value y

namespace CostType

theorem value_u256 (x : U256) : value x = x.toNat := rfl

theorem value_usize (x : Usize) : value x = x.toNat := by
  have hx : x.toNat < 2 ^ 256 :=
    Nat.lt_of_lt_of_le x.isLt (Nat.pow_le_pow_right (by omega) (by omega))
  simp only [value, asU256, BitVec.toNat_setWidth]
  exact Nat.mod_eq_of_lt hx

theorem uintAdd_ok {x y : U256} (h : (Word.overflowingAdd x y).2 = false) :
    (uintAdd x y : Outcome Error U256) = .ok (Word.overflowingAdd x y).1 := by
  simp [uintAdd, h]

theorem uintSub_ok {x y : U256} (h : (Word.overflowingSub x y).2 = false) :
    (uintSub x y : Outcome Error U256) = .ok (Word.overflowingSub x y).1 := by
  simp [uintSub, h]

instance u256Lawful : LawfulCostType U256 where
  width := 256
  width_ge := by omega
  value_lt x := x.isLt
  value_ofUsize h := by
    simp only [value_u256, ofUsize, BitVec.toNat_ofNat]
    exact Nat.mod_eq_of_lt (by omega)
  value_fromU256 h := by
    simp only [fromU256, Except.ok.injEq] at h
    subst h; rfl
  value_ofUsize_le n := by
    simp only [value_u256, ofUsize, BitVec.toNat_ofNat]
    exact Nat.mod_le _ _
  fromU256_of_lt _ := ⟨_, rfl⟩
  le_iff x y := by
    simp only [le, value_u256]
    exact decide_eq_decide.mpr BitVec.le_def
  add_ok {x y} h := by
    have hf : (Word.overflowingAdd x y).2 = false := Word.overflowingAdd_snd.mpr h
    exact ⟨_, uintAdd_ok hf, Word.overflowingAdd_toNat hf⟩
  add_le {x y z} h := by
    simp only [add, uintAdd] at h
    split at h
    · cases h
    · rename_i hf
      cases h
      exact (Word.overflowingAdd_toNat (Bool.of_not_eq_true hf)).le
  sub_ok {x y} h := by
    have hf : (Word.overflowingSub x y).2 = false := by
      simp [Word.overflowingSub, value_u256] at h ⊢; omega
    exact ⟨_, uintSub_ok hf, Word.overflowingSub_toNat hf⟩
  overflowAdd_ok h := Word.overflowingAdd_toNat h

@[simp] theorem value_ofUsize_zero {α : Type} [CostType α] [LawfulCostType α] :
    value (ofUsize 0 : α) = 0 :=
  Nat.le_zero.mp (LawfulCostType.value_ofUsize_le 0)

instance usizeLawful : LawfulCostType Usize where
  width := 64
  width_ge := le_refl _
  value_lt x := by rw [value_usize]; exact x.isLt
  value_ofUsize h := by
    simp only [value_usize, ofUsize, BitVec.toNat_ofNat]
    exact Nat.mod_eq_of_lt h
  value_fromU256 {v x} h := by
    simp only [fromU256] at h
    split at h
    · cases h
    · rename_i hfit
      simp only [Except.ok.injEq] at h
      subst h
      rw [value_usize, BitVec.toNat_ofNat]
      simpa using hfit
  value_ofUsize_le n := by
    simp only [value_usize, ofUsize, BitVec.toNat_ofNat]
    exact Nat.mod_le _ _
  fromU256_of_lt {v} h :=
    ⟨BitVec.ofNat 64 v.toNat, by simpa [fromU256] using h⟩
  le_iff x y := by
    simp only [le, value_usize]
    exact decide_eq_decide.mpr BitVec.le_def
  add_ok {x y} h := by
    refine ⟨_, rfl, ?_⟩
    rw [value_usize, value_usize, value_usize] at *
    rw [BitVec.toNat_add, Nat.mod_eq_of_lt h]
  sub_ok {x y} h := by
    refine ⟨_, rfl, ?_⟩
    rw [value_usize, value_usize, value_usize] at *
    rw [BitVec.toNat_sub_of_le (by simpa [BitVec.le_def] using h)]
  add_le {x y z} h := by
    cases h
    rw [value_usize, value_usize, value_usize, BitVec.toNat_add]
    exact Nat.mod_le _ _
  overflowAdd_ok {x y} h := by
    simp only [value_usize]
    exact Word.overflowingAdd_toNat h

end CostType

end Cita
