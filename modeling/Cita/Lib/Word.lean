import Mathlib.Data.BitVec

/-!
# Fixed-width words with overflow flags

Rust's integer types and the `uint` crate report overflow in two ways:
`overflowing_add` and friends return the wrapped result with a flag, and
the plain operators either panic (the `uint` words) or wrap (the
primitive types in a release build). This module gives the flagged
operations on `BitVec w` with their value specifications, and the
big-endian reading and writing of bytes that `U256::from(&[u8])` and
`to_big_endian` perform.

The value lemmas are all of one shape: when the flag is clear the result
is the exact sum, difference or product of the `toNat` values.
-/

namespace Cita

namespace Word

variable {w : Nat}

/-- `overflowing_add`: the wrapped sum and whether the exact sum overflowed. -/
def overflowingAdd (x y : BitVec w) : BitVec w × Bool :=
  (x + y, decide (2 ^ w ≤ x.toNat + y.toNat))

/-- `overflowing_sub`: the wrapped difference and whether it borrowed. -/
def overflowingSub (x y : BitVec w) : BitVec w × Bool :=
  (x - y, decide (x.toNat < y.toNat))

/-- `overflowing_mul`: the wrapped product and whether the exact product overflowed. -/
def overflowingMul (x y : BitVec w) : BitVec w × Bool :=
  (x * y, decide (2 ^ w ≤ x.toNat * y.toNat))

theorem overflowingAdd_toNat {x y : BitVec w} (h : (overflowingAdd x y).2 = false) :
    (overflowingAdd x y).1.toNat = x.toNat + y.toNat := by
  simp only [overflowingAdd, decide_eq_false_iff_not, not_le] at h ⊢
  rw [BitVec.toNat_add, Nat.mod_eq_of_lt h]

theorem overflowingAdd_snd {x y : BitVec w} :
    (overflowingAdd x y).2 = false ↔ x.toNat + y.toNat < 2 ^ w := by
  simp [overflowingAdd]

theorem overflowingSub_toNat {x y : BitVec w} (h : (overflowingSub x y).2 = false) :
    (overflowingSub x y).1.toNat = x.toNat - y.toNat := by
  simp only [overflowingSub, decide_eq_false_iff_not, not_lt] at h ⊢
  rw [BitVec.toNat_sub_of_le h]

theorem overflowingMul_toNat {x y : BitVec w} (h : (overflowingMul x y).2 = false) :
    (overflowingMul x y).1.toNat = x.toNat * y.toNat := by
  simp only [overflowingMul, decide_eq_false_iff_not, not_le] at h ⊢
  rw [BitVec.toNat_mul, Nat.mod_eq_of_lt h]

/-! ## Big-endian bytes -/

/-- The number whose big-endian bytes are `l`. -/
def bytesValue (l : List UInt8) : Nat :=
  l.foldl (fun acc b => acc * 256 + b.toNat) 0

/-- The `k` low bytes of `n`, most significant first. -/
def toBytes (n : Nat) : Nat → List UInt8
  | 0 => []
  | k + 1 => toBytes (n / 256) k ++ [(n % 256).toUInt8]

@[simp] theorem length_toBytes (n k : Nat) : (toBytes n k).length = k := by
  induction k generalizing n with
  | zero => rfl
  | succ k ih => simp [toBytes, ih]

theorem bytesValue_append_single (l : List UInt8) (b : UInt8) :
    bytesValue (l ++ [b]) = bytesValue l * 256 + b.toNat := by
  simp [bytesValue, List.foldl_append]

/-- Zero bytes after a big-endian number shift it up a byte each. -/
theorem bytesValue_append_zeros (l : List UInt8) (k : Nat) :
    bytesValue (l ++ List.replicate k 0) = bytesValue l * 256 ^ k := by
  induction k with
  | zero => simp
  | succ k ih =>
    rw [List.replicate_succ', ← List.append_assoc, bytesValue_append_single, ih, Nat.pow_succ]
    simp [Nat.mul_assoc]

theorem bytesValue_toBytes (n k : Nat) : bytesValue (toBytes n k) = n % 256 ^ k := by
  induction k generalizing n with
  | zero => simp [toBytes, bytesValue, Nat.mod_one]
  | succ k ih =>
      rw [toBytes, bytesValue_append_single, ih, Nat.pow_succ', Nat.mod_mul]
      simp [Nat.toUInt8]
      omega

theorem bytesValue_lt (l : List UInt8) : bytesValue l < 256 ^ l.length := by
  induction l using List.reverseRecOn with
  | nil => simp [bytesValue]
  | append_singleton l b ih =>
    rw [bytesValue_append_single, List.length_append, List.length_singleton, Nat.pow_succ]
    have hb : b.toNat < 256 := b.toNat_lt
    have hle : (bytesValue l + 1) * 256 ≤ 256 ^ l.length * 256 := Nat.mul_le_mul_right 256 ih
    omega

/-- A word of `w = 8k` bits written as `k` bytes reads back. -/
theorem ofNat_toNat_mod {w k : Nat} (x : BitVec w) (hk : w = 8 * k) :
    BitVec.ofNat w (x.toNat % 256 ^ k) = x := by
  have hpow : 256 ^ k = 2 ^ w := by rw [hk, pow_mul]; rfl
  rw [hpow, Nat.mod_eq_of_lt x.isLt, BitVec.ofNat_toNat, BitVec.setWidth_eq]

/-- A list of bytes is the big-endian bytes of its value, at its own length. -/
theorem toBytes_bytesValue (l : List UInt8) : toBytes (bytesValue l) l.length = l := by
  induction l using List.reverseRecOn with
  | nil => rfl
  | append_singleton l b ih =>
    have hb : b.toNat < 256 := b.toNat_lt
    have hdiv : (bytesValue l * 256 + b.toNat) / 256 = bytesValue l := by omega
    have hmod : (bytesValue l * 256 + b.toNat) % 256 = b.toNat := by omega
    rw [bytesValue_append_single, List.length_append, List.length_singleton, toBytes, hdiv, hmod, ih]
    simp

/-- The low half of a 64-bit word. -/
theorem land_low_mask (x : Nat) : x &&& 0xffffffff = x % 2 ^ 32 :=
  Nat.and_two_pow_sub_one_eq_mod x 32

/-- The high half of a 64-bit word whose halves are `a` and `b`. -/
theorem land_high_mask {a b : Nat} (ha : a < 2 ^ 32) (hb : b < 2 ^ 32) :
    (2 ^ 32 * a + b) &&& 0xffffffff00000000 = 2 ^ 32 * a := by
  have hmask : (0xffffffff00000000 : Nat) = 2 ^ 32 * (2 ^ 32 - 1) + 0 := by decide
  apply Nat.eq_of_testBit_eq
  intro i
  rw [hmask, Nat.testBit_and, Nat.testBit_two_pow_mul_add _ hb, Nat.testBit_two_pow_mul_add _ (by decide),
    ← Nat.add_zero (2 ^ 32 * a), Nat.testBit_two_pow_mul_add _ (by decide)]
  split
  · simp
  · rw [Nat.testBit_two_pow_sub_one]
    by_cases hi : i - 32 < 32
    · simp [hi]
    · simp only [hi, decide_false, Bool.and_false]
      exact (Nat.testBit_lt_two_pow (lt_of_lt_of_le ha (Nat.pow_le_pow_right (by decide) (by omega)))).symm
end Word

end Cita
