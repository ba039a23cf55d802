import Cita.Evm.StackInstructions

/-!
# The word arithmetic of `exec_stack_instruction`

The arms of `exec_stack_instruction` compute on `U256` the way the crate
offers: signed operations go through `get_and_reset_sign` and `set_sign`,
`DIV` shifts for the powers of two it singles out, `SAR` and `SIGNEXTEND`
build masks, `ADDMOD` and `MULMOD` upcast to `U512`, and `EXP` squares and
multiplies. Each is compared here with its meaning on the numbers the words
stand for: `BitVec.sdiv` and `BitVec.srem` (division truncated toward zero
and its remainder), `BitVec.sshiftRight`, `BitVec.signExtend`, and `Nat`
division, remainder and power.

The special case of the `SDIV` arm, a magnitude equal to `!0`, never
applies: a magnitude is at most `2^255` (`getAndResetSign_fst_ne_allOnes`).
The case it was meant for, `-2^255 / -1`, is handled by the general path,
which gives `-2^255` as two's-complement division does.
-/

namespace Cita

/-! ## Signs and magnitudes -/

@[simp] theorem setSign_false (v : U256) : setSign v false = v := rfl

@[simp] theorem setSign_true (v : U256) : setSign v true = -v := by
  rw [setSign, if_pos rfl, BitVec.neg_eq_not_add, ← BitVec.allOnes_xor, ← BitVec.not_zero]
  rfl

theorem getAndResetSign_eq (v : U256) : getAndResetSign v = (if v.msb then -v else v, v.msb) := by
  cases h : v.msb
  · simp [getAndResetSign, h]
  · simp [getAndResetSign, h]

theorem msb_iff_le_toNat (v : U256) : v.msb = true ↔ 2 ^ 255 ≤ v.toNat := by
  rw [BitVec.msb_eq_decide]
  simp

/-- A magnitude is at most `2^255`, never all ones. -/
theorem getAndResetSign_fst_ne_allOnes (v : U256) : (getAndResetSign v).1 ≠ ~~~0 := by
  rw [getAndResetSign_eq]
  intro h
  have hn := congrArg BitVec.toNat h
  have hlt := v.isLt
  cases hm : v.msb
  · have := (msb_iff_le_toNat v).not.mp (by simp [hm])
    simp [hm] at hn
    omega
  · have := (msb_iff_le_toNat v).mp hm
    simp [hm, BitVec.toNat_neg] at hn
    omega

/-! ## `SDIV`, `SMOD`, `SLT`, `SGT` -/

theorem sdivWord_eq (a b : U256) : sdivWord a b = a.sdiv b := by
  have hb := getAndResetSign_fst_ne_allOnes b
  unfold sdivWord
  rw [getAndResetSign_eq, getAndResetSign_eq] at *
  dsimp only at hb ⊢
  -- the source's special case never applies: no magnitude is all ones
  simp only [decide_eq_false hb, Bool.and_false, Bool.false_eq_true, if_false]
  rw [BitVec.sdiv_eq]
  cases ha : a.msb <;> cases hbm : b.msb <;>
    simp only [if_true, if_false, Bool.false_eq_true, Bool.xor_false, Bool.xor_true, Bool.not_false,
      Bool.not_true, setSign_true, setSign_false] <;>
    split <;> simp_all [BitVec.udiv_zero]

theorem sdivWord_eq_ofInt (a b : U256) :
    sdivWord a b = BitVec.ofInt 256 (a.toInt.tdiv b.toInt) := by
  rw [sdivWord_eq]
  apply BitVec.eq_of_toInt_eq
  rw [BitVec.toInt_sdiv, BitVec.toInt_ofInt]

/-- `-2^255 / -1` wraps back to `-2^255`. -/
example : sdivWord (BitVec.intMin 256) (-1) = BitVec.intMin 256 := by decide

theorem smodWord_eq (a b : U256) : smodWord a b = if b = 0 then 0 else a.srem b := by
  unfold smodWord
  rw [getAndResetSign_eq, getAndResetSign_eq]
  dsimp only
  rw [BitVec.srem_eq]
  cases ha : a.msb <;> cases hbm : b.msb <;>
    simp only [if_true, if_false, Bool.false_eq_true, setSign_true, setSign_false, ne_eq] <;>
    split <;> simp_all

theorem smodWord_eq_ofInt (a b : U256) :
    smodWord a b = if b = 0 then 0 else BitVec.ofInt 256 (a.toInt.tmod b.toInt) := by
  rw [smodWord_eq, ← BitVec.toInt_srem, BitVec.ofInt_toInt]

theorem sltWord_eq (a b : U256) : sltWord a b = decide (a.toInt < b.toInt) := by
  unfold sltWord
  rw [getAndResetSign_eq, getAndResetSign_eq]
  dsimp only
  have ha := a.isLt
  have hb := b.isLt
  have hsa := msb_iff_le_toNat a
  have hsb := msb_iff_le_toNat b
  rw [BitVec.toInt_eq_msb_cond a, BitVec.toInt_eq_msb_cond b]
  -- one case for each pair of signs; in each the magnitudes compare as numbers
  cases hma : a.msb <;> cases hmb : b.msb <;>
    simp only [if_true, if_false, Bool.false_eq_true, BitVec.lt_def, BitVec.toNat_neg] <;>
    simp only [hma, hmb, Bool.false_eq_true, false_iff, true_iff, not_le] at hsa hsb <;>
    simp only [Bool.or_false, Bool.false_or, Bool.and_false, Bool.not_true, Bool.not_false,
      Bool.and_true, Bool.or_true] <;>
    simp only [decide_eq_decide, Bool.false_eq, Bool.true_eq, decide_eq_false_iff_not,
      decide_eq_true_eq, not_lt] <;>
    omega

theorem sgtWord_eq (a b : U256) : sgtWord a b = decide (b.toInt < a.toInt) := by
  rw [← sltWord_eq]
  unfold sgtWord sltWord
  simp only [Bool.or_comm, Bool.and_comm]

/-! ## `SAR` -/

theorem getLsbD_and_hibit (v : U256) (i : Nat) :
    (v &&& ((1 <<< 255 : Nat) : U256)).getLsbD i = (decide (i = 255) && v.msb) := by
  rw [BitVec.getLsbD_and, BitVec.natCast_eq_ofNat, BitVec.getLsbD_ofNat, Nat.one_shiftLeft,
    Nat.testBit_two_pow, BitVec.msb_eq_getLsbD_last]
  by_cases h : i = 255
  · subst h
    simp
  · simp [h, Ne.symm h]

/-- `value & CONST_HIBIT != 0` tests the sign bit. -/
theorem and_hibit_ne_zero_iff (v : U256) : v &&& ((1 <<< 255 : Nat) : U256) ≠ 0 ↔ v.msb = true := by
  constructor
  · intro h
    by_contra hm
    apply h
    apply BitVec.eq_of_getLsbD_eq
    intro i _
    rw [getLsbD_and_hibit, Bool.eq_false_iff.mpr hm, Bool.and_false]
    simp
  · intro hm h
    have := congrArg (BitVec.getLsbD · 255) h
    simp only [getLsbD_and_hibit, hm] at this
    simp at this

theorem sarWord_eq (shift value : U256) : sarWord shift value = value.sshiftRight shift.toNat := by
  unfold sarWord
  simp only [and_hibit_ne_zero_iff]
  apply BitVec.eq_of_getLsbD_eq
  intro i hi
  have hi' : ¬256 ≤ i := by omega
  have hzero : ∀ j, (0 : U256).getLsbD j = false := fun j => BitVec.getLsbD_zero
  rw [BitVec.getLsbD_sshiftRight]
  split
  · -- from 256 on every bit is the sign
    rename_i hs
    have hs' : 256 ≤ shift.toNat := by
      rw [ge_iff_le, BitVec.le_def] at hs
      simpa using hs
    have hout : ¬shift.toNat + i < 256 := by omega
    cases value.msb <;>
      simp only [hout, hi, hi', hzero, if_true, if_false, Bool.false_eq_true, BitVec.getLsbD_not,
        decide_true, decide_false, Bool.true_and, Bool.not_false]
  · -- below 256: the value shifted down, with the sign in the top `shift` bits
    rename_i hs
    have hs' : shift.toNat < 256 := by
      rw [ge_iff_le, BitVec.le_def] at hs
      simpa using hs
    have hmask : ∀ j, j < 256 → ((~~~0 : U256) <<< (256 - shift.toNat)).getLsbD j =
        !decide (j < 256 - shift.toNat) := fun j hj => by
      have hj' : j - (256 - shift.toNat) < 256 := by omega
      simp only [BitVec.getLsbD_shiftLeft, BitVec.getLsbD_not, hzero, hj, hj', decide_true,
        Bool.not_false, Bool.true_and, Bool.and_true]
    by_cases hin : shift.toNat + i < 256
    · have hlow : i < 256 - shift.toNat := by omega
      cases value.msb <;>
        simp only [hin, hi', hlow, hmask i hi, if_true, if_false, Bool.false_eq_true,
          BitVec.getLsbD_or, BitVec.getLsbD_ushiftRight, decide_true, decide_false, Bool.not_true,
          Bool.not_false, Bool.true_and, Bool.or_false]
    · have hhigh : ¬i < 256 - shift.toNat := by omega
      have hgone : value.getLsbD (shift.toNat + i) = false := BitVec.getLsbD_of_ge _ _ (by omega)
      cases value.msb <;>
        simp only [hin, hi', hhigh, hgone, hmask i hi, if_true, if_false, Bool.false_eq_true,
          BitVec.getLsbD_or, BitVec.getLsbD_ushiftRight, decide_false, Bool.not_false,
          Bool.true_and, Bool.false_or]

/-! ## `SIGNEXTEND` and `BYTE` -/

/-- The mask `(1 << p) - 1` of `SIGNEXTEND`: the bits below `p`. -/
theorem getLsbD_lowMask {p : Nat} (hp : p < 256) (j : Nat) :
    (((1 <<< p : Nat) : U256) - 1).getLsbD j = decide (j < p) := by
  have hpos : 1 ≤ 2 ^ p := Nat.one_le_two_pow
  have hlt : 2 ^ p < 2 ^ 256 := Nat.pow_lt_pow_right (by decide) hp
  have hval : (((1 <<< p : Nat) : U256) - 1).toNat = 2 ^ p - 1 := by
    rw [BitVec.toNat_sub, BitVec.natCast_eq_ofNat, BitVec.toNat_ofNat, Nat.one_shiftLeft,
      Nat.mod_eq_of_lt hlt, show BitVec.toNat (1 : U256) = 1 from rfl]
    omega
  rw [← BitVec.testBit_toNat, hval, Nat.testBit_two_pow_sub_one]

theorem signextendWord_eq {bit : U256} (hbit : bit.toNat < 32) (number : U256) :
    signextendWord bit number = (number.setWidth (8 * bit.toNat + 8)).signExtend 256 := by
  have hlow : lowU64 bit = bit.toNat := Nat.mod_eq_of_lt (by omega)
  unfold signextendWord
  simp only [hlow]
  apply BitVec.eq_of_getLsbD_eq
  intro j hj
  rw [BitVec.getLsbD_signExtend, show 8 * bit.toNat + 8 = bit.toNat * 8 + 7 + 1 by omega,
    BitVec.msb_setWidth'', BitVec.getLsbD_setWidth]
  have hmask := getLsbD_lowMask (p := bit.toNat * 8 + 7) (by omega)
  have hj' : decide (j < 256) = true := decide_eq_true hj
  cases hsign : number.getLsbD (bit.toNat * 8 + 7) <;>
    simp only [if_true, if_false, Bool.false_eq_true, BitVec.getLsbD_or, BitVec.getLsbD_and,
      BitVec.getLsbD_not, hmask, hj', Bool.true_and]
  -- below the sign bit the number is kept; at and above it the sign is copied
  all_goals
    rcases Nat.lt_trichotomy j (bit.toNat * 8 + 7) with hlt | rfl | hgt
    · simp [hlt, Nat.lt_succ_of_lt hlt]
    · simp [hsign]
    · simp [show ¬j < bit.toNat * 8 + 7 by omega, show ¬j < bit.toNat * 8 + 7 + 1 by omega]

theorem toNat_byteWord (word val : U256) :
    (byteWord word val).toNat =
      if word.toNat < 32 then val.toNat / 256 ^ (31 - word.toNat) % 256 else 0 := by
  unfold byteWord
  by_cases h : word.toNat < 32
  · have hw : word < 32 := by
      rw [BitVec.lt_def]
      simpa using h
    have hlow : lowU64 word = word.toNat := Nat.mod_eq_of_lt (by omega)
    rw [if_pos hw, if_pos h, hlow, BitVec.toNat_and, BitVec.toNat_ushiftRight,
      show BitVec.toNat (0xff : U256) = 2 ^ 8 - 1 from rfl, Nat.and_two_pow_sub_one_eq_mod,
      Nat.shiftRight_eq_div_pow, Nat.pow_mul]
  · have hw : ¬word < 32 := by
      rw [BitVec.lt_def]
      simpa using h
    rw [if_neg hw, if_neg h]
    rfl

/-! ## `DIV` -/

theorem toNat_two_pow {k : Nat} (hk : k < 256) : ((2 : U256) ^ k).toNat = 2 ^ k := by
  induction k with
  | zero => rfl
  | succ k ih =>
    rw [BitVec.pow_succ, BitVec.toNat_mul, ih (by omega), show BitVec.toNat (2 : U256) = 2 from rfl,
      ← Nat.pow_succ, Nat.mod_eq_of_lt (Nat.pow_lt_pow_right (by decide) hk)]

theorem ushiftRight_eq_udiv {a b : U256} {k : Nat} (hb : b.toNat = 2 ^ k) : a >>> k = a / b := by
  apply BitVec.eq_of_toNat_eq
  rw [BitVec.toNat_ushiftRight, BitVec.toNat_udiv, hb, Nat.shiftRight_eq_div_pow]

/-- One arm of the `DIV` match: a divisor `c = 2^k` is a shift by `k`. -/
theorem shift_or_udiv {a b c rest : U256} {k : Nat} (hc : c.toNat = 2 ^ k) (hrest : rest = a / b) :
    (if b = c then a >>> k else rest) = a / b := by
  by_cases h : b = c
  · rw [if_pos h, h]
    exact ushiftRight_eq_udiv hc
  · rw [if_neg h]
    exact hrest

theorem divWord_eq (a b : U256) : divWord a b = a / b := by
  unfold divWord
  by_cases h0 : b = 0
  · rw [if_pos h0, h0]
    exact BitVec.udiv_zero.symm
  by_cases h1 : b = 1
  · rw [if_neg h0, if_pos h1, h1]
    exact BitVec.udiv_one.symm
  rw [if_neg h0, if_neg h1]
  refine shift_or_udiv (k := 1) rfl ?_
  refine shift_or_udiv (toNat_two_pow (by decide)) ?_
  refine shift_or_udiv (toNat_two_pow (by decide)) ?_
  refine shift_or_udiv (toNat_two_pow (by decide)) ?_
  refine shift_or_udiv (toNat_two_pow (by decide)) ?_
  refine shift_or_udiv (toNat_two_pow (by decide)) ?_
  refine shift_or_udiv (toNat_two_pow (by decide)) ?_
  refine shift_or_udiv (toNat_two_pow (by decide)) ?_
  exact shift_or_udiv (toNat_two_pow (by decide)) rfl

/-! ## `EXP`, `ADDMOD`, `MULMOD` -/

/-- Square and multiply over the low `k` bits of the exponent. -/
theorem wrappingPow_eq (base : U256) (k e : Nat) : wrappingPow base k e = base ^ (e % 2 ^ k) := by
  induction k generalizing base e with
  | zero => rw [wrappingPow, Nat.pow_zero, Nat.mod_one, pow_zero]
  | succ k ih =>
    have hsplit : e % 2 ^ (k + 1) = e % 2 + 2 * (e / 2 % 2 ^ k) := by
      rw [Nat.pow_succ', Nat.mod_mul]
    rw [wrappingPow, ih, hsplit, pow_add, pow_mul, sq]
    rcases Nat.mod_two_eq_zero_or_one e with h | h
    · rw [if_neg (by omega), h, pow_zero, one_mul]
    · rw [if_pos h, h, pow_one]

theorem ofNat_toNat_pow (x : U256) (n : Nat) : BitVec.ofNat 256 (x.toNat ^ n) = x ^ n := by
  induction n with
  | zero => rfl
  | succ n ih =>
    apply BitVec.eq_of_toNat_eq
    rw [BitVec.toNat_ofNat, BitVec.pow_succ, BitVec.toNat_mul, ← ih, BitVec.toNat_ofNat,
      Nat.pow_succ, Nat.mod_mul_mod]

theorem u256FromU512_of_lt {x : U512} (h : x.toNat < 2 ^ 256) :
    (u256FromU512 x : Outcome Error U256) = .ok (BitVec.ofNat 256 x.toNat) := by
  rw [u256FromU512, if_pos h]
  rfl

/-- The remainder by a nonzero word fits back in a word. -/
theorem u256FromU512_umod {x : U512} {c : U256} (hc : c ≠ 0) :
    (u256FromU512 (x % c.setWidth 512) : Outcome Error U256) =
      .ok (BitVec.ofNat 256 (x.toNat % c.toNat)) := by
  have hpos : 0 < c.toNat := by
    rcases Nat.eq_zero_or_pos c.toNat with h | h
    · exact absurd (BitVec.eq_of_toNat_eq h) hc
    · exact h
  have hval : (x % c.setWidth 512).toNat = x.toNat % c.toNat := by
    rw [BitVec.toNat_umod, BitVec.toNat_setWidth_of_le (by decide)]
  rw [u256FromU512_of_lt (by rw [hval]; exact lt_trans (Nat.mod_lt _ hpos) c.isLt), hval]

theorem toNat_add_setWidth (a b : U256) :
    (a.setWidth 512 + b.setWidth 512).toNat = a.toNat + b.toNat := by
  have ha := a.isLt
  have hb := b.isLt
  rw [BitVec.toNat_add, BitVec.toNat_setWidth_of_le (by decide),
    BitVec.toNat_setWidth_of_le (by decide)]
  exact Nat.mod_eq_of_lt (by omega)

theorem toNat_mul_setWidth (a b : U256) :
    (a.setWidth 512 * b.setWidth 512).toNat = a.toNat * b.toNat := by
  rw [BitVec.toNat_mul, BitVec.toNat_setWidth_of_le (by decide),
    BitVec.toNat_setWidth_of_le (by decide)]
  apply Nat.mod_eq_of_lt
  calc a.toNat * b.toNat < 2 ^ 256 * 2 ^ 256 := Nat.mul_lt_mul'' a.isLt b.isLt
    _ = 2 ^ (256 + 256) := (Nat.pow_add 2 256 256).symm
    _ ≤ _ := Nat.pow_le_pow_right (by decide) (by decide)

/-! ## The arms on a stack -/

section Run

variable {σ : Type}

open Exec

/-- The arms that pop two words and push a function of them. -/
theorem run_pop_pop_push (g : U256 → U256 → U256) (f : Frame σ) (a b : U256) (s : List U256) :
    (do let a ← pop; let b ← pop; push (g a b) : Exec σ Unit).run { f with stack := a :: b :: s } =
      .ok ((), { f with stack := g a b :: s }) := rfl

/-- `ADDMOD` and `MULMOD`: the operation on the `U512` upcasts, reduced by the third word. -/
theorem run_modArm (instruction : UInt8) (op : Op) (g : U512 → U512 → U512) (n : U256 → U256 → Nat)
    (harm : execStackInstruction instruction op = (do
      let a ← pop
      let b ← pop
      let c ← pop
      if c ≠ 0 then
        let x := g (a.setWidth 512) (b.setWidth 512) % c.setWidth 512
        push (← lift (u256FromU512 x))
      else push 0 : Exec σ Unit))
    (hn : ∀ a b, (g (a.setWidth 512) (b.setWidth 512)).toNat = n a b)
    (f : Frame σ) (a b c : U256) (s : List U256) :
    (execStackInstruction instruction op : Exec σ Unit).run { f with stack := a :: b :: c :: s } =
      .ok ((), { f with
        stack := BitVec.ofNat 256 (if c.toNat = 0 then 0 else n a b % c.toNat) :: s }) := by
  rw [harm]
  by_cases hc : c = 0
  · subst hc
    rfl
  · have hct : c.toNat ≠ 0 := fun h => hc (BitVec.eq_of_toNat_eq h)
    simp only [StateT.run_bind, run_pop_cons, Outcome.ok_bind, ne_eq, hc, not_false_eq_true, if_true,
      StateT.run_lift, run_push, u256FromU512_umod hc, hn, if_neg hct]
    rfl

theorem run_SIGNEXTEND (instruction : UInt8) (f : Frame σ) (a b : U256) (s : List U256) :
    (execStackInstruction instruction .SIGNEXTEND : Exec σ Unit).run
        { f with stack := a :: b :: s } =
      .ok ((), { f with
        stack := (if a.toNat < 32 then (b.setWidth (8 * a.toNat + 8)).signExtend 256 else b) :: s }) := by
  by_cases h : a.toNat < 32
  · have ha : a < 32 := by
      rw [BitVec.lt_def]
      simpa using h
    simp only [execStackInstruction, StateT.run_bind, run_pop_cons, Outcome.ok_bind, ha, if_true,
      run_push, if_pos h, signextendWord_eq h]
  · have ha : ¬a < 32 := by
      rw [BitVec.lt_def]
      simpa using h
    simp only [execStackInstruction, StateT.run_bind, run_pop_cons, Outcome.ok_bind, ha, if_false,
      if_neg h]
    rfl

/-- Each arithmetic arm of `exec_stack_instruction`, on a stack with its
operands on top, pops them and pushes the value the operation has on the
numbers the words stand for. -/
theorem stackArithmetic_reference (instruction : UInt8) (f : Frame σ) (a b c : U256)
    (s : List U256) :
    let run := fun (op : Op) (stack : List U256) =>
      (execStackInstruction instruction op : Exec σ Unit).run { f with stack := stack }
    let pushes := fun (x : U256) =>
      (.ok ((), { f with stack := x :: s }) : Outcome Error (Unit × Frame σ))
    run .DIV (a :: b :: s) = pushes (BitVec.ofNat 256 (a.toNat / b.toNat)) ∧
    run .SDIV (a :: b :: s) = pushes (BitVec.ofInt 256 (a.toInt.tdiv b.toInt)) ∧
    run .SMOD (a :: b :: s) = pushes (if b = 0 then 0 else BitVec.ofInt 256 (a.toInt.tmod b.toInt)) ∧
    run .SLT (a :: b :: s) = pushes (boolToU256 (decide (a.toInt < b.toInt))) ∧
    run .SGT (a :: b :: s) = pushes (boolToU256 (decide (b.toInt < a.toInt))) ∧
    run .SAR (a :: b :: s) = pushes (BitVec.ofInt 256 (b.toInt >>> a.toNat)) ∧
    run .SIGNEXTEND (a :: b :: s) =
      pushes (if a.toNat < 32 then (b.setWidth (8 * a.toNat + 8)).signExtend 256 else b) ∧
    run .BYTE (a :: b :: s) =
      pushes (BitVec.ofNat 256 (if a.toNat < 32 then b.toNat / 256 ^ (31 - a.toNat) % 256 else 0)) ∧
    run .ADDMOD (a :: b :: c :: s) =
      pushes (BitVec.ofNat 256 (if c.toNat = 0 then 0 else (a.toNat + b.toNat) % c.toNat)) ∧
    run .MULMOD (a :: b :: c :: s) =
      pushes (BitVec.ofNat 256 (if c.toNat = 0 then 0 else a.toNat * b.toNat % c.toNat)) ∧
    run .EXP (a :: b :: s) = pushes (BitVec.ofNat 256 (a.toNat ^ b.toNat)) := by
  intro run pushes
  refine ⟨?_, ?_, ?_, ?_, ?_, ?_, run_SIGNEXTEND instruction f a b s, ?_, ?_, ?_, ?_⟩
  · rw [show BitVec.ofNat 256 (a.toNat / b.toNat) = divWord a b by
      rw [divWord_eq, ← BitVec.toNat_udiv, BitVec.ofNat_toNat, BitVec.setWidth_eq]]
    exact run_pop_pop_push divWord f a b s
  · rw [← sdivWord_eq_ofInt]
    exact run_pop_pop_push sdivWord f a b s
  · rw [← smodWord_eq_ofInt]
    exact run_pop_pop_push smodWord f a b s
  · rw [← sltWord_eq]
    exact run_pop_pop_push (fun a b => boolToU256 (sltWord a b)) f a b s
  · rw [← sgtWord_eq]
    exact run_pop_pop_push (fun a b => boolToU256 (sgtWord a b)) f a b s
  · rw [← BitVec.sshiftRight_eq, ← sarWord_eq]
    exact run_pop_pop_push sarWord f a b s
  · rw [← toNat_byteWord, BitVec.ofNat_toNat, BitVec.setWidth_eq]
    exact run_pop_pop_push byteWord f a b s
  · exact run_modArm instruction .ADDMOD (· + ·) (fun a b => a.toNat + b.toNat) rfl
      toNat_add_setWidth f a b c s
  · exact run_modArm instruction .MULMOD (· * ·) (fun a b => a.toNat * b.toNat) rfl
      toNat_mul_setWidth f a b c s
  · have hexp : b.toNat % 2 ^ 256 = b.toNat := Nat.mod_eq_of_lt b.isLt
    rw [ofNat_toNat_pow, ← hexp, ← wrappingPow_eq]
    exact run_pop_pop_push (fun base expon => wrappingPow base 256 expon.toNat) f a b s

end Run

end Cita
