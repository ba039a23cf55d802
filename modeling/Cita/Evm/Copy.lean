import Cita.Evm.Interpreter

/-!
# Copies between memory and byte strings

`Memory::into_return_data`, which cuts the slice `RETURN` and `REVERT`
hand back out of the memory, and `Interpreter::copy_data_to_memory`, which
`CALLDATACOPY`, `CODECOPY`, `EXTCODECOPY` and `RETURNDATACOPY` share.

Both take their offsets and sizes as words and cut them to `usize` with
`low_u64`. Once the range they touch lies in the memory, which is shorter
than `2^64` bytes as every Rust vector is, the cut changes nothing, and
each does what its caller expects: `into_return_data` returns the bytes of
the range whether it compacts the buffer or not
(`intoReturnData_deref`), and `copy_data_to_memory` writes the source
from the source offset on into the range, with zeros past the end of the
source, and leaves every other byte as it was (`copyDataToMemory_spec`).
-/

namespace Cita

theorem lowU64_of_lt {x : U256} (h : x.toNat < 2 ^ 64) : lowU64 x = x.toNat :=
  Nat.mod_eq_of_lt h

theorem isValidRange_of_le {off size : Nat} (hsize : 0 < size) (h : off + size < 2 ^ 64) :
    isValidRange off size = true := by
  have hfits : ¬off + size ≥ 2 ^ 64 := by omega
  rw [isValidRange]
  simp only [hsize, hfits, decide_true, decide_false, Bool.not_false, Bool.and_self]

theorem isValidRange_zero (off : Nat) : isValidRange off 0 = false := by
  simp [isValidRange]

/-! ## `into_return_data` -/

theorem deref_empty {ε : Type} : (ReturnData.empty.deref : Outcome ε Bytes) = .ok [] := rfl

/-- A range in the memory comes back as its bytes, on both paths. -/
theorem intoReturnData_deref {m : Bytes} {offset size : U256} (hm : m.length < 2 ^ 64)
    (hfit : 0 < size.toNat → offset.toNat + size.toNat ≤ m.length) :
    ∃ r, Memory.intoReturnData m offset size = .ok r ∧
      (r.deref : Outcome Error Bytes) = .ok ((m.drop offset.toNat).take size.toNat) := by
  rcases Nat.eq_zero_or_pos size.toNat with hzero | hpos
  · -- nothing to return: the memory was not expanded for it
    have hlow : lowU64 size = 0 := by rw [lowU64, hzero]; rfl
    refine ⟨.empty, ?_, by rw [hzero, List.take_zero]; rfl⟩
    simp [Memory.intoReturnData, hlow, isValidRange_zero]
  · have hend := hfit hpos
    rw [Memory.intoReturnData, lowU64_of_lt (by omega : offset.toNat < 2 ^ 64),
      lowU64_of_lt (by omega : size.toNat < 2 ^ 64)]
    simp only [@isValidRange_of_le offset.toNat size.toNat hpos (by omega), Bool.not_true, Bool.false_eq_true, if_false]
    split
    · -- compacting: `drain(..offset)` and `truncate(size)` leave the range alone
      refine ⟨⟨(m.drop offset.toNat).take size.toNat, 0, size.toNat⟩, ?_, ?_⟩
      · rw [Slice.range_ok (Nat.zero_le _) (by omega)]
        rfl
      · have hlen : ((m.drop offset.toNat).take size.toNat).length = size.toNat := by
          simp only [List.length_take, List.length_drop]
          omega
        simp only [ReturnData.deref, Nat.zero_add, hlen, le_refl, if_true, List.drop_zero,
          List.take_take, min_self]
    · refine ⟨⟨m, offset.toNat, size.toNat⟩, rfl, ?_⟩
      simp only [ReturnData.deref, hend, if_true]

theorem isValidRange_eq_false {off size : Nat} (h : size = 0 ∨ 2 ^ 64 ≤ off + size) :
    isValidRange off size = false := by
  rcases h with rfl | h
  · exact isValidRange_zero off
  · rw [isValidRange]
    simp only [ge_iff_le, h, decide_true, Bool.not_true, Bool.and_false]

/-- An empty range, or one whose end does not fit a `usize`, returns nothing. -/
theorem intoReturnData_of_not_valid {m : Bytes} {offset size : U256}
    (h : lowU64 size = 0 ∨ 2 ^ 64 ≤ lowU64 offset + lowU64 size) :
    Memory.intoReturnData m offset size = .ok .empty := by
  simp [Memory.intoReturnData, isValidRange_eq_false h]

theorem intoReturnData_agrees_with_slice :
    (∀ (m : Bytes) (offset size : U256), m.length < 2 ^ 64 →
      (0 < size.toNat → offset.toNat + size.toNat ≤ m.length) →
      ∃ r, Memory.intoReturnData m offset size = .ok r ∧
        (r.deref : Outcome Error Bytes) = .ok ((m.drop offset.toNat).take size.toNat)) ∧
    (∀ (m : Bytes) (offset size : U256), lowU64 size = 0 ∨ 2 ^ 64 ≤ lowU64 offset + lowU64 size →
      Memory.intoReturnData m offset size = .ok .empty) :=
  ⟨fun _ _ _ hm hfit => intoReturnData_deref hm hfit, fun _ _ _ h => intoReturnData_of_not_valid h⟩

/-- Two bytes from offset one of four return the middle two; a size of
zero returns nothing. -/
theorem intoReturnData_agrees_with_slice_middle :
    (([1, 2, 3, 4] : Bytes).length < 2 ^ 64 ∧
      (0 < (2 : U256).toNat → (1 : U256).toNat + (2 : U256).toNat ≤ ([1, 2, 3, 4] : Bytes).length) ∧
      ∃ r, Memory.intoReturnData [1, 2, 3, 4] 1 2 = .ok r ∧
        (r.deref : Outcome Error Bytes) = .ok ((([1, 2, 3, 4] : Bytes).drop (1 : U256).toNat).take (2 : U256).toNat)) ∧
    ((lowU64 (0 : U256) = 0 ∨ 2 ^ 64 ≤ lowU64 (1 : U256) + lowU64 (0 : U256)) ∧
      Memory.intoReturnData [1, 2, 3, 4] 1 0 = .ok .empty) := by
  have hlen : ([1, 2, 3, 4] : Bytes).length < 2 ^ 64 := by decide
  have hfit : 0 < (2 : U256).toNat → (1 : U256).toNat + (2 : U256).toNat ≤ ([1, 2, 3, 4] : Bytes).length :=
    fun _ => by decide
  have hempty : lowU64 (0 : U256) = 0 ∨ 2 ^ 64 ≤ lowU64 (1 : U256) + lowU64 (0 : U256) := .inl (by decide)
  exact ⟨⟨hlen, hfit, intoReturnData_agrees_with_slice.1 _ _ _ hlen hfit⟩,
    hempty, intoReturnData_agrees_with_slice.2 _ _ _ hempty⟩

/-! ## `copy_data_to_memory` -/

section CopyData

open Exec

variable {σ : Type}

theorem uintSub_of_le {ε : Type} {x y : U256} (h : y.toNat ≤ x.toNat) :
    (uintSub x y : Outcome ε U256) = .ok (x - y) := by
  rw [uintSub, if_neg]
  · rfl
  · simp only [Word.overflowingSub, decide_eq_true_eq, not_lt]
    exact h

/-- The bytes a copy of `size` bytes from `offset` of `source` writes:
the source from the offset on, then zeros. -/
def copiedBytes (source : Bytes) (offset size : Nat) : Bytes :=
  (source.drop offset ++ List.replicate size 0).take size

theorem writeableSlice_zero {m : Bytes} {off size : U256} (hm : m.length < 2 ^ 64)
    (hfit : 0 < size.toNat → off.toNat + size.toNat ≤ m.length) :
    ∃ start len, Memory.writeableSlice m off size = .ok (start, len) ∧
      Slice.write m start (List.replicate len 0) = Slice.write m off.toNat (List.replicate size.toNat 0) := by
  rcases Nat.eq_zero_or_pos size.toNat with hzero | hpos
  · have hlow : lowU64 size = 0 := by rw [lowU64, hzero]; rfl
    refine ⟨0, 0, by simp [Memory.writeableSlice, hlow, isValidRange_zero], ?_⟩
    rw [hzero, List.replicate_zero, Slice.write_nil, Slice.write_nil]
  · have hend := hfit hpos
    refine ⟨off.toNat, size.toNat, ?_, rfl⟩
    rw [Memory.writeableSlice, lowU64_of_lt (by omega : off.toNat < 2 ^ 64),
      lowU64_of_lt (by omega : size.toNat < 2 ^ 64)]
    simp only [@isValidRange_of_le off.toNat size.toNat hpos (by omega), Bool.not_true,
      Bool.false_eq_true, if_false, usizeAdd, Nat.mod_eq_of_lt (by omega : off.toNat + size.toNat < 2 ^ 64),
      Slice.range_ok (Nat.le_add_right _ _) hend]
    rfl

theorem writeSlice_eq {m xs : Bytes} {off : U256} (hm : m.length < 2 ^ 64)
    (hfit : 0 < xs.length → off.toNat + xs.length ≤ m.length) :
    Memory.writeSlice m off xs = .ok (Slice.write m off.toNat xs) := by
  rcases Nat.eq_zero_or_pos xs.length with hzero | hpos
  · rw [List.length_eq_zero_iff.mp hzero, Slice.write_nil]
    rfl
  · have hend := hfit hpos
    have hne : xs.isEmpty = false := by
      cases xs with
      | nil => simp at hpos
      | cons _ _ => rfl
    rw [Memory.writeSlice, if_neg (by simp [hne]), lowU64_of_lt (by omega : off.toNat < 2 ^ 64)]
    simp only [usizeAdd, Nat.mod_eq_of_lt (by omega : off.toNat + xs.length < 2 ^ 64),
      Slice.range_ok (Nat.le_add_right _ _) hend]
    rfl

theorem length_copiedBytes (source : Bytes) (offset size : Nat) : (copiedBytes source offset size).length = size := by
  simp [copiedBytes]

theorem copiedBytes_of_le {source : Bytes} {offset size : Nat} (h : offset + size ≤ source.length) :
    copiedBytes source offset size = (source.drop offset).take size := by
  rw [copiedBytes, List.take_append_of_le_length (by rw [List.length_drop]; omega)]

theorem copiedBytes_of_ge {source : Bytes} {offset size : Nat} (h : source.length ≤ offset) :
    copiedBytes source offset size = List.replicate size 0 := by
  rw [copiedBytes, List.drop_eq_nil_of_le h, List.nil_append, List.take_replicate, Nat.min_self]

theorem copiedBytes_of_overrun {source : Bytes} {offset size : Nat} (h : offset ≤ source.length)
    (hover : source.length < offset + size) :
    copiedBytes source offset size = source.drop offset ++ List.replicate (offset + size - source.length) 0 := by
  have hlen : (source.drop offset).length = source.length - offset := List.length_drop
  rw [copiedBytes, List.take_append, List.take_of_length_le (by omega), hlen, List.take_replicate]
  congr 2
  omega

theorem getElem?_copiedBytes {source : Bytes} {offset size i : Nat} (hi : i < size) :
    (copiedBytes source offset size)[i]? = some (source.getD (offset + i) 0) := by
  rw [copiedBytes, List.getElem?_take_of_lt hi]
  by_cases hin : offset + i < source.length
  · rw [List.getElem?_append_left (by rw [List.length_drop]; omega), List.getElem?_drop,
      List.getD_eq_getElem?_getD, List.getElem?_eq_getElem hin, Option.getD_some]
  · rw [List.getElem?_append_right (by rw [List.length_drop]; omega), List.getElem?_replicate,
      if_pos (by rw [List.length_drop]; omega), List.getD_eq_getElem?_getD,
      List.getElem?_eq_none (by omega), Option.getD_none]

section Cases

variable {source mem0 : Bytes} {rd : ReturnData} {pos : Nat} {e : σ} {d o n : U256} {rest : List U256}

theorem toNat_sourceSize (hL : source.length < 2 ^ 64) :
    (BitVec.ofNat 256 source.length).toNat = source.length :=
  Nat.mod_eq_of_lt (lt_trans hL (by decide))

/-- The range lies in the source: one copy of it. -/
theorem copyDataToMemory_run_within (hL : source.length < 2 ^ 64) (hM : mem0.length < 2 ^ 64)
    (hcov : 0 < n.toNat → d.toNat + n.toNat ≤ mem0.length) (hwithin : o.toNat + n.toNat ≤ source.length) :
    (copyDataToMemory source).run ⟨mem0, rd, d :: o :: n :: rest, pos, e⟩ =
      .ok ((), ⟨Slice.write mem0 d.toNat (copiedBytes source o.toNat n.toNat), rd, rest, pos, e⟩) := by
  have hss := toNat_sourceSize hL
  have ho : ¬ o > BitVec.ofNat 256 source.length := by
    rw [gt_iff_lt, BitVec.lt_def, hss]; omega
  have hn : ¬ n > BitVec.ofNat 256 source.length := by
    rw [gt_iff_lt, BitVec.lt_def, hss]; omega
  have hadd : (uintAdd o n : Outcome Error U256) = .ok (o + n) := by
    rw [uintAdd, if_neg]
    · rfl
    · simp only [Word.overflowingAdd, decide_eq_true_eq, not_le]; omega
  have hsum : ¬ o + n > BitVec.ofNat 256 source.length := by
    rw [gt_iff_lt, BitVec.lt_def, hss, BitVec.toNat_add, Nat.mod_eq_of_lt (by omega)]; omega
  simp only [copyDataToMemory, StateT.run_bind, run_pop_cons, Outcome.ok_bind, ho, hn, decide_false,
    Bool.or_false, Bool.false_eq_true, if_false, hadd, StateT.run_lift, hsum, StateT.run_pure, Outcome.pure_eq]
  rw [copiedBytes_of_le hwithin]
  by_cases hlt : o.toNat < source.length
  · -- the bytes `source[source_offset..source_offset + size]`
    have hend : usizeAdd (lowU64 n) (lowU64 o) = o.toNat + n.toNat := by
      rw [lowU64_of_lt (by omega), lowU64_of_lt (by omega), usizeAdd, Nat.mod_eq_of_lt (by omega),
        Nat.add_comm]
    have hslice : (Slice.range source (lowU64 o) (usizeAdd (lowU64 n) (lowU64 o)) : Outcome Error Bytes) =
        .ok ((source.drop o.toNat).take n.toNat) := by
      rw [hend, lowU64_of_lt (by omega), Slice.range_ok (by omega) hwithin, Nat.add_sub_cancel_left]
    have hwrite := @writeSlice_eq mem0 ((source.drop o.toNat).take n.toNat) d hM (by
      intro hpos
      simp only [List.length_take, List.length_drop] at hpos ⊢
      have := hcov (by omega)
      omega)
    rw [if_pos (by rw [BitVec.lt_def, hss]; exact hlt)]
    simp only [StateT.run_bind, StateT.run_lift, hslice, Outcome.ok_bind, Outcome.pure_eq, run_mem, hwrite,
      run_setMem]
  · -- the source offset is the end of the source, and nothing is copied
    have hzero : n.toNat = 0 := by omega
    rw [if_neg (by rw [BitVec.lt_def, hss]; exact hlt), hzero, List.take_zero, Slice.write_nil]
    rfl

/-- The source offset is past the end of the source: zeros only. -/
theorem copyDataToMemory_run_past (hL : source.length < 2 ^ 64) (hM : mem0.length < 2 ^ 64)
    (hcov : 0 < n.toNat → d.toNat + n.toNat ≤ mem0.length) (hpast : source.length < o.toNat) :
    (copyDataToMemory source).run ⟨mem0, rd, d :: o :: n :: rest, pos, e⟩ =
      .ok ((), ⟨Slice.write mem0 d.toNat (copiedBytes source o.toNat n.toNat), rd, rest, pos, e⟩) := by
  have hss := toNat_sourceSize hL
  have ho : o > BitVec.ofNat 256 source.length := by
    rw [gt_iff_lt, BitVec.lt_def, hss]; exact hpast
  have ho' : ¬ o < BitVec.ofNat 256 source.length := by
    rw [BitVec.lt_def, hss]; omega
  obtain ⟨start, len, hslice, hzeros⟩ := @writeableSlice_zero mem0 d n hM hcov
  simp only [copyDataToMemory, StateT.run_bind, run_pop_cons, Outcome.ok_bind, ho, decide_true,
    Bool.true_or, if_true, StateT.run_pure, Outcome.pure_eq, run_mem, StateT.run_lift, hslice, run_setMem, ho',
    if_false]
  rw [hzeros, copiedBytes_of_ge (by omega)]

/-- The range starts in the source and runs past its end: the rest of the
source, then zeros from `dest_offset + source_size - source_offset` on. -/
theorem copyDataToMemory_run_overrun (hL : source.length < 2 ^ 64) (hM : mem0.length < 2 ^ 64)
    (hcov : 0 < n.toNat → d.toNat + n.toNat ≤ mem0.length) (hstart : o.toNat ≤ source.length)
    (hover : source.length < o.toNat + n.toNat) :
    (copyDataToMemory source).run ⟨mem0, rd, d :: o :: n :: rest, pos, e⟩ =
      .ok ((), ⟨Slice.write mem0 d.toNat (copiedBytes source o.toNat n.toNat), rd, rest, pos, e⟩) := by
  have hss := toNat_sourceSize hL
  have hend := hcov (by omega)
  have ho : ¬ o > BitVec.ofNat 256 source.length := by
    rw [gt_iff_lt, BitVec.lt_def, hss]; omega
  have hadd : (uintAdd o n : Outcome Error U256) = .ok (o + n) := uintAdd_of_lt (by omega)
  have hsum : o + n > BitVec.ofNat 256 source.length := by
    rw [gt_iff_lt, BitVec.lt_def, hss, BitVec.toNat_add, Nat.mod_eq_of_lt (by omega)]; omega
  -- the zeros start `source_size - source_offset` bytes into the range
  have hdss : (d + BitVec.ofNat 256 source.length).toNat = d.toNat + source.length := by
    rw [BitVec.toNat_add, hss, Nat.mod_eq_of_lt (by omega)]
  have hon : (o + n).toNat = o.toNat + n.toNat := by
    rw [BitVec.toNat_add, Nat.mod_eq_of_lt (by omega)]
  have hoffAdd : (uintAdd d (BitVec.ofNat 256 source.length) : Outcome Error U256) =
      .ok (d + BitVec.ofNat 256 source.length) := uintAdd_of_lt (by omega)
  have hoffSub : (uintSub (d + BitVec.ofNat 256 source.length) o : Outcome Error U256) =
      .ok (d + BitVec.ofNat 256 source.length - o) := uintSub_of_le (by omega)
  have hlenSub : (uintSub (o + n) (BitVec.ofNat 256 source.length) : Outcome Error U256) =
      .ok (o + n - BitVec.ofNat 256 source.length) := uintSub_of_le (by omega)
  have hoffNat : (d + BitVec.ofNat 256 source.length - o).toNat = d.toNat + (source.length - o.toNat) := by
    rw [BitVec.toNat_sub_of_le (by rw [BitVec.le_def, hdss]; omega), hdss]
    omega
  have hlenNat : (o + n - BitVec.ofNat 256 source.length).toNat = o.toNat + n.toNat - source.length := by
    rw [BitVec.toNat_sub_of_le (by rw [BitVec.le_def, hon, hss]; omega), hon, hss]
  obtain ⟨start, len, hslice, hzeros⟩ := @writeableSlice_zero mem0 (d + BitVec.ofNat 256 source.length - o)
    (o + n - BitVec.ofNat 256 source.length) hM (fun _ => by rw [hoffNat, hlenNat]; omega)
  rw [hoffNat, hlenNat] at hzeros
  -- `size > source_size` or `source_offset + size > source_size`: either test finds the
  -- overrun, and the copy goes on the same way
  by_cases hn : n > BitVec.ofNat 256 source.length <;>
    simp only [copyDataToMemory, StateT.run_bind, run_pop_cons, Outcome.ok_bind, ho, hn, hadd, hsum,
      decide_true, decide_false, Bool.or_true, Bool.or_false, Bool.false_eq_true, if_true, if_false,
      StateT.run_pure, Outcome.pure_eq, run_mem, StateT.run_lift, hoffAdd, hoffSub, hlenSub, hslice,
      run_setMem] <;>
    rw [hzeros]
  all_goals
    by_cases hlt : o.toNat < source.length
    · -- then the rest of the source in front of the zeros
      have hrest : (Slice.range source (lowU64 o) source.length : Outcome Error Bytes) = .ok (source.drop o.toNat) := by
        rw [lowU64_of_lt (by omega), Slice.range_ok hstart (Nat.le_refl _), List.take_of_length_le (by simp)]
      have hwrite := @writeSlice_eq (Slice.write mem0 (d.toNat + (source.length - o.toNat))
          (List.replicate (o.toNat + n.toNat - source.length) 0)) (source.drop o.toNat) d
        (by rw [Slice.length_write (by simp; omega)]; exact hM)
        (fun _ => by rw [Slice.length_write (by simp; omega), List.length_drop]; omega)
      rw [if_pos (by rw [BitVec.lt_def, hss]; exact hlt)]
      simp only [StateT.run_bind, StateT.run_lift, hrest, Outcome.ok_bind, Outcome.pure_eq, run_mem, hwrite,
        run_setMem]
      rw [show d.toNat + (source.length - o.toNat) = d.toNat + (source.drop o.toNat).length by simp,
        Slice.write_write_adjacent (by simp; omega), copiedBytes_of_overrun hstart hover]
    · -- the source offset is the end of the source: zeros only
      have heq : o.toNat = source.length := by omega
      rw [if_neg (by rw [BitVec.lt_def, hss]; exact hlt), copiedBytes_of_ge (by omega), heq, Nat.sub_self,
        Nat.add_zero, Nat.add_sub_cancel_left]
      rfl

/-- Every copy whose destination lies in the memory writes `copiedBytes` there. -/
theorem copyDataToMemory_run (hL : source.length < 2 ^ 64) (hM : mem0.length < 2 ^ 64)
    (hcov : 0 < n.toNat → d.toNat + n.toNat ≤ mem0.length) :
    (copyDataToMemory source).run ⟨mem0, rd, d :: o :: n :: rest, pos, e⟩ =
      .ok ((), ⟨Slice.write mem0 d.toNat (copiedBytes source o.toNat n.toNat), rd, rest, pos, e⟩) := by
  rcases Nat.lt_or_ge source.length o.toNat with hpast | hstart
  · exact copyDataToMemory_run_past hL hM hcov hpast
  · rcases Nat.lt_or_ge source.length (o.toNat + n.toNat) with hover | hwithin
    · exact copyDataToMemory_run_overrun hL hM hcov hstart hover
    · exact copyDataToMemory_run_within hL hM hcov hwithin

end Cases


/-- A write of `copiedBytes` into a range of the memory: the source, or a
zero past its end, at each byte of the range, and the memory elsewhere. -/
theorem write_copiedBytes {m source : Bytes} {d o n : Nat} (hcov : 0 < n → d + n ≤ m.length) :
    (Slice.write m d (copiedBytes source o n)).length = m.length ∧
      (∀ i < n, (Slice.write m d (copiedBytes source o n))[d + i]? = some (source.getD (o + i) 0)) ∧
      ∀ j, j < d ∨ d + n ≤ j → (Slice.write m d (copiedBytes source o n))[j]? = m[j]? := by
  rcases Nat.eq_zero_or_pos n with rfl | hpos
  · -- nothing is written
    have hnil : copiedBytes source o 0 = [] := by simp [copiedBytes]
    refine ⟨by rw [hnil, Slice.write_nil], fun i hi => absurd hi (Nat.not_lt_zero i), fun j _ => ?_⟩
    rw [hnil, Slice.write_nil]
  · have hend := hcov hpos
    have hlen := length_copiedBytes source o n
    refine ⟨Slice.length_write (by omega), fun i hi => ?_, fun j hj => ?_⟩
    · rw [Slice.getElem?_write_add (by omega) (by omega), getElem?_copiedBytes hi]
    · rcases hj with hj | hj
      · exact Slice.getElem?_write_of_lt hj (by omega)
      · exact Slice.getElem?_write_of_le (by omega) (by omega)

theorem copyDataToMemory_spec (source : Bytes) (f : Frame σ) (d o n : U256) (rest : List U256)
    (hstack : f.stack = d :: o :: n :: rest) (hL : source.length < 2 ^ 64) (hM : f.mem.length < 2 ^ 64)
    (hcov : 0 < n.toNat → d.toNat + n.toNat ≤ f.mem.length) :
    ∃ m, (copyDataToMemory source).run f = .ok ((), { f with stack := rest, mem := m }) ∧
      m.length = f.mem.length ∧
      (∀ i < n.toNat, m[d.toNat + i]? = some (source.getD (o.toNat + i) 0)) ∧
      ∀ j, j < d.toNat ∨ d.toNat + n.toNat ≤ j → m[j]? = f.mem[j]? := by
  obtain ⟨mem0, rd, stack, pos, e⟩ := f
  subst hstack
  exact ⟨_, copyDataToMemory_run hL hM hcov, write_copiedBytes hcov⟩

/-- Two bytes of a two-byte source copied to offset 1 of three bytes of memory. -/
theorem copyDataToMemory_spec_two :
    (⟨[0, 0, 0], .empty, [1, 0, 2], 0, ()⟩ : Frame Unit).stack = 1 :: 0 :: 2 :: [] ∧
      ([7, 8] : Bytes).length < 2 ^ 64 ∧ ([0, 0, 0] : Bytes).length < 2 ^ 64 ∧
      (0 < (2 : U256).toNat → (1 : U256).toNat + (2 : U256).toNat ≤ ([0, 0, 0] : Bytes).length) ∧
      ∃ m, (copyDataToMemory [7, 8]).run (⟨[0, 0, 0], .empty, [1, 0, 2], 0, ()⟩ : Frame Unit) =
          .ok ((), { (⟨[0, 0, 0], .empty, [1, 0, 2], 0, ()⟩ : Frame Unit) with stack := [], mem := m }) ∧
        m.length = ([0, 0, 0] : Bytes).length ∧
        (∀ i < (2 : U256).toNat, m[(1 : U256).toNat + i]? = some (([7, 8] : Bytes).getD ((0 : U256).toNat + i) 0)) ∧
        ∀ j, j < (1 : U256).toNat ∨ (1 : U256).toNat + (2 : U256).toNat ≤ j → m[j]? = ([0, 0, 0] : Bytes)[j]? :=
  ⟨rfl, by decide, by decide, by decide,
    copyDataToMemory_spec [7, 8] ⟨[0, 0, 0], .empty, [1, 0, 2], 0, ()⟩ 1 0 2 [] rfl (by decide) (by decide)
      (by decide)⟩

end CopyData

end Cita
