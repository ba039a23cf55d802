import Cita.Evm.GasConservation
import Cita.Evm.Copy

/-!
# The memory and its gas

`Interpreter::exec` keeps the memory in a vector that grows only through
`Memory::expand`, to the size the gasometer asked for, and the gasometer
keeps apart, in `current_mem_gas`, the price of the memory it has charged
for. `mem_gas_cost` rounds the size an instruction needs up to whole words
and charges the rise of `gas_for_mem` from `current_mem_gas`.

The two stay in step (`MemGasInv`): at the start of every iteration the
memory is a whole number of words below `2^64` bytes, and
`current_mem_gas` is `memoryCost memory_gas w` for its `w` words. So the
subtraction `new_mem_gas - current_mem_gas` never wraps or panics
(`currentMemGas_le_gasForMem`), every iteration is charged the rise of
`memoryCost` (`execStep_memInv`; the charge is `Gasometer.memoryCharge`, the
part of `gas_cost` that `mem_gas_cost` returns), and over a run the memory
gas charged adds up to the price of the memory reached, which is the
largest (`exec_memory_gas`).

The memory keeps its length under every instruction
(`execInstruction_keepsMem`): every write is bounds-checked, and the output
of a call is written back into the slice it was given. That needs the byte
strings copied into memory to fit a `Vec<u8>` (`ShortData`); the model's
byte strings are lists, which may be longer.
-/

namespace Cita

open CostType Exec

namespace CostType

/-- What the memory price needs of a cost type besides `LawfulCostType`:
shifts by fewer than 64 bits, the flagged products and `as_usize` are exact. -/
class LawfulMemoryCost (α : Type) [CostType α] : Prop where
  value_shr (x : α) {k : Nat} : k < 64 → value (shr x k) = value x / 2 ^ k
  value_shl_shr (x : α) {k : Nat} : k < 64 → value (shl (shr x k) k) = value x / 2 ^ k * 2 ^ k
  overflowMul_ok {x y : α} : (overflowMul x y).2 = false →
    value (overflowMul x y).1 = value x * value y
  overflowMulShr_ok {x y : α} {k : Nat} : (overflowMulShr x y k).2 = false →
    value (overflowMulShr x y k).1 = value x * value y / 2 ^ k
  asUsize_ok {x : α} {n : Nat} : asUsize x = .ok n → n = value x ∧ n < 2 ^ 64

theorem toNat_shiftLeft_ushiftRight {w : Nat} (x : BitVec w) (k : Nat) :
    ((x >>> k) <<< k).toNat = x.toNat / 2 ^ k * 2 ^ k := by
  rw [BitVec.toNat_shiftLeft, BitVec.toNat_ushiftRight, Nat.shiftRight_eq_div_pow,
    Nat.shiftLeft_eq]
  exact Nat.mod_eq_of_lt (lt_of_le_of_lt (Nat.div_mul_le_self _ _) x.isLt)

theorem toNat_ofNat_div {w a k : Nat} (h : a < 2 ^ w) : (BitVec.ofNat w (a / 2 ^ k)).toNat = a / 2 ^ k :=
  Nat.mod_eq_of_lt (lt_of_le_of_lt (Nat.div_le_self _ _) h)

instance u256MemoryLawful : LawfulMemoryCost U256 where
  value_shr x k _ := by
    simp only [value_u256, shr, BitVec.toNat_ushiftRight, Nat.shiftRight_eq_div_pow]
  value_shl_shr x k _ := toNat_shiftLeft_ushiftRight x k
  overflowMul_ok h := Word.overflowingMul_toNat h
  overflowMulShr_ok {x y k} h := by
    simp only [overflowMulShr, decide_eq_false_iff_not, not_le] at h
    exact toNat_ofNat_div h
  asUsize_ok {x n} h := by
    simp only [asUsize] at h
    split at h
    · cases h
      exact ⟨rfl, ‹_›⟩
    · cases h

instance usizeMemoryLawful : LawfulMemoryCost Usize where
  value_shr x k hk := by
    simp only [value_usize, shr, Nat.mod_eq_of_lt hk, BitVec.toNat_ushiftRight,
      Nat.shiftRight_eq_div_pow]
  value_shl_shr x k hk := by
    simp only [value_usize, shr, shl, Nat.mod_eq_of_lt hk]
    exact toNat_shiftLeft_ushiftRight x k
  overflowMul_ok {x y} h := by
    simp only [value_usize]
    exact Word.overflowingMul_toNat h
  overflowMulShr_ok {x y k} h := by
    simp only [overflowMulShr, decide_eq_false_iff_not, not_le] at h
    simp only [value_usize]
    exact toNat_ofNat_div h
  asUsize_ok {x n} h := by
    simp only [asUsize] at h
    cases h
    exact ⟨(value_usize x).symm, x.isLt⟩

end CostType

/-- The memory gas of `words` words: `memory_gas` per word and the
quadratic term `words * words / quad_coeff_div`, with `quad_coeff_div`
the 512 `mem_gas_cost` asserts. -/
def memoryCost (memoryGas words : Nat) : Nat := memoryGas * words + words * words / 512

theorem memoryCost_mono (memoryGas : Nat) {a b : Nat} (h : a ≤ b) :
    memoryCost memoryGas a ≤ memoryCost memoryGas b :=
  Nat.add_le_add (Nat.mul_le_mul_left _ h) (Nat.div_le_div_right (Nat.mul_le_mul h h))

variable {Cost : Type} [CostType Cost] [LawfulCostType Cost] [LawfulMemoryCost Cost]

/-- The memory gas `memGas` is the price of a memory of `len` bytes, a whole
number of words that fits a `usize`. -/
structure MemGasInv (schedule : Schedule) (memGas : Cost) (len : Nat) : Prop where
  words : len % 32 = 0
  fits : len < 2 ^ 64
  price : value memGas = memoryCost schedule.memoryGas (len / 32)

omit [LawfulCostType Cost] [LawfulMemoryCost Cost] in
theorem memGasInv_zero {schedule : Schedule} {memGas : Cost} (h : value memGas = 0) :
    MemGasInv schedule memGas 0 :=
  ⟨rfl, by decide, by rw [h]; rfl⟩

namespace Gasometer

/-- `gas_for_mem(mem_size)` is `memoryCost` of the words of `mem_size`. -/
theorem value_gasForMem {schedule : Schedule} {memSize n : Cost} (hg : schedule.memoryGas < 2 ^ 64)
    (h : gasForMem schedule memSize = .ok n) :
    value n = memoryCost schedule.memoryGas (value memSize / 32) := by
  simp only [gasForMem, Outcome.bind_eq_ok, overflowing_eq_ok, Outcome.assert_eq_ok] at h
  obtain ⟨a, ⟨ha, rfl⟩, _, -, b, ⟨hb, rfl⟩, hn, rfl⟩ := h
  have hs : value (shr memSize 5 : Cost) = value memSize / 32 := LawfulMemoryCost.value_shr _ (by decide)
  rw [LawfulCostType.overflowAdd_ok hn, LawfulMemoryCost.overflowMul_ok ha,
    LawfulMemoryCost.overflowMulShr_ok hb, hs, LawfulCostType.value_ofUsize hg, memoryCost,
    Nat.mul_comm (value memSize / 32) schedule.memoryGas]
  rfl

/-- **No underflow.** When the memory is priced right, the price of any
larger memory is at least `current_mem_gas`: the subtraction of
`mem_gas_cost` never wraps or panics. -/
theorem currentMemGas_le_gasForMem {schedule : Schedule} {cur memSize n : Cost} {len : Nat}
    (hg : schedule.memoryGas < 2 ^ 64) (hinv : MemGasInv schedule cur len)
    (hlt : len < value memSize) (h : gasForMem schedule memSize = .ok n) :
    value cur ≤ value n := by
  rw [hinv.price, value_gasForMem hg h]
  exact memoryCost_mono _ (Nat.div_le_div_right hlt.le)

/-- `mem_gas_cost` keeps the memory priced right: after it, the memory
gas is the price of the memory expanded to the size it returns, and the
gas it charges is the rise of the price. -/
theorem memGasCost_spec {g : Gasometer Cost} {schedule : Schedule} {len : Nat} {memSize c n : Cost}
    {size : Nat} (hg : schedule.memoryGas < 2 ^ 64) (hinv : MemGasInv schedule g.currentMemGas len)
    (h : g.memGasCost schedule len memSize = .ok (c, n, size)) :
    MemGasInv schedule n (max len size) ∧ value c + value g.currentMemGas = value n := by
  simp only [memGasCost, Outcome.bind_eq_ok, overflowing_eq_ok] at h
  obtain ⟨x, ⟨-, rfl⟩, h⟩ := h
  have hlen : value (ofUsize len : Cost) = len := LawfulCostType.value_ofUsize hinv.fits
  -- the rounded size is a whole number of words
  have hround : value (shl (shr (overflowAdd memSize (ofUsize 31)).1 5) 5 : Cost) % 32 = 0 := by
    rw [LawfulMemoryCost.value_shl_shr _ (by decide)]
    exact Nat.mul_mod_left _ _
  split at h
  -- the memory grows: the new price, less the old one
  · rename_i hgrow
    simp only [CostType.lt, LawfulCostType.le_iff, hlen, Bool.not_eq_true', decide_eq_false_iff_not,
      not_le] at hgrow
    simp only [Outcome.bind_eq_ok, Outcome.pure_eq, Outcome.ok_bind] at h
    obtain ⟨n', hn', d, hd, sz, hsz, hres⟩ := h
    cases hres
    obtain ⟨rfl, hfits⟩ := LawfulMemoryCost.asUsize_ok hsz
    have hle := currentMemGas_le_gasForMem hg hinv hgrow hn'
    obtain ⟨z, hz, hval⟩ := LawfulCostType.sub_ok hle
    rw [hz] at hd
    cases hd
    rw [Nat.max_eq_right hgrow.le]
    exact ⟨⟨hround, hfits, value_gasForMem hg hn'⟩, by omega⟩
  -- the memory is large enough: nothing to charge
  · rename_i hkeep
    simp only [CostType.lt, LawfulCostType.le_iff, hlen, Bool.not_eq_true', Bool.not_eq_false,
      decide_eq_true_eq] at hkeep
    simp only [Outcome.bind_eq_ok, Outcome.pure_eq, Outcome.ok_bind] at h
    obtain ⟨sz, hsz, hres⟩ := h
    cases hres
    obtain ⟨rfl, -⟩ := LawfulMemoryCost.asUsize_ok hsz
    rw [Nat.max_eq_left hkeep]
    exact ⟨hinv, by rw [value_ofUsize_zero, Nat.zero_add]⟩

variable {σ : Type}

/-- The memory part of the price of an instruction: the first result of
`mem_gas_cost` for its request, nothing for a `Request::Gas`. `requirements`
adds it into `gas_cost` (`requirements_memory`). -/
def memoryCharge (g : Gasometer Cost) (E : Ext σ) (s : σ) (op : Op) (info : InstructionInfo)
    (stack : List U256) (currentMemSize : Nat) : Outcome Error Cost := do
  let schedule := E.schedule
  let defaultGas : Cost := ofUsize (← Slice.index schedule.tierStepGas (getTierIdx info.tier))
  match ← request E s op stack defaultGas with
  | .gas _ => pure (ofUsize 0)
  | .gasMem _ memSize | .gasMemProvide _ memSize _ | .gasMemCopy _ memSize _ => do
      let (memGasCost, _) ← g.memGasCost schedule currentMemSize memSize
      pure memGasCost

/-- What `requirements` does to the memory: the memory gas it hands on is
the price of the memory expanded to the size it asks for, and it charges the
rise of the price as part of `gas_cost`. -/
theorem requirements_memory {g : Gasometer Cost} {E : Ext σ} {s : σ} {op : Op} {info : InstructionInfo}
    {stack : List U256} {len : Nat} {req : InstructionRequirements Cost}
    (hg : E.schedule.memoryGas < 2 ^ 64) (hinv : MemGasInv E.schedule g.currentMemGas len)
    (h : g.requirements E s op info stack len = .ok req) :
    MemGasInv E.schedule req.memoryTotalGas (max len req.memoryRequiredSize) ∧
      ∃ c, g.memoryCharge E s op info stack len = .ok c ∧
        value c + value g.currentMemGas = value req.memoryTotalGas ∧ value c ≤ value req.gasCost := by
  simp only [requirements, Outcome.bind_eq_ok] at h
  obtain ⟨d, hd, r, hr, h⟩ := h
  simp only [memoryCharge, hd, hr, Outcome.ok_bind]
  cases r with
  | gas gas =>
    cases h
    refine ⟨by rw [Nat.max_eq_left (Nat.zero_le _)]; exact hinv, _, rfl, ?_, ?_⟩ <;>
      simp only [value_ofUsize_zero, Nat.zero_add, Nat.zero_le]
  | gasMem gas memSize =>
    simp only [Outcome.bind_eq_ok] at h
    obtain ⟨⟨c, n, size⟩, hc, g1, hg1, hreq⟩ := h
    cases hreq
    obtain ⟨hinv', hrise⟩ := memGasCost_spec hg hinv hc
    refine ⟨hinv', c, by simp only [hc, Outcome.ok_bind, Outcome.pure_eq], hrise, ?_⟩
    rw [value_of_overflowing_add hg1]
    exact Nat.le_add_left _ _
  | gasMemProvide gas memSize requested =>
    simp only [Outcome.bind_eq_ok] at h
    obtain ⟨⟨c, n, size⟩, hc, g1, hg1, p, -, t, ht, hreq⟩ := h
    cases hreq
    obtain ⟨hinv', hrise⟩ := memGasCost_spec hg hinv hc
    refine ⟨hinv', c, by simp only [hc, Outcome.ok_bind, Outcome.pure_eq], hrise, ?_⟩
    rw [value_of_overflowing_add ht, value_of_overflowing_add hg1]
    dsimp only
    omega
  | gasMemCopy gas memSize copy =>
    simp only [Outcome.bind_eq_ok] at h
    obtain ⟨⟨c, n, size⟩, hc, _, -, _, -, g1, -, g2, hg2, hreq⟩ := h
    cases hreq
    obtain ⟨hinv', hrise⟩ := memGasCost_spec hg hinv hc
    refine ⟨hinv', c, by simp only [hc, Outcome.ok_bind, Outcome.pure_eq], hrise, ?_⟩
    rw [value_of_overflowing_add hg2]
    exact Nat.le_add_left _ _

end Gasometer

/-! ## The memory keeps its length under every instruction -/

theorem Slice.length_of_range_eq_ok {ε α : Type} {v r : List α} {a b : Nat}
    (h : (Slice.range v a b : Outcome ε (List α)) = .ok r) : r.length ≤ v.length := by
  unfold Slice.range at h
  split at h
  · cases h
  · split at h
    · cases h
    · cases h
      simp only [List.length_take, List.length_drop]
      omega

namespace Memory

/-- A bounds check `m[off..off + n]` on `usize` offsets that passes puts the
range inside `m`: an end that wrapped would come before the start. -/
theorem le_length_of_range {ε α : Type} {m r : List α} {off n : Nat} (hoff : off < 2 ^ 64)
    (hn : n < 2 ^ 64) (h : (Slice.range m off (usizeAdd off n) : Outcome ε (List α)) = .ok r) :
    off + n ≤ m.length := by
  unfold Slice.range usizeAdd at h
  split at h
  · cases h
  · rename_i hle
    split at h
    · cases h
    · rename_i hend
      by_cases hwrap : off + n < 2 ^ 64
      · rw [Nat.mod_eq_of_lt hwrap] at hend
        omega
      · rw [Nat.mod_eq_sub_mod (Nat.le_of_not_lt hwrap), Nat.mod_eq_of_lt (by omega)] at hle
        omega

theorem lowU64_lt (x : U256) : lowU64 x < 2 ^ 64 := Nat.mod_lt _ (by decide)

theorem writeableSlice_le {m : Bytes} {offset size : U256} {start len : Nat}
    (h : writeableSlice m offset size = .ok (start, len)) : start + len ≤ m.length := by
  unfold writeableSlice at h
  dsimp only at h
  split at h
  · cases h
    exact Nat.zero_le _
  · simp only [Outcome.bind_eq_ok, Outcome.pure_eq] at h
    obtain ⟨_, hr, hres⟩ := h
    cases hres
    exact le_length_of_range (lowU64_lt _) (lowU64_lt _) hr

theorem length_of_write_eq_ok {m m' : Bytes} {offset value : U256}
    (h : write m offset value = .ok m') : m'.length = m.length := by
  simp only [write, Outcome.bind_eq_ok, Outcome.pure_eq] at h
  obtain ⟨_, hr, hres⟩ := h
  cases hres
  have hfit := le_length_of_range (lowU64_lt _) (by decide) hr
  exact Slice.length_write (by rw [u256ToBytes, Word.length_toBytes]; exact hfit)

theorem length_of_writeByte_eq_ok {m m' : Bytes} {offset value : U256}
    (h : writeByte m offset value = .ok m') : m'.length = m.length := by
  simp only [writeByte, Outcome.bind_eq_ok, Outcome.pure_eq] at h
  obtain ⟨_, -, hres⟩ := h
  cases hres
  exact List.length_set

theorem length_of_writeSlice_eq_ok {m m' slice : Bytes} {offset : U256} (hs : slice.length < 2 ^ 64)
    (h : writeSlice m offset slice = .ok m') : m'.length = m.length := by
  unfold writeSlice at h
  split at h
  · cases h
    rfl
  · simp only [Outcome.bind_eq_ok, Outcome.pure_eq] at h
    obtain ⟨_, hr, hres⟩ := h
    cases hres
    exact Slice.length_write (le_length_of_range (lowU64_lt _) hs hr)

/-- The output of a call fills the slice it was given and no more. -/
theorem length_writeBack {m out : Bytes} {start len : Nat} (h : start + len ≤ m.length) :
    (writeBack m start len out).length = m.length := by
  have hold : ((m.drop start).take len).length = len := by
    simp only [List.length_take, List.length_drop]
    omega
  refine Slice.length_write ?_
  simp only [List.length_append, List.length_take, List.length_drop, hold]
  omega

theorem length_expand (m : Bytes) (size : Nat) : (expand m size).length = max m.length size := by
  unfold expand
  split
  · rw [Slice.length_resize]
    omega
  · omega

end Memory

/-- The return data a call hands back, if any. -/
def MessageCallResult.returnData? : MessageCallResult → Option ReturnData
  | .success _ data => some data
  | .reverted _ data => some data
  | .failed => none

/-- The return data a create hands back, if any. -/
def ContractCreateResult.returnData? : ContractCreateResult → Option ReturnData
  | .reverted _ data => some data
  | _ => none

section Frame

variable {σ : Type}

/-- The byte strings a run copies into memory fit a `Vec<u8>`, as the
source's do: the call data and the code, the code of every account and the
return data of every call and create are shorter than `2^64` bytes. -/
structure ShortData (E : Ext σ) (params : ActionParams) : Prop where
  data : (params.data.getD []).length < 2 ^ 64
  code : (params.code.getD []).length < 2 ^ 64
  extcode : ∀ s a c, E.extcode s a = .ok c → c.length < 2 ^ 64
  create : ∀ s g v c, ∀ r ∈ (E.create s g v c).1.returnData?, r.size < 2 ^ 64
  call : ∀ s g snd rcv v inp ca out ct,
    ∀ r ∈ (E.call s g snd rcv v inp ca out ct).1.returnData?, r.size < 2 ^ 64

/-- Every normal return of `x` keeps the length of the memory, from a frame
whose return data is shorter than `2^64` bytes to another such frame. -/
def KeepsMem {α : Type} (x : Exec σ α) : Prop :=
  ∀ f : Frame σ, f.returnData.size < 2 ^ 64 →
    wp x (fun _ f' => f'.mem.length = f.mem.length ∧ f'.returnData.size < 2 ^ 64) f

theorem KeepsMem.apply {α : Type} {x : Exec σ α} (h : KeepsMem x) {f f' : Frame σ} {a : α}
    (hx : x.run f = .ok (a, f')) (hf : f.returnData.size < 2 ^ 64) :
    f'.mem.length = f.mem.length ∧ f'.returnData.size < 2 ^ 64 :=
  h f hf a f' hx

/-- Code that writes neither the memory nor the return data. -/
theorem keepsMem_of_keeps {α : Type} {x : Exec σ α}
    (h : ∀ f, wp x (fun _ f' => f'.mem = f.mem ∧ f'.returnData = f.returnData) f) : KeepsMem x :=
  fun f hf => wp_mono (h f) fun _ _ h' => ⟨by rw [h'.1], h'.2 ▸ hf⟩

theorem KeepsMem.bind {α β : Type} {x : Exec σ α} {g : α → Exec σ β} (hx : KeepsMem x)
    (hg : ∀ a, KeepsMem (g a)) : KeepsMem (x >>= g) := by
  intro f hf
  rw [wp_bind]
  exact wp_mono (hx f hf) fun a f' h => wp_mono (hg a f' h.2) fun _ _ h' => ⟨h'.1.trans h.1, h'.2⟩

theorem keepsMem_ite {α : Type} {c : Prop} [Decidable c] {x y : Exec σ α} (hx : c → KeepsMem x)
    (hy : ¬c → KeepsMem y) : KeepsMem (if c then x else y) := by
  by_cases hc : c
  · rw [if_pos hc]
    exact hx hc
  · rw [if_neg hc]
    exact hy hc

theorem Memory.length_zeroFill {m : Bytes} {offset size : U256} {start len : Nat}
    (h : Memory.writeableSlice m offset size = .ok (start, len)) :
    (Slice.write m start (List.replicate len 0)).length = m.length :=
  Slice.length_write (by rw [List.length_replicate]; exact Memory.writeableSlice_le h)

theorem Memory.length_of_writeSlice_range {m m' slice source : Bytes} {offset : U256} {a b : Nat}
    (hs : source.length < 2 ^ 64) (hr : (Slice.range source a b : Outcome Error Bytes) = .ok slice)
    (h : Memory.writeSlice m offset slice = .ok m') : m'.length = m.length :=
  Memory.length_of_writeSlice_eq_ok (lt_of_le_of_lt (Slice.length_of_range_eq_ok hr) hs) h

theorem deref_length {r : ReturnData} {d : Bytes} (h : (r.deref : Outcome Error Bytes) = .ok d) :
    d.length = r.size := by
  unfold ReturnData.deref at h
  split at h
  · cases h
    simp only [List.length_take, List.length_drop]
    omega
  · cases h

theorem size_empty_lt : ReturnData.empty.size < 2 ^ 64 := Nat.two_pow_pos 64

/-- A copy keeps the length of the memory and the return data: the zeros
past the end of the source go to a checked slice of the memory, and the
bytes of the source are written over a checked range. -/
theorem copyDataToMemory_keeps {source : Bytes} (hs : source.length < 2 ^ 64) (f : Frame σ) :
    wp (copyDataToMemory source : Exec σ Unit)
      (fun _ f' => f'.mem.length = f.mem.length ∧ f'.returnData = f.returnData) f := by
  simp only [copyDataToMemory, wp_bind, wp_pop, wp_ite, wp_pure, wp_lift, wp_mem, wp_setMem,
    Prod.forall, and_true]
  intro d s _ o s' _ n s'' _
  grind [Memory.length_zeroFill, Memory.length_of_writeSlice_range]

theorem copyDataToMemory_keepsMem {source : Bytes} (hs : source.length < 2 ^ 64) :
    KeepsMem (copyDataToMemory source : Exec σ Unit) :=
  fun f hf => wp_mono (copyDataToMemory_keeps hs f) fun _ _ h => ⟨h.1, h.2 ▸ hf⟩

theorem execStackInstruction_keeps (instruction : UInt8) (op : Op) (f : Frame σ) :
    wp (execStackInstruction instruction op : Exec σ Unit)
      (fun _ f' => f'.mem = f.mem ∧ f'.returnData = f.returnData) f := by
  cases op <;> simp [execStackInstruction, wp_ite]

variable (E : Ext σ) {Cost : Type} [CostType Cost]

theorem execPlainInstruction_keepsMem {params : ActionParams} (hd : ShortData E params)
    (sha3 : Bytes → H256) (gas : Cost) (code : Bytes) (instruction : UInt8) (op : Op) :
    KeepsMem (execPlainInstruction E sha3 gas params code instruction op : Exec σ Unit) := by
  cases op with
  | MSTORE | MSTORE8 =>
    intro f hf
    simp only [execPlainInstruction, wp_bind, wp_pop, wp_mem, wp_lift, wp_setMem]
    grind [Memory.length_of_write_eq_ok, Memory.length_of_writeByte_eq_ok]
  | CALLDATACOPY => exact copyDataToMemory_keepsMem hd.data
  | CODECOPY => exact copyDataToMemory_keepsMem hd.code
  | EXTCODECOPY =>
    refine KeepsMem.bind (keepsMem_of_keeps fun f => by simp) fun address => ?_
    refine KeepsMem.bind (keepsMem_of_keeps fun f => by simp) fun s => ?_
    intro f hf
    rw [wp_bind, wp_liftExcept]
    exact fun c hc => copyDataToMemory_keepsMem (hd.extcode _ _ _ hc) f hf
  | RETURNDATACOPY =>
    -- the bytes copied are the return data, which is short
    intro f hf
    simp only [execPlainInstruction, wp_bind, wp_peek, wp_returnData, wp_ite, wp_throw, wp_lift,
      implies_true, true_and]
    intro _ _ _ _ _ d hd'
    exact copyDataToMemory_keepsMem ((deref_length hd').symm ▸ hf) f hf
  | _ =>
    -- the other arms read the memory at most, and leave the return data
    refine keepsMem_of_keeps fun f => ?_
    simp only [execPlainInstruction]
    first
      | exact execStackInstruction_keeps _ _ f
      | simp [wp_ite, Prod.forall]

theorem finishCall_keepsMem {callResult : MessageCallResult}
    (hr : ∀ r ∈ callResult.returnData?, r.size < 2 ^ 64) :
    KeepsMem (finishCall callResult : Exec σ (InstructionResult Cost)) := by
  intro f hf
  cases callResult with
  | success gasLeft data | reverted gasLeft data =>
    simp only [finishCall, wp_bind, wp_push, wp_setReturnData, wp_lift, wp_pure]
    exact fun _ _ => ⟨trivial, hr data rfl⟩
  | failed =>
    simp only [finishCall, wp_bind, wp_push, wp_pure]
    exact ⟨trivial, hf⟩

theorem finishCreate_keepsMem {createResult : ContractCreateResult}
    (hr : ∀ r ∈ createResult.returnData?, r.size < 2 ^ 64) :
    KeepsMem (finishCreate createResult : Exec σ (InstructionResult Cost)) := by
  intro f hf
  cases createResult with
  | created address gasLeft =>
    simp only [finishCreate, wp_bind, wp_push, wp_lift, wp_pure]
    exact fun _ _ => ⟨trivial, hf⟩
  | reverted gasLeft data =>
    simp only [finishCreate, wp_bind, wp_push, wp_setReturnData, wp_lift, wp_pure]
    exact fun _ _ => ⟨trivial, hr data rfl⟩
  | failed =>
    simp only [finishCreate, wp_bind, wp_push, wp_pure]
    exact ⟨trivial, hf⟩
  | failedInStaticCall => exact wp_throw _

/-- `CREATE` reads the init code from memory and writes none. -/
theorem execCreate_keepsMem {params : ActionParams} (hd : ShortData E params) (provided : Option Cost) :
    KeepsMem (execCreate E params provided : Exec σ (InstructionResult Cost)) := by
  intro f hf
  simp only [execCreate, wp_bind, wp_pop, wp_lift, wp_ite, wp_throw, wp_mem, wp_ext, wp_liftExcept,
    wp_setReturnData, wp_push, wp_pure, wp_setExt, implies_true, true_and]
  intro _ _ _ _ _ _ _ _ _ _ _ _ _ _ _ _
  exact ⟨fun _ => size_empty_lt, fun _ => finishCreate_keepsMem (hd.create _ _ _ _) _ size_empty_lt⟩

/-- The parties of a call come from the state of `Ext` alone. -/
theorem callParties_keeps (params : ActionParams) (op : Op) (codeAddress : Address)
    (value : Option U256) (f : Frame σ) :
    wp (callParties E params op codeAddress value) (fun _ f' => f' = f) f := by
  unfold callParties
  simp only [wp_bind, wp_ext]
  split <;> simp [wp_ite]

/-- A call writes its output back into the slice of memory it was given. -/
theorem performCall_keepsMem {params : ActionParams} (hd : ShortData E params) (op : Op) (callGas : Cost)
    (codeAddress : Address) (value : Option U256) (inOff inSize outOff outSize : U256) :
    KeepsMem (performCall E params op callGas codeAddress value inOff inSize outOff outSize) := by
  intro f _
  rw [performCall, wp_bind]
  refine wp_mono (callParties_keeps E params op codeAddress value f) fun parties f₁ hf₁ => ?_
  subst hf₁
  simp only [wp_bind, wp_setReturnData, wp_ite, wp_push, wp_pure, wp_mem, wp_lift, wp_ext, wp_setExt,
    wp_setMem, Prod.forall]
  refine ⟨fun _ => ⟨trivial, size_empty_lt⟩, fun _ _ _ start len hslice => ?_⟩
  refine wp_mono (finishCall_keepsMem (hd.call _ _ _ _ _ _ _ _ _) _ size_empty_lt) fun _ _ h => ⟨?_, h.2⟩
  rw [h.1]
  exact Memory.length_writeBack (Memory.writeableSlice_le hslice)

theorem execCall_keepsMem {params : ActionParams} (hd : ShortData E params) (op : Op)
    (provided : Option Cost) : KeepsMem (execCall E params op provided) := by
  -- the arguments come off the stack; only the call touches the memory
  refine KeepsMem.bind (keepsMem_of_keeps fun f => by simp) fun _ =>
    KeepsMem.bind (keepsMem_of_keeps fun f => by simp) fun _ =>
    KeepsMem.bind (keepsMem_of_keeps fun f => by simp) fun _ =>
    KeepsMem.bind (keepsMem_of_keeps fun f => by simp) fun _ =>
    KeepsMem.bind (keepsMem_of_keeps fun f => by simp [callValue, wp_ite]) fun value => ?_
  refine KeepsMem.bind (keepsMem_of_keeps fun f => by simp) fun _ =>
    KeepsMem.bind (keepsMem_of_keeps fun f => by simp) fun _ =>
    KeepsMem.bind (keepsMem_of_keeps fun f => by simp) fun _ =>
    KeepsMem.bind (keepsMem_of_keeps fun f => by simp) fun _ =>
    KeepsMem.bind (keepsMem_of_keeps fun f => by simp) fun _ => ?_
  exact performCall_keepsMem E hd op _ _ value _ _ _ _

/-- **Frame lemma.** No instruction changes the length of the memory. -/
theorem execInstruction_keepsMem {params : ActionParams} (hd : ShortData E params) (sha3 : Bytes → H256)
    (gas : Cost) (code : Bytes) (instruction : UInt8) (op : Op) (provided : Option Cost) :
    KeepsMem (execInstruction E sha3 gas params code instruction op provided) := by
  cases op with
  | CREATE => exact execCreate_keepsMem E hd provided
  | CALL | CALLCODE | DELEGATECALL | STATICCALL => exact execCall_keepsMem E hd _ provided
  | JUMP | JUMPI | JUMPDEST | RETURN | REVERT | STOP | SUICIDE =>
    exact keepsMem_of_keeps fun f => by simp [execInstruction]
  | _ =>
    simp only [execInstruction]
    exact KeepsMem.bind (execPlainInstruction_keepsMem E hd sha3 gas code instruction _) fun _ =>
      keepsMem_of_keeps fun f => by simp

end Frame

/-! ## The loop -/

section Loop

variable {σ : Type} (E : Ext σ) {Cost : Type} [CostType Cost]

/-- The memory gas the iteration from `m` is charged, as a number; `0` when
the iteration stops before its charge. -/
def memoryChargeAt (code : Bytes) (m : Machine Cost σ) : Nat :=
  let op := decode (code.getD m.frame.position 0)
  match m.gasometer.memoryCharge E m.frame.ext op op.info m.frame.stack m.frame.mem.length with
  | .ok c => value c
  | _ => 0

/-- The invariant of `exec`'s loop: the memory gas prices the memory, and the
return data is short. -/
structure MemInv (m : Machine Cost σ) : Prop where
  priced : MemGasInv E.schedule m.gasometer.currentMemGas m.frame.mem.length
  returnData : m.frame.returnData.size < 2 ^ 64

omit [CostType Cost] in
theorem traceExecutedFrame_keeps {f f' : Frame σ} {gasUsed : U256} {ret : Nat}
    {memWritten : Option (Nat × Nat)} {storeWritten : Option (U256 × U256)}
    (h : traceExecutedFrame E f gasUsed ret memWritten storeWritten = .ok f') :
    f'.mem = f.mem ∧ f'.returnData = f.returnData := by
  simp only [traceExecutedFrame, Outcome.bind_eq_ok] at h
  obtain ⟨_, -, h⟩ := h
  -- only the state of `Ext` records the trace, whatever range of memory it shows
  split at h
  · simp only [Outcome.bind_eq_ok, Outcome.pure_eq, Outcome.ok_bind] at h
    obtain ⟨_, -, hf'⟩ := h
    cases hf'
    exact ⟨rfl, rfl⟩
  · simp only [Outcome.pure_eq, Outcome.ok_bind] at h
    cases h
    exact ⟨rfl, rfl⟩

theorem charge_currentMemGas {g g' : Gasometer Cost} {req : InstructionRequirements Cost}
    (h : g.charge req = .ok g') : g'.currentMemGas = req.memoryTotalGas := by
  simp only [Gasometer.charge, Outcome.bind_eq_ok, Outcome.pure_eq] at h
  obtain ⟨_, -, _, -, hg'⟩ := h
  cases hg'
  rfl

theorem applyUnusedGas_currentMemGas {g g' : Gasometer Cost} {res : InstructionResult Cost}
    (h : g.applyUnusedGas res = .ok g') : g'.currentMemGas = g.currentMemGas := by
  cases res with
  | unusedGas gas =>
    simp only [Gasometer.applyUnusedGas, Outcome.bind_eq_ok, Outcome.pure_eq] at h
    obtain ⟨_, -, hg'⟩ := h
    cases hg'
    rfl
  | _ => cases h; rfl

theorem advance_inl {vjd : List Nat} {f : Frame σ} {g : Gasometer Cost} {res : InstructionResult Cost}
    {m' : Machine Cost σ} (h : advance vjd f g res = .ok (.inl m')) :
    m'.frame.mem = f.mem ∧ m'.frame.returnData = f.returnData ∧ m'.gasometer = g := by
  cases res with
  | jumpToPosition p =>
    simp only [advance, Outcome.bind_eq_ok, Outcome.pure_eq] at h
    obtain ⟨_, -, hm'⟩ := h
    cases hm'
    exact ⟨rfl, rfl, rfl⟩
  | stopExecutionNeedsReturn gas o z a =>
    simp only [advance, Outcome.bind_eq_ok, Outcome.pure_eq] at h
    obtain ⟨_, -, hm'⟩ := h
    cases hm'
  | stopExecution => cases h
  | _ => cases h; exact ⟨rfl, rfl, rfl⟩

variable [LawfulCostType Cost] [LawfulMemoryCost Cost]

omit [LawfulMemoryCost Cost] in
theorem memInv_initial (gas : Cost) (s : σ) : MemInv E (Machine.initial gas s) :=
  ⟨memGasInv_zero value_ofUsize_zero, size_empty_lt⟩

/-- **Step lemma.** An iteration that goes on keeps the invariant, does not
shrink the memory, and raises the memory gas by what it charges for memory. -/
theorem execStep_memInv {params : ActionParams} (hd : ShortData E params)
    (hg : E.schedule.memoryGas < 2 ^ 64) (sha3 : Bytes → H256) (code : Bytes) (vjd : List Nat)
    {m m' : Machine Cost σ} (hinv : MemInv E m) (h : execStep E sha3 params code vjd m = .ok (.inl m')) :
    MemInv E m' ∧ m.frame.mem.length ≤ m'.frame.mem.length ∧
      value m'.gasometer.currentMemGas = value m.gasometer.currentMemGas + memoryChargeAt E code m := by
  simp only [execStep] at h
  split at h
  · simp only [Outcome.bind_eq_ok, Outcome.ofExcept_eq_ok] at h
    obtain ⟨_, -, req, hreq, g1, hg1, _, -, ⟨res, f'⟩, hexec, g2, hg2, f'', hf'', hadv⟩ := h
    obtain ⟨hpriced, c, hc, hrise, -⟩ := Gasometer.requirements_memory hg hinv.priced hreq
    -- the instruction keeps the memory as `expand` left it
    obtain ⟨hlen, hrd⟩ :=
      (execInstruction_keepsMem E hd sha3 g1.currentGas code _ _ _).apply hexec hinv.returnData
    -- the trace records into the state of `Ext` only
    have htrace : f''.mem = f'.mem ∧ f''.returnData = f'.returnData := by
      split at hf''
      · exact traceExecutedFrame_keeps E hf''
      · cases hf''
        exact ⟨rfl, rfl⟩
    obtain ⟨hmem, hret, hgas⟩ := advance_inl hadv
    have hmem' : m'.frame.mem.length = max m.frame.mem.length req.memoryRequiredSize := by
      rw [hmem, htrace.1, hlen]
      exact Memory.length_expand _ _
    have hmemGas : m'.gasometer.currentMemGas = req.memoryTotalGas := by
      rw [hgas, applyUnusedGas_currentMemGas hg2, charge_currentMemGas hg1]
    have hcharge : memoryChargeAt E code m = value c := by
      simp only [memoryChargeAt, hc]
    refine ⟨⟨?_, ?_⟩, ?_, ?_⟩
    · rw [hmemGas, hmem']
      exact hpriced
    · rw [hret, htrace.2]
      exact hrd
    · rw [hmem']
      exact Nat.le_max_left _ _
    · rw [hmemGas, hcharge]
      omega
  · cases h

/-- **Memory gas over a run.** From the machine `exec` starts its loop
with: at every iteration the memory is a whole number of words and
`current_mem_gas` is `memoryCost memory_gas w` of its `w` words; the price
of any larger memory is at least `current_mem_gas`, so the subtraction of
`mem_gas_cost` never underflows; and the memory gas charged over a run adds
up to the price of the memory it reached, which no machine before it on the
run exceeds. -/
theorem exec_memory_gas {params : ActionParams} (hd : ShortData E params)
    (hg : E.schedule.memoryGas < 2 ^ 64) (sha3 : Bytes → H256) (code : Bytes) (gas : Cost) (s : σ) :
    (∀ m, Reach (execStep E sha3 params code (findJumpDestinations code)) (Machine.initial gas s) m →
      m.frame.mem.length % 32 = 0 ∧
        value m.gasometer.currentMemGas = memoryCost E.schedule.memoryGas (m.frame.mem.length / 32)) ∧
    (∀ m, Reach (execStep E sha3 params code (findJumpDestinations code)) (Machine.initial gas s) m →
      ∀ size n : Cost, m.frame.mem.length < value size → Gasometer.gasForMem E.schedule size = .ok n →
        value m.gasometer.currentMemGas ≤ value n) ∧
    (∀ m total, ReachSum (execStep E sha3 params code (findJumpDestinations code))
        (memoryChargeAt E code) (Machine.initial gas s) m total →
      total = memoryCost E.schedule.memoryGas (m.frame.mem.length / 32) ∧
        ∀ u, Reach (execStep E sha3 params code (findJumpDestinations code)) (Machine.initial gas s) u →
          Reach (execStep E sha3 params code (findJumpDestinations code)) u m →
          u.frame.mem.length ≤ m.frame.mem.length) := by
  -- the run invariant
  have hinv : ∀ m, Reach (execStep E sha3 params code (findJumpDestinations code))
      (Machine.initial gas s) m → MemInv E m :=
    fun m hm => hm.rec_inv (memInv_initial E gas s) fun _ _ _ hu hst =>
      (execStep_memInv E hd hg sha3 code _ hu hst).1
  refine ⟨fun m hm => ⟨(hinv m hm).priced.words, (hinv m hm).priced.price⟩,
    fun m hm size n hlt hn => Gasometer.currentMemGas_le_gasForMem hg (hinv m hm).priced hlt hn,
    fun m total hm => ⟨?_, fun u hu hum => ?_⟩⟩
  -- each iteration raises the memory gas by its charge, from nothing
  · have hsum := hm.telescope (μ := fun m => value m.gasometer.currentMemGas)
      fun u _ hu hst => (execStep_memInv E hd hg sha3 code _ (hinv u hu) hst).2.2
    have hzero : value (Machine.initial gas s).gasometer.currentMemGas = 0 := value_ofUsize_zero
    rw [hzero, Nat.zero_add] at hsum
    rw [← hsum]
    exact (hinv m hm.reach).priced.price
  -- the memory never shrinks
  · exact Reach.mono (μ := fun m => m.frame.mem.length)
      (fun v _ hv hst => (execStep_memInv E hd hg sha3 code _ (hinv v hv) hst).2.1) hu hum

/-- The externalities with no world behind them hand back no byte strings. -/
theorem Ext.inert_shortData {params : ActionParams} (hdata : (params.data.getD []).length < 2 ^ 64)
    (hcode : (params.code.getD []).length < 2 ^ 64) : ShortData Ext.inert params where
  data := hdata
  code := hcode
  extcode _ _ c h := by
    cases h
    exact Nat.two_pow_pos 64
  create _ _ _ _ r h := by cases h
  call _ _ _ _ _ _ _ _ _ r h := by cases h

/-- A message call that runs `PUSH1 42; PUSH1 0; MSTORE; STOP` with 100
gas: the store takes the memory to one word, and the run ends with 88. -/
def ActionParams.storeWord : ActionParams :=
  ⟨0, 0, 0, 0, 0, 100, 0, .transfer 0, some [0x60, 0x2a, 0x60, 0x00, 0x52, 0x00], none, .none⟩

theorem exec_memory_gas_storeWord :
    (∀ m, Reach (execStep Ext.inert (fun _ => 0) ActionParams.storeWord [0x60, 0x2a, 0x60, 0x00, 0x52, 0x00]
          (findJumpDestinations [0x60, 0x2a, 0x60, 0x00, 0x52, 0x00])) (Machine.initial (100 : Usize) ()) m →
        m.frame.mem.length % 32 = 0 ∧
          value m.gasometer.currentMemGas = memoryCost Ext.inert.schedule.memoryGas (m.frame.mem.length / 32)) ∧
    (∀ m, Reach (execStep Ext.inert (fun _ => 0) ActionParams.storeWord [0x60, 0x2a, 0x60, 0x00, 0x52, 0x00]
          (findJumpDestinations [0x60, 0x2a, 0x60, 0x00, 0x52, 0x00])) (Machine.initial (100 : Usize) ()) m →
        ∀ size n : Usize, m.frame.mem.length < value size →
          Gasometer.gasForMem Ext.inert.schedule size = .ok n → value m.gasometer.currentMemGas ≤ value n) ∧
    (∀ m total, ReachSum (execStep Ext.inert (fun _ => 0) ActionParams.storeWord [0x60, 0x2a, 0x60, 0x00, 0x52, 0x00]
          (findJumpDestinations [0x60, 0x2a, 0x60, 0x00, 0x52, 0x00])) (memoryChargeAt Ext.inert [0x60, 0x2a, 0x60, 0x00, 0x52, 0x00])
          (Machine.initial (100 : Usize) ()) m total →
        total = memoryCost Ext.inert.schedule.memoryGas (m.frame.mem.length / 32) ∧
          ∀ u, Reach (execStep Ext.inert (fun _ => 0) ActionParams.storeWord [0x60, 0x2a, 0x60, 0x00, 0x52, 0x00]
              (findJumpDestinations [0x60, 0x2a, 0x60, 0x00, 0x52, 0x00])) (Machine.initial (100 : Usize) ()) u →
            Reach (execStep Ext.inert (fun _ => 0) ActionParams.storeWord [0x60, 0x2a, 0x60, 0x00, 0x52, 0x00]
              (findJumpDestinations [0x60, 0x2a, 0x60, 0x00, 0x52, 0x00])) u m →
            u.frame.mem.length ≤ m.frame.mem.length) :=
  exec_memory_gas Ext.inert (Ext.inert_shortData (by decide) (by decide)) (by decide) (fun _ => 0)
    [0x60, 0x2a, 0x60, 0x00, 0x52, 0x00] (100 : Usize) ()

end Loop

end Cita
