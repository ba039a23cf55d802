import Cita.Evm.Interpreter
import Mathlib.Order.Monotone.Basic
import Mathlib.Data.FinEnum

/-!
# Reading the code: instruction boundaries, jump destinations, `PUSH`

The interpreter reads the code linearly from position 0: an instruction
byte, then, for `PUSHn`, its `n` immediate bytes (`CodeReader::read`).
The positions this reading visits are the instruction boundaries
(`boundary`), and `nextInstruction` is one step of it.

`SharedCache::find_jump_destinations` walks the same boundaries and keeps
those that hold `JUMPDEST` (`mem_findJumpDestinations_iff`); `verify_jump`
accepts exactly the words that are such a position and fit a `usize`
(`verifyJump_findJumpDestinations`); and the cache in front of the
analysis returns what the analysis computes for every code whose hash no
other code seen shares (`jumpDestinations_cached`).

`CodeReader::read` takes the immediate bytes that are there: a `PUSHn`
whose immediate runs past the end of the code pushes the big-endian value
of the bytes it has, without zeros after them (`execPlainInstruction_push`).
-/

namespace Cita

/-! ## The linear reading of the code -/

/-- The number of immediate bytes after an instruction: `get_push_bytes`
for a `PUSH`, none for the others. -/
def Op.immediates : Op → Nat
  | .PUSH n => n
  | _ => 0

/-- The position of the instruction after the one at `p`. -/
def nextInstruction (code : Bytes) (p : Nat) : Nat :=
  p + 1 + (decode (code.getD p 0)).immediates

/-- The `i`th instruction boundary of the reading from position 0. -/
def boundary (code : Bytes) (i : Nat) : Nat := (nextInstruction code)^[i] 0

theorem boundary_succ (code : Bytes) (i : Nat) :
    boundary code (i + 1) = nextInstruction code (boundary code i) :=
  Function.iterate_succ_apply' _ _ _

theorem boundary_strictMono (code : Bytes) : StrictMono (boundary code) :=
  strictMono_nat_of_lt_succ fun i => by
    rw [boundary_succ, nextInstruction]
    omega

/-- A position is a boundary of the reading. -/
def IsBoundary (code : Bytes) (p : Nat) : Prop := ∃ i, boundary code i = p

/-! ## `find_jump_destinations` -/

/-- What the scan knows after the first `k` bytes: `next` is the first
boundary at or after `k`, and the destinations found are the boundaries
below `k` that hold `JUMPDEST`. -/
def ScanInv (code : Bytes) (k : Nat) (acc : List Nat × Nat) : Prop :=
  (∃ i, boundary code i = acc.2 ∧ ∀ j < i, boundary code j < k) ∧ k ≤ acc.2 ∧
    ∀ q, q ∈ acc.1 ↔ q < k ∧ IsBoundary code q ∧ decode (code.getD q 0) = .JUMPDEST

theorem scanInv_zero (code : Bytes) : ScanInv code 0 ([], 0) :=
  ⟨⟨0, rfl, fun _ h => absurd h (Nat.not_lt_zero _)⟩, le_refl 0, fun q => by simp⟩

/-- A position below the next boundary that is not below `k` is no boundary. -/
theorem not_isBoundary_of_lt {code : Bytes} {k i : Nat} (hbefore : ∀ j < i, boundary code j < k)
    (hlt : k < boundary code i) : ¬IsBoundary code k := by
  rintro ⟨j, rfl⟩
  have hji : j < i := (boundary_strictMono code).lt_iff_lt.mp hlt
  exact Nat.lt_irrefl _ (hbefore j hji)

/-- One byte of the scan keeps the invariant. -/
theorem ScanInv.step {code : Bytes} {k : Nat} {acc : List Nat × Nat} (h : ScanInv code k acc)
    (hk : k < code.length) : ScanInv code (k + 1) (jumpScanStep acc (code.getD k 0, k)) := by
  obtain ⟨dests, next⟩ := acc
  obtain ⟨⟨i, hi, hbefore⟩, hle, hmem⟩ := h
  simp only at hi hle hmem
  rcases Nat.lt_or_ge k next with hlt | hge
  · -- inside the immediate bytes of a `PUSH`: nothing changes
    have hnot := not_isBoundary_of_lt hbefore (hi ▸ hlt)
    simp only [jumpScanStep, if_pos hlt]
    refine ⟨⟨i, hi, fun j hj => Nat.lt_succ_of_lt (hbefore j hj)⟩, by omega, fun q => ?_⟩
    rw [hmem q]
    constructor
    · rintro ⟨hq, hb, hd⟩
      exact ⟨by omega, hb, hd⟩
    · rintro ⟨hq, hb, hd⟩
      rcases Nat.lt_or_ge q k with hq' | hq'
      · exact ⟨hq', hb, hd⟩
      · exact absurd (show q = k by omega ▸ hb) hnot
  · -- at the boundary `next = k`: the scan moves to the next one
    have hk' : next = k := by omega
    subst hk'
    have hnext : boundary code (i + 1) = nextInstruction code next := by rw [boundary_succ, hi]
    have hbefore' : ∀ j < i + 1, boundary code j < next + 1 := fun j hj => by
      rcases Nat.lt_or_ge j i with hj' | hj'
      · exact Nat.lt_succ_of_lt (hbefore j hj')
      · rw [show j = i by omega, hi]
        exact Nat.lt_succ_self _
    have hmem' : ∀ q, q < next ∧ IsBoundary code q ∧ decode (code.getD q 0) = .JUMPDEST ∨
        q = next ∧ decode (code.getD next 0) = .JUMPDEST ↔
        q < next + 1 ∧ IsBoundary code q ∧ decode (code.getD q 0) = .JUMPDEST := fun q => by
      constructor
      · rintro (⟨hq, hb, hd⟩ | ⟨rfl, hd⟩)
        · exact ⟨by omega, hb, hd⟩
        · exact ⟨by omega, ⟨i, hi⟩, hd⟩
      · rintro ⟨hq, hb, hd⟩
        rcases Nat.lt_or_ge q next with hq' | hq'
        · exact .inl ⟨hq', hb, hd⟩
        · exact .inr ⟨by omega, by rw [show q = next by omega] at hd; exact hd⟩
    simp only [jumpScanStep, Nat.lt_irrefl, if_false]
    split
    · -- `JUMPDEST`: a destination
      rename_i hop
      refine ⟨⟨i + 1, by rw [hnext, nextInstruction, hop]; rfl, hbefore'⟩, by omega, fun q => ?_⟩
      rw [← hmem', List.mem_append, hmem q, List.mem_singleton]
      constructor
      · rintro (h | rfl)
        · exact .inl h
        · exact .inr ⟨rfl, hop⟩
      · rintro (h | ⟨rfl, -⟩)
        · exact .inl h
        · exact .inr rfl
    · -- `PUSHn`: skip its immediate bytes
      rename_i n hop
      have hnd : decode (code.getD next 0) ≠ .JUMPDEST := by
        rw [hop]
        exact fun h => Op.noConfusion h
      refine ⟨⟨i + 1, by rw [hnext, nextInstruction, hop, Op.immediates]; omega, hbefore'⟩, by omega,
        fun q => ?_⟩
      rw [← hmem', hmem q, or_iff_left fun h => hnd h.2]
    · -- any other instruction
      rename_i hjump hpush
      have himm : (decode (code.getD next 0)).immediates = 0 := by
        cases hop : decode (code.getD next 0) with
        | PUSH n => exact absurd hop (hpush n)
        | _ => rfl
      refine ⟨⟨i + 1, by rw [hnext, nextInstruction, himm], hbefore'⟩, by omega, fun q => ?_⟩
      rw [← hmem', hmem q, or_iff_left fun h => hjump h.2]

/-- The whole scan: after `k` bytes the invariant holds, by induction on `k`
with `ScanInv.step`. -/
theorem scanInv_foldl (code : Bytes) :
    ∀ k ≤ code.length, ScanInv code k ((code.zipIdx.take k).foldl jumpScanStep ([], 0))
  | 0, _ => scanInv_zero code
  | k + 1, hk => by
    have hget : code.zipIdx[k]? = some (code.getD k 0, k) := by
      rw [List.getElem?_zipIdx, List.getD_eq_getElem?_getD, List.getElem?_eq_getElem (by omega)]
      simp
    rw [List.take_add_one, hget, Option.toList_some, List.foldl_append, List.foldl_cons,
      List.foldl_nil]
    exact (scanInv_foldl code k (by omega)).step (by omega)

/-- `instructions::JUMPDEST` is the byte `0x5b`. -/
theorem decode_eq_JUMPDEST_iff (b : UInt8) : decode b = .JUMPDEST ↔ b = 0x5b := by
  revert b
  decide +kernel

/-- `find_jump_destinations` finds the boundaries of the reading that hold `JUMPDEST`. -/
theorem mem_findJumpDestinations_iff {code : Bytes} {p : Nat} :
    p ∈ findJumpDestinations code ↔ IsBoundary code p ∧ code[p]? = some 0x5b := by
  obtain ⟨-, -, hmem⟩ := scanInv_foldl code code.length (le_refl _)
  rw [List.take_of_length_le (by simp)] at hmem
  rw [findJumpDestinations, hmem p]
  constructor
  · rintro ⟨hp, hb, hd⟩
    rw [List.getD_eq_getElem?_getD, List.getElem?_eq_getElem hp, Option.getD_some,
      decode_eq_JUMPDEST_iff] at hd
    exact ⟨hb, by rw [List.getElem?_eq_getElem hp, hd]⟩
  · rintro ⟨hb, hd⟩
    have hp : p < code.length := (List.getElem?_eq_some_iff.mp hd).1
    refine ⟨hp, hb, ?_⟩
    rw [List.getD_eq_getElem?_getD, hd, Option.getD_some, decode_eq_JUMPDEST_iff]

/-! ## `verify_jump` -/

/-- A word is the whole of its `low_u64` exactly when it fits in 64 bits. -/
theorem ofNat_lowU64_eq_iff (t : U256) : BitVec.ofNat 256 (lowU64 t) = t ↔ t.toNat < 2 ^ 64 := by
  constructor
  · intro h
    rw [← h, BitVec.toNat_ofNat]
    exact lt_of_le_of_lt (Nat.mod_le _ _) (Nat.mod_lt _ (by decide))
  · intro h
    rw [lowU64, Nat.mod_eq_of_lt h, BitVec.ofNat_toNat, BitVec.setWidth_eq]

/-- `verify_jump` takes a word that is the whole of its `low_u64` and is a destination. -/
theorem verifyJump_eq_ok_iff {t : U256} {dests : List Nat} {p : Nat} :
    verifyJump t dests = .ok p ↔ t.toNat < 2 ^ 64 ∧ t.toNat ∈ dests ∧ p = t.toNat := by
  unfold verifyJump
  dsimp only
  split
  · rename_i hok
    rw [Bool.and_eq_true, List.contains_iff_mem, beq_iff_eq, ofNat_lowU64_eq_iff] at hok
    have hlow : lowU64 t = t.toNat := Nat.mod_eq_of_lt hok.2
    rw [hlow] at hok ⊢
    constructor
    · intro h
      exact ⟨hok.2, hok.1, (Except.ok.inj h).symm⟩
    · rintro ⟨-, -, rfl⟩
      rfl
  · -- the check failed: a fitting destination would have passed it
    rename_i hfail
    refine iff_of_false (fun h => by cases h) ?_
    rintro ⟨hfit, hmem, -⟩
    have hlow : lowU64 t = t.toNat := Nat.mod_eq_of_lt hfit
    apply hfail
    rw [Bool.and_eq_true, List.contains_iff_mem, beq_iff_eq, ofNat_lowU64_eq_iff, hlow]
    exact ⟨hmem, hfit⟩

theorem verifyJump_findJumpDestinations {code : Bytes} {t : U256} {p : Nat} :
    verifyJump t (findJumpDestinations code) = .ok p ↔
      t.toNat < 2 ^ 64 ∧ IsBoundary code t.toNat ∧ code[t.toNat]? = some 0x5b ∧ p = t.toNat := by
  rw [verifyJump_eq_ok_iff, mem_findJumpDestinations_iff, and_assoc]

/-! ## `SharedCache::jump_destinations` -/

/-- The cache of `SharedCache`: code hashes with the destinations found for
them, most recent first. -/
abbrev JumpCache := List (H256 × List Nat)

/-- `SharedCache::jump_destinations`: the code of the empty hash is analysed
each time; any other hash is looked up first, and on a miss the code is
analysed and the result inserted. -/
def jumpDestinations (sha3 : Bytes → H256) (cache : JumpCache) (codeHash : H256) (code : Bytes) :
    List Nat × JumpCache :=
  if codeHash = sha3 [] then (findJumpDestinations code, cache)
  else
    match cache.lookup codeHash with
    | some d => (d, cache)
    | none =>
        let d := findJumpDestinations code
        (d, (codeHash, d) :: cache)

/-- The caches a run of calls can leave, with the codes it was called on:
each call passes the hash of its code, and `MemoryLruCache` may evict any
entries between calls. -/
inductive CacheReach (sha3 : Bytes → H256) : List Bytes → JumpCache → Prop
  | empty : CacheReach sha3 [] []
  | call {seen cache} (code : Bytes) :
      CacheReach sha3 seen cache →
        CacheReach sha3 (code :: seen) (jumpDestinations sha3 cache (sha3 code) code).2
  | evict {seen cache cache'} : CacheReach sha3 seen cache → cache' ⊆ cache →
      CacheReach sha3 seen cache'

theorem mem_of_lookup_eq_some {κ ν : Type} [BEq κ] [LawfulBEq κ] :
    ∀ {l : List (κ × ν)} {k : κ} {v : ν}, l.lookup k = some v → (k, v) ∈ l
  | [], _, _, h => by cases h
  | (k', v') :: l, k, v, h => by
    by_cases hk : k = k'
    · subst hk
      rw [List.lookup_cons_self, Option.some.injEq] at h
      rw [h]
      exact List.mem_cons_self
    · rw [List.lookup_cons, (beq_eq_false_iff_ne.mpr hk)] at h
      exact List.mem_cons_of_mem _ (mem_of_lookup_eq_some h)

/-- Every entry of the cache is the analysis of a code of its hash that was seen. -/
def CacheInv (sha3 : Bytes → H256) (seen : List Bytes) (cache : JumpCache) : Prop :=
  ∀ e ∈ cache, ∃ c ∈ seen, e = (sha3 c, findJumpDestinations c)

theorem CacheInv.mono {sha3 : Bytes → H256} {seen seen' : List Bytes} {cache cache' : JumpCache}
    (h : CacheInv sha3 seen cache) (hseen : seen ⊆ seen') (hcache : cache' ⊆ cache) :
    CacheInv sha3 seen' cache' := fun e he => by
  obtain ⟨c, hc, rfl⟩ := h e (hcache he)
  exact ⟨c, hseen hc, rfl⟩

/-- One call keeps the invariant: a miss inserts the analysis of the code it
was called with. -/
theorem CacheInv.call {sha3 : Bytes → H256} {seen : List Bytes} {cache : JumpCache}
    (h : CacheInv sha3 seen cache) (code : Bytes) :
    CacheInv sha3 (code :: seen) (jumpDestinations sha3 cache (sha3 code) code).2 := by
  have hold : CacheInv sha3 (code :: seen) cache :=
    h.mono (List.subset_cons_self _ _) (List.Subset.refl _)
  unfold jumpDestinations
  split
  · exact hold
  · split
    · exact hold
    · intro e he
      rcases List.mem_cons.mp he with rfl | he
      · exact ⟨code, List.mem_cons_self, rfl⟩
      · exact hold e he

theorem CacheReach.inv {sha3 : Bytes → H256} {seen : List Bytes} {cache : JumpCache}
    (h : CacheReach sha3 seen cache) : CacheInv sha3 seen cache := by
  induction h with
  | empty => exact fun e he => absurd he List.not_mem_nil
  | call code _ ih => exact ih.call code
  | evict _ hsub ih => exact ih.mono (List.Subset.refl _) hsub

/-- A hit returns what the analysis computes, when no code seen with the same
hash has other destinations. -/
theorem jumpDestinations_cached {sha3 : Bytes → H256} {seen : List Bytes} {cache : JumpCache}
    (h : CacheInv sha3 seen cache) (code : Bytes)
    (hfresh : ∀ c ∈ seen, sha3 c = sha3 code → findJumpDestinations c = findJumpDestinations code) :
    (jumpDestinations sha3 cache (sha3 code) code).1 = findJumpDestinations code := by
  unfold jumpDestinations
  split
  · rfl
  · split
    · rename_i d hd
      obtain ⟨c, hc, he⟩ := h _ (mem_of_lookup_eq_some hd)
      rw [Prod.mk.injEq] at he
      rw [he.2]
      exact hfresh c hc he.1.symm
    · rfl

/-- The analysis finds the boundaries holding `JUMPDEST`, `verify_jump`
accepts exactly those words, and the cache returns the analysis of the code
after any run of calls in which no other code had the same hash. -/
theorem jumpDestinations_spec (sha3 : Bytes → H256) (code : Bytes) :
    (∀ p, p ∈ findJumpDestinations code ↔ IsBoundary code p ∧ code[p]? = some 0x5b) ∧
    (∀ t p, verifyJump t (findJumpDestinations code) = .ok p ↔
      t.toNat < 2 ^ 64 ∧ IsBoundary code t.toNat ∧ code[t.toNat]? = some 0x5b ∧ p = t.toNat) ∧
    (∀ seen cache, CacheReach sha3 seen cache → (∀ c ∈ seen, sha3 c = sha3 code → c = code) →
      (jumpDestinations sha3 cache (sha3 code) code).1 = findJumpDestinations code) := by
  refine ⟨fun p => mem_findJumpDestinations_iff, fun t p => verifyJump_findJumpDestinations, ?_⟩
  intro seen cache hreach hfresh
  exact jumpDestinations_cached hreach.inv code fun c hc hhash => by rw [hfresh c hc hhash]

/-- `PUSH1 0x5b; JUMPDEST` under a hash that is the length: the analysis
cached by the first call is what a second call returns. -/
theorem jumpDestinations_spec_cacheHit :
    CacheReach (fun b : Bytes => BitVec.ofNat 256 b.length) [[0x60, 0x5b, 0x5b]]
        (jumpDestinations (fun b : Bytes => BitVec.ofNat 256 b.length) [] ((fun b : Bytes => BitVec.ofNat 256 b.length) [0x60, 0x5b, 0x5b]) [0x60, 0x5b, 0x5b]).2 ∧
      (∀ c ∈ [[0x60, 0x5b, 0x5b]], (fun b : Bytes => BitVec.ofNat 256 b.length) c = (fun b : Bytes => BitVec.ofNat 256 b.length) [0x60, 0x5b, 0x5b] → c = [0x60, 0x5b, 0x5b]) ∧
      (jumpDestinations (fun b : Bytes => BitVec.ofNat 256 b.length) (jumpDestinations (fun b : Bytes => BitVec.ofNat 256 b.length) [] ((fun b : Bytes => BitVec.ofNat 256 b.length) [0x60, 0x5b, 0x5b]) [0x60, 0x5b, 0x5b]).2
          ((fun b : Bytes => BitVec.ofNat 256 b.length) [0x60, 0x5b, 0x5b]) [0x60, 0x5b, 0x5b]).1 = findJumpDestinations [0x60, 0x5b, 0x5b] := by
  have hreach : CacheReach (fun b : Bytes => BitVec.ofNat 256 b.length) [[0x60, 0x5b, 0x5b]]
      (jumpDestinations (fun b : Bytes => BitVec.ofNat 256 b.length) [] ((fun b : Bytes => BitVec.ofNat 256 b.length) [0x60, 0x5b, 0x5b]) [0x60, 0x5b, 0x5b]).2 := .call _ .empty
  have hfresh : ∀ c ∈ [[0x60, 0x5b, 0x5b]], (fun b : Bytes => BitVec.ofNat 256 b.length) c = (fun b : Bytes => BitVec.ofNat 256 b.length) [0x60, 0x5b, 0x5b] → c = [0x60, 0x5b, 0x5b] :=
    fun c hc _ => List.mem_singleton.mp hc
  exact ⟨hreach, hfresh, (jumpDestinations_spec (fun b : Bytes => BitVec.ofNat 256 b.length) [0x60, 0x5b, 0x5b]).2.2 _ _ hreach hfresh⟩

/-! ## `PUSHn` and `CodeReader::read` -/

/-- `CodeReader::read` from a position in the code: the bytes from there, at
most `n` of them, as a big-endian number, and the position `n` further on. -/
theorem codeRead_eq {code : Bytes} {p n : Nat} (hp : p ≤ code.length) (hn : n ≤ 32) :
    codeRead code p n = .ok (BitVec.ofNat 256 (Word.bytesValue ((code.drop p).take n)), p + n) := by
  have hrange : Slice.range code p (min (p + n) code.length) =
      (.ok ((code.drop p).take n) : Outcome Error Bytes) := by
    rw [Slice.range_ok (by omega) (Nat.min_le_right _ _)]
    congr 1
    rw [List.take_eq_take_iff, List.length_drop]
    omega
  have hlen : ((code.drop p).take n).length ≤ 32 := by
    rw [List.length_take]
    omega
  simp only [codeRead, hrange, Outcome.ok_bind, u256FromBytes, if_pos hlen, Outcome.pure_eq]

section Push

variable {σ : Type} (E : Ext σ) {Cost : Type} [CostType Cost]

/-- `PUSHn` pushes the immediate bytes that are in the code and moves the
position past all `n` of them. -/
theorem execPlainInstruction_push (sha3 : Bytes → H256) (gas : Cost) (params : ActionParams)
    (code : Bytes) (instruction : UInt8) (n : Nat) (f : Frame σ) (hp : f.position ≤ code.length)
    (hn : n ≤ 32) :
    (execPlainInstruction E sha3 gas params code instruction (.PUSH n)).run f =
      .ok ((), { f with
        stack := BitVec.ofNat 256 (Word.bytesValue ((code.drop f.position).take n)) :: f.stack,
        position := f.position + n }) := by
  obtain ⟨m, r, s, pos, e⟩ := f
  simp only [execPlainInstruction, StateT.run_bind, Exec.run_position, Outcome.ok_bind,
    StateT.run_lift, codeRead_eq hp hn, Exec.run_setPosition, Exec.run_push]
  rfl

end Push

/-- A `PUSHn` whose immediate runs past the end of the code: the value read
is that of the bytes there, and the value of the same bytes followed by
zeros up to `n` is that times `256` for each zero. -/
theorem codeRead_past_end {code : Bytes} {p n : Nat} (hp : p ≤ code.length) (hn : n ≤ 32)
    (hpast : code.length < p + n) :
    codeRead code p n = .ok (BitVec.ofNat 256 (Word.bytesValue (code.drop p)), p + n) ∧
      Word.bytesValue (code.drop p ++ List.replicate (p + n - code.length) 0) =
        Word.bytesValue (code.drop p) * 256 ^ (p + n - code.length) := by
  refine ⟨?_, Word.bytesValue_append_zeros _ _⟩
  rw [codeRead_eq hp hn, List.take_of_length_le (by rw [List.length_drop]; omega)]

/-- `PUSH2 0x12`, with 100 gas: the second immediate byte of the `PUSH2` is
past the end of the code. -/
def ActionParams.truncatedPush : ActionParams :=
  ⟨0, 0, 0, 0, 0, 100, 0, .transfer 0, some [0x61, 0x12], none, .none⟩

/-- The truncated `PUSH2 0x12` pushes `0x12`, the value of the one byte
there, not `0x1200`, and the run continues at position 3. -/
theorem push_past_end_not_padded :
    ∃ m : Machine U256 Unit, execStep Ext.inert (fun _ => 0) ActionParams.truncatedPush [0x61, 0x12]
        (findJumpDestinations [0x61, 0x12]) (Machine.initial (100 : U256) ()) = .ok (.inl m) ∧
      m.frame.stack = [0x12] ∧ m.frame.stack ≠ [0x1200] ∧ m.frame.position = 3 :=
  ⟨_, rfl, rfl, by decide, rfl⟩

end Cita
