import Cita.Lib.FunMap

/-!
# Journals: checkpoints that record what they restore

A journal keeps, for each open checkpoint, the old value of every key
changed since it was taken (`κ → Option ν`), the innermost checkpoint
first. Reverting a checkpoint puts its records back (`restore`, where
`read` says how a record reads) and leaves the other keys as they are;
`restoreAll` lists what each checkpoint restores, reverting them in turn
from the innermost.

Discarding the innermost checkpoint merges its records into the next one,
whose own records win (`mergeTop`): the merged checkpoint restores what the
two restored in turn (`restore_merge`). A change that first records the old
value of its key, unless the key is recorded already, leaves what every
checkpoint restores as it was (`restore_orInsert`).

So a journal refines a stack of saved values (`Journal`, and `Refines` with
its rules): `checkpoint` pushes the current value, `discard` drops the
innermost saved value and `revert` makes it current again.

A revert that merges a record into the value present, rather than putting
it in place, needs that value to be there: `Grows` says that whatever a
checkpoint records as present is present in what it is restored over, and
every operation of a journal keeps it.
-/

namespace Cita

variable {κ ν ρ δ τ : Type}

/-- What reverting a checkpoint `c` leaves: a recorded key reads its record,
another key reads as now. -/
def restore (read : ν → ρ) (c : κ → Option ν) (cur : κ → ρ) : κ → ρ :=
  fun k => (c k).elim (cur k) read

/-- What each checkpoint of a stack restores, innermost first, reverting
them in turn. -/
def restoreAll (read : ν → ρ) : List (κ → Option ν) → (κ → ρ) → List (κ → ρ)
  | [], _ => []
  | c :: cs, cur => restore read c cur :: restoreAll read cs (restore read c cur)

/-- `discard`: the innermost checkpoint merged into the next one, whose
records win; the last one is dropped. -/
def mergeTop : List (κ → Option ν) → List (κ → Option ν)
  | c :: prev :: cs => FunMap.merge prev c :: cs
  | [_] => []
  | [] => []

section Restore

variable {read : ν → ρ}

@[simp] theorem restore_empty (cur : κ → ρ) : restore read (fun _ => none) cur = cur := rfl

theorem restore_of_none {c : κ → Option ν} {k : κ} (cur : κ → ρ) (h : c k = none) :
    restore read c cur k = cur k := by
  simp [restore, h]

theorem restore_of_some {c : κ → Option ν} {k : κ} {r : ν} (cur : κ → ρ) (h : c k = some r) :
    restore read c cur k = read r := by
  simp [restore, h]

@[simp] theorem restoreAll_nil (cur : κ → ρ) : restoreAll read [] cur = [] := rfl

@[simp] theorem length_restoreAll (cs : List (κ → Option ν)) (cur : κ → ρ) :
    (restoreAll read cs cur).length = cs.length := by
  induction cs generalizing cur with
  | nil => rfl
  | cons c cs ih => simp [restoreAll, ih]

/-- Discarding a checkpoint: the merged checkpoint restores what the two
restored in turn. -/
theorem restore_merge (prev c : κ → Option ν) (cur : κ → ρ) :
    restore read (FunMap.merge prev c) cur = restore read prev (restore read c cur) := by
  funext k
  cases hp : prev k with
  | some r => simp [restore, hp]
  | none => simp [restore, hp]

/-- A record of a checkpoint after a discard is a record of a checkpoint
before it. -/
theorem exists_of_mem_mergeTop {cs : List (κ → Option ν)} {c' : κ → Option ν} (h : c' ∈ mergeTop cs)
    {k : κ} {r : ν} (hk : c' k = some r) : ∃ c ∈ cs, c k = some r := by
  match cs, h with
  | c :: prev :: cs, h =>
    rcases List.mem_cons.mp h with rfl | h
    · -- the merged checkpoint keeps the record of `prev`, or else the one of `c`
      rw [FunMap.merge_apply] at hk
      cases hp : prev k with
      | some r' =>
        rw [hp, Option.some_or] at hk
        exact ⟨prev, by simp, hp.trans hk⟩
      | none =>
        rw [hp, Option.none_or] at hk
        exact ⟨c, by simp, hk⟩
    · exact ⟨c', by simp [h], hk⟩
  | [_], h => simp [mergeTop] at h
  | [], h => simp [mergeTop] at h

theorem restoreAll_mergeTop (cs : List (κ → Option ν)) (cur : κ → ρ) :
    restoreAll read (mergeTop cs) cur = (restoreAll read cs cur).tail := by
  match cs with
  | c :: prev :: cs => simp only [mergeTop, restoreAll, restore_merge, List.tail_cons]
  | [_] => rfl
  | [] => rfl

/-! ## The stack of saved values a journal refines -/

/-- The current value and the values the open checkpoints saved, innermost
first. -/
structure Journal (τ : Type) where
  current : τ
  saved : List τ

namespace Journal

/-- A checkpoint saves the current value. -/
def checkpoint (j : Journal τ) : Journal τ := ⟨j.current, j.current :: j.saved⟩

/-- Discarding the innermost checkpoint forgets what it saved. -/
def discard (j : Journal τ) : Journal τ := ⟨j.current, j.saved.tail⟩

/-- Reverting the innermost checkpoint makes what it saved current; with no
checkpoint open nothing changes. -/
def revert (j : Journal τ) : Journal τ := ⟨j.saved.headD j.current, j.saved.tail⟩

end Journal

/-- The journal with checkpoints `cs` over the values `cur` refines `j`,
seen through `proj`: the current value is `j`'s, and each checkpoint
restores what `j` saved for it. -/
structure Refines (read : ν → ρ) (proj : (κ → ρ) → τ) (cs : List (κ → Option ν)) (cur : κ → ρ)
    (j : Journal τ) : Prop where
  current : proj cur = j.current
  saved : (restoreAll read cs cur).map proj = j.saved

variable {proj : (κ → ρ) → τ} {cs : List (κ → Option ν)} {cur : κ → ρ} {j : Journal τ}

theorem Refines.checkpoint (h : Refines read proj cs cur j) :
    Refines read proj ((fun _ => none) :: cs) cur j.checkpoint :=
  ⟨h.current, by simp [restoreAll, Journal.checkpoint, h.current, h.saved]⟩

theorem Refines.discard (h : Refines read proj cs cur j) :
    Refines read proj (mergeTop cs) cur j.discard :=
  ⟨h.current, by rw [restoreAll_mergeTop, List.map_tail, h.saved]; rfl⟩

/-- Reverting the innermost checkpoint leaves what it restores current. -/
theorem Refines.revert (h : Refines read proj cs cur j) :
    Refines read proj cs.tail ((restoreAll read cs cur).headD cur) j.revert := by
  cases cs with
  | nil =>
    have hs : j.saved = [] := by simpa using h.saved.symm
    exact ⟨by simp [Journal.revert, hs, h.current], by simp [Journal.revert, hs]⟩
  | cons c cs =>
    obtain ⟨hcur, hsaved⟩ := h
    rw [restoreAll, List.map_cons] at hsaved
    simp only [List.tail_cons, restoreAll, List.headD_cons, Journal.revert, ← hsaved]
    exact ⟨rfl, rfl⟩

variable [DecidableEq κ]

/-- A change at `k` that first records the old value of `k`, unless `k` is
recorded already, leaves what the checkpoint restores as it was. -/
theorem restore_orInsert (c : κ → Option ν) {cur cur' : κ → ρ} {k : κ} {v : ν}
    (hoff : ∀ k', k' ≠ k → cur' k' = cur k') (hv : read v = cur k) :
    restore read (FunMap.orInsert c k v) cur' = restore read c cur := by
  funext k'
  by_cases hk : k' = k
  · subst hk
    -- a record already there wins; otherwise the new record reads the old value
    cases hc : c k' with
    | some r => simp [restore, hc]
    | none => simp [restore, hc, hv]
  · simp [restore, hk, hoff k' hk]

theorem restoreAll_orInsert (cs : List (κ → Option ν)) {cur cur' : κ → ρ} {k : κ} {v : ν}
    (hoff : ∀ k', k' ≠ k → cur' k' = cur k') (hv : read v = cur k) :
    restoreAll read (cs.modifyHead fun c => FunMap.orInsert c k v) cur' = restoreAll read cs cur := by
  cases cs with
  | nil => rfl
  | cons c cs => simp only [List.modifyHead_cons, restoreAll, restore_orInsert c hoff hv]

end Restore

/-! ## What is recorded present is restored over a present value -/

/-- Going out from the innermost checkpoint, a key that a checkpoint
records as present is present in what that checkpoint is restored over. -/
def Grows (read : ν → Option δ) : List (κ → Option ν) → (κ → Option δ) → Prop
  | [], _ => True
  | c :: cs, cur =>
    (∀ k r, c k = some r → (read r).isSome → (cur k).isSome) ∧ Grows read cs (restore read c cur)

section Grows

variable {read : ν → Option δ} {cs : List (κ → Option ν)} {cur : κ → Option δ}

theorem Grows.checkpoint (h : Grows read cs cur) : Grows read ((fun _ => none) :: cs) cur :=
  ⟨fun _ _ hk => absurd hk (by simp), h⟩

theorem Grows.mergeTop (h : Grows read cs cur) : Grows read (Cita.mergeTop cs) cur := by
  match cs, h with
  | c :: prev :: cs, ⟨hc, hprev, hcs⟩ =>
    refine ⟨fun k r hk hr => ?_, by rwa [restore_merge]⟩
    -- the record kept is `prev`'s when it has one, restored over what `c` restores
    cases hp : prev k with
    | some r' =>
      rw [FunMap.merge_apply, hp, Option.some_or, Option.some.injEq] at hk
      subst hk
      have hrest := hprev k r' hp hr
      cases hck : c k with
      | some r'' => exact hc k r'' hck (by rwa [restore_of_some cur hck] at hrest)
      | none => rwa [restore_of_none cur hck] at hrest
    | none =>
      rw [FunMap.merge_apply, hp, Option.none_or] at hk
      exact hc k r hk hr
  | [_], _ => trivial
  | [], _ => trivial

variable [DecidableEq κ]

/-- A change at `k` that leaves `k` present and first records its old value
keeps the journal growing. -/
theorem Grows.orInsert (h : Grows read cs cur) {cur' : κ → Option δ} {k : κ} {v : ν}
    (hoff : ∀ k', k' ≠ k → cur' k' = cur k') (hk : (cur' k).isSome) (hv : read v = cur k) :
    Grows read (cs.modifyHead fun c => FunMap.orInsert c k v) cur' := by
  cases cs with
  | nil => trivial
  | cons c cs =>
    obtain ⟨hc, hcs⟩ := h
    simp only [List.modifyHead_cons]
    refine ⟨fun k' r hk' hr => ?_, by rwa [restore_orInsert c hoff hv]⟩
    by_cases hkk : k' = k
    · subst hkk
      exact hk
    · rw [FunMap.orInsert_ne _ hkk] at hk'
      rw [hoff k' hkk]
      exact hc k' r hk' hr

end Grows

end Cita
