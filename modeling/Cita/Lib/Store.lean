import Mathlib.Logic.Basic

/-!
# Stores: reads that see the last write

A store is a state with a read of each key and writes that may fail.
`IsStore read Writes val` says that reads see a successful write as a
store's reads do: the key written reads the value written (`val` says
how a written value reads back) and every other key reads as before.

A run of writes (`WritesAll`) then reads, at each key, the last value
written there, or what the key read before the run
(`IsStore.read_writesAll`). The argument is not about reads: any relation
between a state, a key and a value that the write of the key establishes
and that writes of other keys keep holds at the end of a run for the last
value written at the key (`WritesAll.last`), and a relation that writes of
other keys keep survives a run that does not write its key
(`WritesAll.keep`).
-/

namespace Cita

variable {σ κ ν ρ : Type} [DecidableEq κ]

/-- Reads see a successful write as a store's reads do. -/
def IsStore (read : σ → κ → ρ) (Writes : σ → κ → ν → σ → Prop) (val : ν → ρ) : Prop :=
  ∀ {s s' : σ} {k : κ} {v : ν}, Writes s k v s' →
    ∀ k', read s' k' = if k' = k then val v else read s k'

/-- A run of successful writes, in order, each from the state the one
before left. -/
inductive WritesAll (Writes : σ → κ → ν → σ → Prop) : σ → List (κ × ν) → σ → Prop where
  | nil (s : σ) : WritesAll Writes s [] s
  | cons {s t s' : σ} {k : κ} {v : ν} {ws : List (κ × ν)} :
      Writes s k v t → WritesAll Writes t ws s' → WritesAll Writes s ((k, v) :: ws) s'

/-- The value of the last write of `k` in `ws`. -/
def lastWrite : List (κ × ν) → κ → Option ν
  | [], _ => none
  | (k, v) :: ws, k' => (lastWrite ws k').or (if k' = k then some v else none)

@[simp] theorem lastWrite_nil (k : κ) : lastWrite ([] : List (κ × ν)) k = none := rfl

theorem lastWrite_cons (k k' : κ) (v : ν) (ws : List (κ × ν)) :
    lastWrite ((k, v) :: ws) k' = (lastWrite ws k').or (if k' = k then some v else none) := rfl

theorem lastWrite_eq_none {ws : List (κ × ν)} {k : κ} (h : k ∉ ws.map Prod.fst) :
    lastWrite ws k = none := by
  induction ws with
  | nil => rfl
  | cons w ws ih =>
    obtain ⟨k', v'⟩ := w
    simp only [List.map_cons, List.mem_cons, not_or] at h
    rw [lastWrite_cons, ih h.2, if_neg h.1]
    rfl

/-- In a run that writes each key once, a key reads back its own write. -/
theorem lastWrite_of_nodup {ws : List (κ × ν)} {k : κ} {v : ν} (hnd : (ws.map Prod.fst).Nodup)
    (hmem : (k, v) ∈ ws) : lastWrite ws k = some v := by
  induction ws with
  | nil => cases hmem
  | cons w ws ih =>
    obtain ⟨k', v'⟩ := w
    rw [List.map_cons, List.nodup_cons] at hnd
    rw [lastWrite_cons]
    rcases List.mem_cons.mp hmem with heq | hmem
    · obtain ⟨rfl, rfl⟩ := Prod.mk.inj heq
      rw [lastWrite_eq_none hnd.1, if_pos rfl]
      rfl
    · rw [ih hnd.2 hmem]
      rfl

variable {Writes : σ → κ → ν → σ → Prop}

/-- A relation that writes of other keys keep survives a run that does not
write its key. -/
theorem WritesAll.keep {R : σ → κ → ν → Prop} {s s' : σ} {ws : List (κ × ν)}
    (hrun : WritesAll Writes s ws s')
    (hkeep : ∀ {s s' k v k' v'}, Writes s k v s' → k' ≠ k → R s k' v' → R s' k' v') {k : κ} {v : ν}
    (hnone : lastWrite ws k = none) (h : R s k v) : R s' k v := by
  induction hrun with
  | nil => exact h
  | @cons s t s' k₀ v₀ ws hw _ ih =>
    rw [lastWrite_cons, Option.or_eq_none_iff] at hnone
    have hne : k ≠ k₀ := fun heq => by simp [heq] at hnone
    exact ih hnone.1 (hkeep hw hne h)

/-- **Last-write rule.** A relation that the write of a key establishes and
that writes of other keys keep holds at the end of a run for the last value
written at the key. -/
theorem WritesAll.last {R : σ → κ → ν → Prop} {s s' : σ} {ws : List (κ × ν)}
    (hrun : WritesAll Writes s ws s') (hwrite : ∀ {s s' k v}, Writes s k v s' → R s' k v)
    (hkeep : ∀ {s s' k v k' v'}, Writes s k v s' → k' ≠ k → R s k' v' → R s' k' v') {k : κ} {v : ν}
    (hlast : lastWrite ws k = some v) : R s' k v := by
  induction hrun with
  | nil => cases hlast
  | @cons s t s' k₀ v₀ ws hw hrest ih =>
    rw [lastWrite_cons] at hlast
    -- either a later write of `k` wins, or this one is the last
    cases hl : lastWrite ws k with
    | some v' =>
      rw [hl, Option.some_or] at hlast
      exact ih (hl.trans hlast)
    | none =>
      rw [hl, Option.none_or] at hlast
      by_cases hk : k = k₀
      · subst hk
        rw [if_pos rfl, Option.some.injEq] at hlast
        subst hlast
        exact hrest.keep (R := R) hkeep hl (hwrite hw)
      · rw [if_neg hk] at hlast
        cases hlast

variable {read : σ → κ → ρ} {val : ν → ρ}

/-- **Store rule.** After a run of writes a key reads the last value written
there, or what it read before the run. -/
theorem IsStore.read_writesAll (h : IsStore read Writes val) {s s' : σ} {ws : List (κ × ν)}
    (hrun : WritesAll Writes s ws s') (k : κ) :
    read s' k = ((lastWrite ws k).map val).getD (read s k) := by
  induction hrun with
  | nil => rfl
  | @cons s t s' k₀ v₀ ws hw _ ih =>
    rw [ih, h hw k, lastWrite_cons]
    cases lastWrite ws k with
    | some v' => rfl
    | none => by_cases hk : k = k₀ <;> simp [hk]

end Cita
