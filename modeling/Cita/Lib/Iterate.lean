import Cita.Lib.Outcome

/-!
# Loops with fuel

A `while` loop whose body either goes on with a new state, or leaves the
loop with a value, an error or a panic, is `iterate step fuel s`: at
most `fuel` iterations of `step` from `s`; `none` means the fuel ran out
before the loop ended.

Three rules carry every proof about such a loop:

- `Reach` and `Reach.rec_inv` (the run rule): a property that holds at
  the start and that every continuing iteration keeps holds at every
  state the loop passes through.
- `iterate_eq_some` (the exit rule): a loop that ended did so by one
  leaving iteration from a state it reached.
- `iterate_isSome_of_measure` (the termination rule): when a measure
  drops at every continuing iteration, fuel above its start value is
  enough, so the loop itself terminates; `iterate_mono` says more fuel
  changes nothing.

A run can also carry a sum: `ReachSum step w s t n` is a run from `s` to
`t` whose iterations leave states of weights adding up to `n`, and
`ReachSum.telescope` (the sum rule) says what it adds up to when each
iteration raises a measure by its weight.
-/

namespace Cita

variable {ε σ ρ : Type}

/-- At most `fuel` iterations of `step` from `s`. -/
def iterate (step : σ → Outcome ε (σ ⊕ ρ)) : Nat → σ → Option (Outcome ε ρ)
  | 0, _ => none
  | fuel + 1, s =>
      match step s with
      | .ok (.inl s') => iterate step fuel s'
      | .ok (.inr r) => some (.ok r)
      | .err e => some (.err e)
      | .panic m => some (.panic m)

/-- How an iteration leaves the loop, as an outcome of the whole loop. -/
def Leaves (step : σ → Outcome ε (σ ⊕ ρ)) (s : σ) (r : Outcome ε ρ) : Prop :=
  (∃ x, step s = .ok (.inr x) ∧ r = .ok x) ∨ (∃ e, step s = .err e ∧ r = .err e)
    ∨ (∃ m, step s = .panic m ∧ r = .panic m)

/-- The states a loop passes through from `s`: `s` itself and every state
a continuing iteration leads to. -/
inductive Reach (step : σ → Outcome ε (σ ⊕ ρ)) (s : σ) : σ → Prop where
  | refl : Reach step s s
  | tail {t t' : σ} : Reach step s t → step t = .ok (.inl t') → Reach step s t'

variable {step : σ → Outcome ε (σ ⊕ ρ)}

theorem iterate_succ (fuel : Nat) (s : σ) :
    iterate step (fuel + 1) s =
      match step s with
      | .ok (.inl s') => iterate step fuel s'
      | .ok (.inr r) => some (.ok r)
      | .err e => some (.err e)
      | .panic m => some (.panic m) := rfl

theorem iterate_of_continue {fuel : Nat} {s s' : σ} (h : step s = .ok (.inl s')) :
    iterate step (fuel + 1) s = iterate step fuel s' := by
  rw [iterate_succ, h]

theorem Reach.head {s s' t : σ} (h : step s = .ok (.inl s')) (hr : Reach step s' t) :
    Reach step s t := by
  induction hr with
  | refl => exact .tail .refl h
  | tail _ hstep ih => exact .tail ih hstep

/-- **Run rule.** A property of the start state that every continuing
iteration keeps holds at every state the loop reaches. -/
theorem Reach.rec_inv {Inv : σ → Prop} {s t : σ} (hr : Reach step s t) (h0 : Inv s)
    (hstep : ∀ u u', Reach step s u → Inv u → step u = .ok (.inl u') → Inv u') : Inv t := by
  induction hr with
  | refl => exact h0
  | tail hr' hs ih => exact hstep _ _ hr' ih hs

theorem Reach.trans {s t u : σ} (hst : Reach step s t) (htu : Reach step t u) : Reach step s u := by
  induction htu with
  | refl => exact hst
  | tail _ hstep ih => exact .tail ih hstep

/-- A measure that no continuing iteration from a reached state lowers is
never lower at a later state of the run. -/
theorem Reach.mono {μ : σ → Nat} {s t u : σ}
    (hstep : ∀ v v', Reach step s v → step v = .ok (.inl v') → μ v ≤ μ v')
    (ht : Reach step s t) (hu : Reach step t u) : μ t ≤ μ u := by
  induction hu with
  | refl => exact Nat.le_refl _
  | tail hr hs ih => exact Nat.le_trans ih (hstep _ _ (ht.trans hr) hs)

/-- The runs from `s`, with the sum `n` of the weights `w` of the states that
their iterations leave. -/
inductive ReachSum (step : σ → Outcome ε (σ ⊕ ρ)) (w : σ → Nat) (s : σ) : σ → Nat → Prop where
  | refl : ReachSum step w s s 0
  | tail {t t' : σ} {n : Nat} : ReachSum step w s t n → step t = .ok (.inl t') →
      ReachSum step w s t' (n + w t)

theorem ReachSum.reach {w : σ → Nat} {s t : σ} {n : Nat} (h : ReachSum step w s t n) :
    Reach step s t := by
  induction h with
  | refl => exact .refl
  | tail _ hs ih => exact .tail ih hs

/-- **Sum rule.** When every continuing iteration from a reached state
raises a measure by the weight of the state it leaves, the weights of a run
add up to what the measure rose by. -/
theorem ReachSum.telescope {w μ : σ → Nat} {s t : σ} {n : Nat} (h : ReachSum step w s t n)
    (hstep : ∀ u u', Reach step s u → step u = .ok (.inl u') → μ u' = μ u + w u) :
    μ t = μ s + n := by
  induction h with
  | refl => rfl
  | tail hr hs ih =>
    rw [hstep _ _ hr.reach hs, ih, Nat.add_assoc]

/-- **Exit rule.** A loop that ended left it by one iteration from a state it
reached. -/
theorem iterate_eq_some {fuel : Nat} {s : σ} {r : Outcome ε ρ}
    (h : iterate step fuel s = some r) : ∃ t, Reach step s t ∧ Leaves step t r := by
  induction fuel generalizing s with
  | zero => cases h
  | succ n ih =>
      rw [iterate_succ] at h
      split at h
      · rename_i s' hs
        obtain ⟨t, ht, hl⟩ := ih h
        exact ⟨t, ht.head hs, hl⟩
      · rename_i x hs
        exact ⟨s, .refl, .inl ⟨x, hs, (Option.some.inj h).symm⟩⟩
      · rename_i e hs
        exact ⟨s, .refl, .inr (.inl ⟨e, hs, (Option.some.inj h).symm⟩)⟩
      · rename_i m hs
        exact ⟨s, .refl, .inr (.inr ⟨m, hs, (Option.some.inj h).symm⟩)⟩

/-- More fuel does not change the outcome of a loop that ended. -/
theorem iterate_mono {fuel fuel' : Nat} (hle : fuel ≤ fuel') {s : σ} {r : Outcome ε ρ}
    (h : iterate step fuel s = some r) : iterate step fuel' s = some r := by
  induction fuel generalizing fuel' s with
  | zero => cases h
  | succ n ih =>
      obtain ⟨n', rfl⟩ : ∃ n', fuel' = n' + 1 := ⟨fuel' - 1, by omega⟩
      rw [iterate_succ] at h ⊢
      -- `split` rewrites the goal's `match` on `step s` along with `h`
      split at h
      · exact ih (by omega) h
      all_goals exact h

/-- **Termination rule.** If a measure drops at every continuing iteration
from a reached state, fuel above the measure of the start state is enough
for the loop to end. -/
theorem iterate_isSome_of_measure (μ : σ → Nat) {s : σ}
    (hdec : ∀ t t', Reach step s t → step t = .ok (.inl t') → μ t' < μ t) :
    ∀ {fuel : Nat}, μ s < fuel → (iterate step fuel s).isSome := by
  intro fuel
  induction fuel generalizing s with
  | zero => intro h; omega
  | succ n ih =>
      intro hlt
      rw [iterate_succ]
      split
      · rename_i s' hs
        have hlt' : μ s' < μ s := hdec s s' .refl hs
        exact ih (fun t t' ht hst => hdec t t' (ht.head hs) hst) (by omega)
      all_goals rfl

end Cita
