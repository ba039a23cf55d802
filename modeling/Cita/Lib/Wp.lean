import Cita.Lib.Outcome

/-!
# Weakest preconditions for state-passing code that may fail

Code that reads and writes a state and may stop with an error or a panic
is `StateT σ (Outcome ε)`. `wp x Q s` holds when every run of `x` from `s`
that returns normally ends with a value and a state satisfying `Q`. A run
that stops with an error or a panic satisfies every postcondition: this is
partial correctness with respect to a normal return, which is what a
bound on the returned value needs.

The rules push `wp` through a `do` block: `wp_pure`, `wp_bind`,
`wp_map` and `wp_ite` for its structure, `wp_lift` for a call to code
without state; each primitive action on the state gets its own rule where
it is defined. A proof about a block rewrites with them and is left with a
first-order statement about the values the block computes; `wp_mono` and
`wp_and` move between postconditions.
-/

namespace Cita

variable {σ ε α β : Type}

/-- Every normal return of `x` from `s` satisfies `Q`. -/
def wp (x : StateT σ (Outcome ε) α) (Q : α → σ → Prop) (s : σ) : Prop :=
  ∀ a s', x.run s = .ok (a, s') → Q a s'

theorem wp.apply {x : StateT σ (Outcome ε) α} {Q : α → σ → Prop} {s s' : σ} {a : α}
    (h : wp x Q s) (hx : x.run s = .ok (a, s')) : Q a s' :=
  h a s' hx

theorem wp_mono {x : StateT σ (Outcome ε) α} {Q Q' : α → σ → Prop} {s : σ}
    (h : wp x Q s) (hQ : ∀ a s', Q a s' → Q' a s') : wp x Q' s :=
  fun a s' hx => hQ a s' (h a s' hx)

/-- A postcondition that holds of every value and state holds after `x`. -/
theorem wp_of_forall {x : StateT σ (Outcome ε) α} {Q : α → σ → Prop} {s : σ}
    (h : ∀ a s', Q a s') : wp x Q s :=
  fun a s' _ => h a s'

theorem wp_and {x : StateT σ (Outcome ε) α} {Q Q' : α → σ → Prop} {s : σ} :
    wp x (fun a s' => Q a s' ∧ Q' a s') s ↔ wp x Q s ∧ wp x Q' s :=
  ⟨fun h => ⟨wp_mono h fun _ _ => And.left, wp_mono h fun _ _ => And.right⟩,
    fun ⟨h, h'⟩ a s' hx => ⟨h a s' hx, h' a s' hx⟩⟩

@[simp] theorem wp_pure (a : α) (Q : α → σ → Prop) (s : σ) :
    wp (pure a : StateT σ (Outcome ε) α) Q s ↔ Q a s := by
  simp [wp]

@[simp] theorem wp_bind (x : StateT σ (Outcome ε) α) (g : α → StateT σ (Outcome ε) β)
    (Q : β → σ → Prop) (s : σ) :
    wp (x >>= g) Q s ↔ wp x (fun a s' => wp (g a) Q s') s := by
  simp only [wp, StateT.run_bind]
  constructor
  · intro h a s' hx b s'' hg
    exact h b s'' (by rw [hx]; exact hg)
  · intro h b s'' hxg
    obtain ⟨⟨a, s'⟩, hx, hg⟩ := Outcome.bind_eq_ok.mp hxg
    exact h a s' hx b s'' hg

@[simp] theorem wp_map (g : α → β) (x : StateT σ (Outcome ε) α) (Q : β → σ → Prop) (s : σ) :
    wp (g <$> x) Q s ↔ wp x (fun a s' => Q (g a) s') s := by
  rw [← bind_pure_comp, wp_bind]
  simp only [wp_pure]

theorem wp_ite {c : Prop} [Decidable c] (x y : StateT σ (Outcome ε) α) (Q : α → σ → Prop)
    (s : σ) : wp (if c then x else y) Q s ↔ (c → wp x Q s) ∧ (¬c → wp y Q s) := by
  by_cases hc : c <;> simp [hc]

@[simp] theorem wp_lift (o : Outcome ε α) (Q : α → σ → Prop) (s : σ) :
    wp (StateT.lift o : StateT σ (Outcome ε) α) Q s ↔ ∀ a, o = .ok a → Q a s := by
  cases o <;> simp [wp, StateT.run, StateT.lift]

/-! ## How far code moves a measure of the state

`Shifts μ x k r` says that every normal return of `x` has taken `k` from
the measure `μ` of the state and added `r`, as an instruction takes its
arguments off a stack and leaves its results. Only the difference counts,
so `Shifts.congr` trades `k` and `r` for any pair with the same
difference; `shifts_bind` adds the moves of a block's statements,
`shifts_bind_keeps` passes over a statement that leaves the measure, and a
statement that never returns normally moves by anything
(`shifts_of_noReturn`). -/

section Shifts

variable (μ : σ → Nat)

/-- Every normal return of `x` takes `k` from `μ` and adds `r`. -/
def Shifts (x : StateT σ (Outcome ε) α) (k r : Nat) : Prop :=
  ∀ s, wp x (fun _ s' => μ s' + k = μ s + r) s

variable {μ} {x y : StateT σ (Outcome ε) α} {g : α → StateT σ (Outcome ε) β} {k r k' r' : Nat}

theorem Shifts.congr (h : Shifts μ x k r) (hkr : k + r' = k' + r) : Shifts μ x k' r' :=
  fun s => wp_mono (h s) fun _ _ hs => by omega

theorem Shifts.apply (h : Shifts μ x k r) {s s' : σ} {a : α} (hx : x.run s = .ok (a, s')) :
    μ s' + k = μ s + r :=
  h s a s' hx

theorem shifts_of_noReturn (h : ∀ s a s', x.run s ≠ .ok (a, s')) : Shifts μ x k r :=
  fun s a s' hx => absurd hx (h s a s')

theorem shifts_of_keeps (h : ∀ s, wp x (fun _ s' => μ s' = μ s) s) : Shifts μ x 0 0 :=
  fun s => wp_mono (h s) fun _ _ hs => by omega

theorem shifts_pure (a : α) : Shifts μ (pure a : StateT σ (Outcome ε) α) 0 0 :=
  shifts_of_keeps fun s => by simp

/-- The moves of a block's statements add up; the rest's come first, so
that a goal `Shifts μ (x >>= g) (k + 1) r` leaves `g` the remainder. -/
theorem shifts_bind {k₁ r₁ k₂ r₂ : Nat} (hx : Shifts μ x k₁ r₁) (hg : ∀ a, Shifts μ (g a) k₂ r₂) :
    Shifts μ (x >>= g) (k₂ + k₁) (r₂ + r₁) := by
  intro s
  rw [wp_bind]
  refine wp_mono (hx s) fun a s' hs => wp_mono (hg a s') fun _ _ hs' => ?_
  omega

/-- A statement that leaves the measure. -/
theorem shifts_bind_keeps (hx : Shifts μ x 0 0) (hg : ∀ a, Shifts μ (g a) k r) :
    Shifts μ (x >>= g) k r :=
  shifts_bind hx hg

theorem shifts_ite {c : Prop} [Decidable c] (hx : c → Shifts μ x k r) (hy : ¬c → Shifts μ y k r) :
    Shifts μ (if c then x else y) k r := by
  by_cases hc : c
  · rw [if_pos hc]
    exact hx hc
  · rw [if_neg hc]
    exact hy hc

theorem shifts_lift (o : Outcome ε α) : Shifts μ (StateT.lift o : StateT σ (Outcome ε) α) 0 0 :=
  shifts_of_keeps fun s => by simp

end Shifts

end Cita
