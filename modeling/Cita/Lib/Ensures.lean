import Cita.Lib.Wp

/-!
# What the `Ok` results of code with a persistent state satisfy

Code written with Rust's `?` over a state that survives an error is
`ExceptT ε (StateT σ (Outcome η))`: an `Err` carries the state as it is
and a panic stops everything. `Ensures x P` says that every run of `x`,
from any state, that returns `Ok a` has `P a`.

The state is forgotten, so what a block ensures is what its last
statements ensure: `ensures_bind` asks nothing of the first action,
`ensures_bind_of` hands what the first action ensures to the rest, and an
`Err` (`ensures_throw`) satisfies every postcondition, as a stop does in
`wp`. A proof walks a `do` block with these rules, splitting at each
`if` and `match`, down to the `pure` at the end of each path.

`Moves` follows a measure of the state over every run, an `Err` included.
-/

namespace Cita

variable {ε σ η α β : Type}

/-- Every run of `x` that returns `Ok a` has `P a`. -/
def Ensures (x : ExceptT ε (StateT σ (Outcome η)) α) (P : α → Prop) : Prop :=
  ∀ s, wp x.run (fun r _ => ∀ a, r = .ok a → P a) s

theorem Ensures.apply {x : ExceptT ε (StateT σ (Outcome η)) α} {P : α → Prop} (h : Ensures x P)
    {s s' : σ} {a : α} (hx : x.run.run s = .ok (.ok a, s')) : P a :=
  h s _ s' hx a rfl

theorem ensures_mono {x : ExceptT ε (StateT σ (Outcome η)) α} {P Q : α → Prop}
    (h : Ensures x P) (hPQ : ∀ a, P a → Q a) : Ensures x Q :=
  fun s => wp_mono (h s) fun _ _ hr a ha => hPQ a (hr a ha)

theorem ensures_pure {P : α → Prop} {a : α} (h : P a) :
    Ensures (pure a : ExceptT ε (StateT σ (Outcome η)) α) P := by
  intro s
  simp [wp, h]

theorem ensures_throw {P : α → Prop} (e : ε) :
    Ensures (throw e : ExceptT ε (StateT σ (Outcome η)) α) P := by
  intro s
  simp [wp, throw, throwThe, MonadExceptOf.throw, ExceptT.mk, ExceptT.run, StateT.run_pure]

/-- The rest of a block gets what its first action ensures. -/
theorem ensures_bind_of {x : ExceptT ε (StateT σ (Outcome η)) α}
    {f : α → ExceptT ε (StateT σ (Outcome η)) β} {Q : α → Prop} {P : β → Prop}
    (hx : Ensures x Q) (hf : ∀ a, Q a → Ensures (f a) P) : Ensures (x >>= f) P := by
  intro s
  simp only [ExceptT.run_bind, wp_bind]
  refine wp_mono (hx s) fun r s' hr => ?_
  cases r with
  | error e => simp [wp]
  | ok a => exact hf a (hr a rfl) s'

/-- Whatever the first action returns, the rest of the block ensures `P`. -/
theorem ensures_bind {x : ExceptT ε (StateT σ (Outcome η)) α}
    {f : α → ExceptT ε (StateT σ (Outcome η)) β} {P : β → Prop}
    (hf : ∀ a, Ensures (f a) P) : Ensures (x >>= f) P :=
  ensures_bind_of (Q := fun _ => True) (fun _ => wp_of_forall fun _ _ _ _ => trivial)
    fun a _ => hf a

theorem ensures_ite {c : Prop} [Decidable c] {x y : ExceptT ε (StateT σ (Outcome η)) α}
    {P : α → Prop} (hx : c → Ensures x P) (hy : ¬c → Ensures y P) :
    Ensures (if c then x else y) P := by
  by_cases hc : c
  · rw [if_pos hc]
    exact hx hc
  · rw [if_neg hc]
    exact hy hc

theorem ensures_lift {m : StateT σ (Outcome η) α} {P : α → Prop} :
    Ensures (ExceptT.lift m : ExceptT ε (StateT σ (Outcome η)) α) P ↔
      ∀ s, wp m (fun a _ => P a) s := by
  simp only [Ensures, ExceptT.run_lift, wp_map, Except.ok.injEq, forall_eq']

/-- A computation without state returns what it computes. -/
theorem ensures_lift_lift (o : Outcome η α) :
    Ensures (ExceptT.lift (StateT.lift o) : ExceptT ε (StateT σ (Outcome η)) α) (o = .ok ·) :=
  ensures_lift.mpr fun _ => (wp_lift o _ _).mpr fun _ h => h

/-! ## What runs do to a measure of the state

`Moves μ x g` says that every run of `x`, whether it returns a value or an
`Err`, takes the measure `μ` of the state from `n` to `g n`. An `Err`
skips the rest of a block, so a block moves the measure as its first
action does when the rest keeps it (`moves_bind`), and as the two compose
only when the first action cannot fail (`MovesOk`, `moves_bind_ok`). -/

variable (μ : σ → Nat)

/-- Every run of `x` takes `μ` from `n` to `g n`. -/
def Moves (x : ExceptT ε (StateT σ (Outcome η)) α) (g : Nat → Nat) : Prop :=
  ∀ s, wp x.run (fun _ s' => μ s' = g (μ s)) s

/-- Every run of `x` returns a value and takes `μ` from `n` to `g n`. -/
def MovesOk (x : ExceptT ε (StateT σ (Outcome η)) α) (g : Nat → Nat) : Prop :=
  ∀ s, wp x.run (fun r s' => (∃ a, r = .ok a) ∧ μ s' = g (μ s)) s

variable {μ} {x : ExceptT ε (StateT σ (Outcome η)) α} {f : α → ExceptT ε (StateT σ (Outcome η)) β}
  {g h : Nat → Nat}

theorem MovesOk.moves (hx : MovesOk μ x g) : Moves μ x g :=
  fun s => wp_mono (hx s) fun _ _ => And.right

theorem moves_congr (hx : Moves μ x g) (hg : ∀ n, g n = h n) : Moves μ x h :=
  fun s => wp_mono (hx s) fun _ _ hs => hs.trans (hg _)

theorem movesOk_pure (a : α) : MovesOk μ (pure a : ExceptT ε (StateT σ (Outcome η)) α) id := by
  intro s
  simp [wp]

theorem moves_throw (e : ε) : Moves μ (throw e : ExceptT ε (StateT σ (Outcome η)) α) id := by
  intro s
  simp [wp, throw, throwThe, MonadExceptOf.throw, ExceptT.mk, ExceptT.run, StateT.run_pure]

/-- When the rest keeps the measure, a block moves it as its first action. -/
theorem moves_bind (hx : Moves μ x g) (hf : ∀ a, Moves μ (f a) id) : Moves μ (x >>= f) g := by
  intro s
  simp only [ExceptT.run_bind, wp_bind]
  refine wp_mono (hx s) fun r s' hs => ?_
  cases r with
  | error e => simpa [wp] using hs
  | ok a => exact wp_mono (hf a s') fun _ _ h' => h'.trans hs

/-- After a first action that cannot fail, the moves compose. -/
theorem moves_bind_ok (hx : MovesOk μ x g) (hf : ∀ a, Moves μ (f a) h) :
    Moves μ (x >>= f) (h ∘ g) := by
  intro s
  simp only [ExceptT.run_bind, wp_bind]
  refine wp_mono (hx s) fun r s' hr => ?_
  obtain ⟨⟨a, rfl⟩, hs⟩ := hr
  exact wp_mono (hf a s') fun _ _ h' => by rw [h', hs]; rfl

theorem movesOk_bind (hx : MovesOk μ x g) (hf : ∀ a, MovesOk μ (f a) h) :
    MovesOk μ (x >>= f) (h ∘ g) := by
  intro s
  simp only [ExceptT.run_bind, wp_bind]
  refine wp_mono (hx s) fun r s' hr => ?_
  obtain ⟨⟨a, rfl⟩, hs⟩ := hr
  exact wp_mono (hf a s') fun _ _ h' => ⟨h'.1, by rw [h'.2, hs]; rfl⟩

theorem moves_ite {c : Prop} [Decidable c] {y : ExceptT ε (StateT σ (Outcome η)) α}
    (hx : c → Moves μ x g) (hy : ¬c → Moves μ y g) : Moves μ (if c then x else y) g := by
  by_cases hc : c
  · rw [if_pos hc]
    exact hx hc
  · rw [if_neg hc]
    exact hy hc

/-- Running `x` for its result, an `Err` included, cannot fail. -/
theorem movesOk_lift_run (hx : Moves μ x g) :
    MovesOk μ (ExceptT.lift x.run : ExceptT ε (StateT σ (Outcome η)) (Except ε α)) g := by
  intro s
  simp only [ExceptT.run_lift, wp_map]
  exact wp_mono (hx s) fun r _ hs => ⟨⟨r, rfl⟩, hs⟩

/-- A computation without state leaves the measure. -/
theorem movesOk_lift_lift (o : Outcome η α) :
    MovesOk μ (ExceptT.lift (StateT.lift o) : ExceptT ε (StateT σ (Outcome η)) α) id := by
  intro s
  simp only [ExceptT.run_lift, wp_map, wp_lift]
  exact fun a _ => ⟨⟨a, rfl⟩, rfl⟩

/-- A panic returns from no run. -/
theorem moves_lift_panic (msg : String) :
    Moves μ (ExceptT.lift (StateT.lift (.panic msg)) : ExceptT ε (StateT σ (Outcome η)) α) g := by
  intro s a s' h
  cases h

end Cita
