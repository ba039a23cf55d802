import Mathlib.Tactic.Basic

/-!
# Outcomes of Rust code: values, errors and panics

Rust code returns a value, returns the `Err` of its `Result` type, or
panics and unwinds the thread. `Outcome ε α` keeps the three apart, so
that "never panics" is a statement about a result (`Outcome.NoPanic`)
and not about the absence of a case in the model.

The monad is the obvious one: a panic or an error stops the rest of a
`do` block. The inversion lemmas (`bind_eq_ok`, `bind_eq_err`,
`bind_eq_panic`) are what later proofs use instead of unfolding `bind`.
Rust's `assert!`, `Option::expect` and the `?` operator on a `Result`
are `Outcome.assert`, `Outcome.expect` and `Outcome.ofExcept`.
-/

namespace Cita

/-- The result of running a piece of Rust code. -/
inductive Outcome (ε α : Type) where
  | ok (a : α)
  | err (e : ε)
  | panic (msg : String)
deriving Repr, DecidableEq

namespace Outcome

variable {ε α β : Type}

def bind : Outcome ε α → (α → Outcome ε β) → Outcome ε β
  | ok a, f => f a
  | err e, _ => err e
  | panic m, _ => panic m

instance : Monad (Outcome ε) where
  pure := ok
  bind := bind

@[simp] theorem pure_eq (a : α) : (pure a : Outcome ε α) = ok a := rfl

@[simp] theorem ok_bind (a : α) (f : α → Outcome ε β) : (ok a >>= f) = f a := rfl

@[simp] theorem err_bind (e : ε) (f : α → Outcome ε β) : (err e >>= f) = err e := rfl

@[simp] theorem panic_bind (m : String) (f : α → Outcome ε β) :
    (panic m >>= f) = panic m := rfl

instance : LawfulMonad (Outcome ε) :=
  LawfulMonad.mk' (Outcome ε) (fun x => by cases x <;> rfl) (fun _ _ => rfl)
    (fun x _ _ => by cases x <;> rfl)

theorem bind_eq_ok {x : Outcome ε α} {f : α → Outcome ε β} {b : β} :
    (x >>= f) = ok b ↔ ∃ a, x = ok a ∧ f a = ok b := by
  cases x <;> simp

theorem map_eq_ok {x : Outcome ε α} {f : α → β} {b : β} :
    (f <$> x) = ok b ↔ ∃ a, x = ok a ∧ f a = b := by
  rw [← bind_pure_comp, bind_eq_ok]
  simp

theorem bind_eq_err {x : Outcome ε α} {f : α → Outcome ε β} {e : ε} :
    (x >>= f) = err e ↔ x = err e ∨ ∃ a, x = ok a ∧ f a = err e := by
  cases x <;> simp

theorem bind_eq_panic {x : Outcome ε α} {f : α → Outcome ε β} {m : String} :
    (x >>= f) = panic m ↔ x = panic m ∨ ∃ a, x = ok a ∧ f a = panic m := by
  cases x <;> simp

/-! ## Panics -/

/-- The code did not panic: it returned a value or an error. -/
def NoPanic (x : Outcome ε α) : Prop := ∀ m, x ≠ panic m

@[simp] theorem noPanic_ok (a : α) : NoPanic (ok a : Outcome ε α) := fun _ h => by cases h

@[simp] theorem noPanic_err (e : ε) : NoPanic (err e : Outcome ε α) := fun _ h => by cases h

@[simp] theorem not_noPanic_panic (m : String) : ¬ NoPanic (panic m : Outcome ε α) :=
  fun h => h m rfl

/-- A `do` block does not panic when its first action does not, and no value
that action can return makes the rest panic. -/
theorem NoPanic.bind {x : Outcome ε α} {f : α → Outcome ε β} (hx : NoPanic x)
    (hf : ∀ a, x = ok a → NoPanic (f a)) : NoPanic (x >>= f) := by
  intro m h
  rcases bind_eq_panic.mp h with h | ⟨a, ha, hfa⟩
  · exact hx m h
  · exact hf a ha m hfa

/-! ## What the `ok` results satisfy -/

/-- Every `ok` result of `x` satisfies `P`: the partial-correctness triple
of code without a state, which an error or a panic satisfies. -/
def OkThen (x : Outcome ε α) (P : α → Prop) : Prop := ∀ a, x = ok a → P a

theorem OkThen.apply {x : Outcome ε α} {P : α → Prop} (h : OkThen x P) {a : α} (hx : x = ok a) : P a :=
  h a hx

@[simp] theorem okThen_ok {a : α} {P : α → Prop} : OkThen (ok a : Outcome ε α) P ↔ P a :=
  ⟨fun h => h a rfl, fun h _ hb => by cases hb; exact h⟩

@[simp] theorem okThen_panic {m : String} {P : α → Prop} : OkThen (panic m : Outcome ε α) P :=
  fun _ h => by cases h

theorem OkThen.mono {x : Outcome ε α} {P Q : α → Prop} (h : OkThen x P) (hPQ : ∀ a, P a → Q a) :
    OkThen x Q :=
  fun a hx => hPQ a (h a hx)

/-- The rest of a block gets what its first action ensures. -/
theorem okThen_bind_of {x : Outcome ε α} {f : α → Outcome ε β} {Q : α → Prop} {P : β → Prop}
    (hx : OkThen x Q) (hf : ∀ a, Q a → OkThen (f a) P) : OkThen (x >>= f) P := by
  intro b h
  obtain ⟨a, ha, hfa⟩ := bind_eq_ok.mp h
  exact hf a (hx a ha) b hfa

theorem okThen_ite {c : Prop} [Decidable c] {x y : Outcome ε α} {P : α → Prop} (hx : c → OkThen x P)
    (hy : ¬c → OkThen y P) : OkThen (if c then x else y) P := by
  by_cases hc : c
  · rw [if_pos hc]
    exact hx hc
  · rw [if_neg hc]
    exact hy hc

/-- Whatever the first action returns, the rest of the block ensures `P`. -/
theorem okThen_bind {x : Outcome ε α} {f : α → Outcome ε β} {P : β → Prop}
    (hf : ∀ a, OkThen (f a) P) : OkThen (x >>= f) P :=
  okThen_bind_of (Q := fun _ => True) (fun _ _ => trivial) fun a _ => hf a

/-! ## Rust's panicking and propagating forms -/

/-- `assert!(c, msg)`. -/
def assert (c : Bool) (msg : String) : Outcome ε Unit :=
  if c then ok () else panic msg

/-- `Option::expect(msg)`; `unwrap` is the same with the library's message. -/
def expect : Option α → String → Outcome ε α
  | some a, _ => ok a
  | none, msg => panic msg

/-- `Result::expect(msg)`: the value, or a panic on `Err`. -/
def expectOk {ε' : Type} : Except ε' α → String → Outcome ε α
  | .ok a, _ => ok a
  | .error _, msg => panic msg

/-- The `?` operator on a `Result`. -/
def ofExcept : Except ε α → Outcome ε α
  | .ok a => ok a
  | .error e => err e

@[simp] theorem assert_true (msg : String) : (assert true msg : Outcome ε Unit) = ok () := rfl

@[simp] theorem expect_some (a : α) (msg : String) : (expect (some a) msg : Outcome ε α) = ok a :=
  rfl

@[simp] theorem expectOk_ok {ε' : Type} (a : α) (msg : String) :
    (expectOk (.ok a : Except ε' α) msg : Outcome ε α) = ok a := rfl

@[simp] theorem ofExcept_ok (a : α) : (ofExcept (.ok a) : Outcome ε α) = ok a := rfl

@[simp] theorem ofExcept_error (e : ε) : (ofExcept (.error e) : Outcome ε α) = err e := rfl

@[simp] theorem assert_eq_ok {c : Bool} {msg : String} {u : Unit} :
    (assert c msg : Outcome ε Unit) = ok u ↔ c = true := by
  cases c <;> simp [assert]

@[simp] theorem expect_eq_ok {o : Option α} {msg : String} {a : α} :
    (expect o msg : Outcome ε α) = ok a ↔ o = some a := by
  cases o <;> simp [expect]

@[simp] theorem expectOk_eq_ok {ε' : Type} {x : Except ε' α} {msg : String} {a : α} :
    (expectOk x msg : Outcome ε α) = ok a ↔ x = .ok a := by
  cases x <;> simp [expectOk]

@[simp] theorem ofExcept_eq_ok {x : Except ε α} {a : α} : ofExcept x = ok a ↔ x = .ok a := by
  cases x <;> simp [ofExcept]

@[simp] theorem noPanic_ofExcept (x : Except ε α) : NoPanic (ofExcept x) := by
  cases x <;> simp [ofExcept]

end Outcome

end Cita
