import Mathlib.Data.Nat.Digits.Lemmas

/-!
# Hexadecimal text

Numbers as `rustc_hex` and the `LowerHex` of `ethereum-types` write and
read them: a fixed number of lower-case digits for a hash or an address,
the fewest digits for an integer, and a reader that takes digits of either
case. `value?_digits` and `value?_minimal` read back what the writers
write.
-/

namespace Cita

namespace Hex

/-- The value of a hex digit of either case (`FromHex`). -/
def digitValue? (c : Char) : Option Nat :=
  if '0' ≤ c ∧ c ≤ '9' then some (c.toNat - '0'.toNat)
  else if 'a' ≤ c ∧ c ≤ 'f' then some (c.toNat - 'a'.toNat + 10)
  else if 'A' ≤ c ∧ c ≤ 'F' then some (c.toNat - 'A'.toNat + 10)
  else none

/-- The number a string of hex digits stands for, most significant first;
nothing if a character is not a hex digit. -/
def value? (cs : List Char) : Option Nat :=
  (cs.mapM digitValue?).map fun ds => ds.foldl (fun acc d => acc * 16 + d) 0

/-- The `k` low hex digits of `n` in lower case, most significant first:
`{:x}` of a hash of `k / 2` bytes. -/
def digits (n : Nat) : Nat → List Char
  | 0 => []
  | k + 1 => digits (n / 16) k ++ [Nat.digitChar (n % 16)]

/-- `{:x}` of an integer: the fewest lower-case digits, `0` for zero. -/
def minimal (n : Nat) : List Char :=
  if n = 0 then ['0'] else ((Nat.digits 16 n).map Nat.digitChar).reverse

/-- `H::from_str` of a hash of `size` bytes: exactly `2 * size` digits. -/
def fixed? (size : Nat) (cs : List Char) : Option Nat :=
  if cs.length = 2 * size then value? cs else none

/-! ## Reading back -/

theorem digitValue?_digitChar {d : Nat} (h : d < 16) : digitValue? (Nat.digitChar d) = some d := by
  have hall : ∀ d < 16, digitValue? (Nat.digitChar d) = some d := by decide
  exact hall d h

theorem mapM_digitValue?_map {ds : List Nat} (h : ∀ d ∈ ds, d < 16) :
    (ds.map Nat.digitChar).mapM digitValue? = some ds := by
  induction ds with
  | nil => rfl
  | cons d ds ih =>
    have hd := digitValue?_digitChar (h d List.mem_cons_self)
    have hds := ih fun e he => h e (List.mem_cons_of_mem _ he)
    simp [List.mapM_cons, hd, hds]

theorem foldl_reverse_eq_ofDigits (b : Nat) (ds : List Nat) :
    ds.reverse.foldl (fun acc d => acc * b + d) 0 = Nat.ofDigits b ds := by
  induction ds with
  | nil => rfl
  | cons d ds ih =>
    rw [List.reverse_cons, List.foldl_append, ih, Nat.ofDigits_cons]
    simp only [List.foldl_cons, List.foldl_nil]
    ring

@[simp] theorem length_digits (n k : Nat) : (digits n k).length = k := by
  induction k generalizing n with
  | zero => rfl
  | succ k ih => simp [digits, ih]

theorem mem_digits {c : Char} {n k : Nat} (h : c ∈ digits n k) : ∃ d < 16, c = Nat.digitChar d := by
  induction k generalizing n with
  | zero => nomatch h
  | succ k ih =>
    rw [digits, List.mem_append, List.mem_singleton] at h
    rcases h with h | rfl
    · exact ih h
    · exact ⟨n % 16, Nat.mod_lt _ (by omega), rfl⟩

theorem value?_digits (n k : Nat) : value? (digits n k) = some (n % 16 ^ k) := by
  induction k generalizing n with
  | zero => simp [digits, value?, Nat.mod_one]
  | succ k ih =>
    have hlow : n % 16 < 16 := Nat.mod_lt _ (by omega)
    obtain ⟨ds, hds, hval⟩ : ∃ ds, (digits (n / 16) k).mapM digitValue? = some ds ∧
        ds.foldl (fun acc d => acc * 16 + d) 0 = n / 16 % 16 ^ k := by
      have := ih (n / 16)
      simp only [value?, Option.map_eq_some_iff] at this
      exact this
    have hmap : (digits n (k + 1)).mapM digitValue? = some (ds ++ [n % 16]) := by
      simp [digits, List.mapM_append, hds, digitValue?_digitChar hlow]
    rw [value?, hmap, Option.map_some, List.foldl_append, hval, List.foldl_cons, List.foldl_nil,
      Nat.pow_succ', Nat.mod_mul]
    congr 1
    omega

theorem value?_minimal (n : Nat) : value? (minimal n) = some n := by
  unfold minimal
  split
  · rename_i h
    simp [h, value?, digitValue?]
  · have hlt : ∀ d ∈ Nat.digits 16 n, d < 16 := fun d hd => Nat.digits_lt_base (by omega) hd
    rw [value?, ← List.map_reverse, mapM_digitValue?_map fun d hd => hlt d (List.mem_reverse.mp hd),
      Option.map_some, foldl_reverse_eq_ofDigits, Nat.ofDigits_digits]

theorem length_minimal_le {n k : Nat} (hk : 0 < k) (h : n < 16 ^ k) : (minimal n).length ≤ k := by
  unfold minimal
  split
  · simpa using Nat.succ_le_of_lt hk
  · rw [List.length_reverse, List.length_map]
    exact (Nat.digits_length_le_iff (by omega) n).mpr h

theorem fixed?_digits (n size : Nat) : fixed? size (digits n (2 * size)) = some (n % 16 ^ (2 * size)) := by
  rw [fixed?, length_digits, if_pos rfl, value?_digits]

end Hex

end Cita
