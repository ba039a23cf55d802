import Cita.Lib.Outcome

/-!
# Vectors and slices with Rust's bounds checks

`v[a..b]`, `v[i]`, `copy_from_slice` and `Vec::resize` on a vector
modelled as a list. A range or an index outside the vector panics, as in
Rust; the messages are the standard library's.

`slice_ok` and `index_ok` say when the bounds checks pass; later proofs
discharge exactly those two side conditions and never unfold the
definitions.
-/

namespace Cita

namespace Slice

variable {ε α : Type}

/-- `&v[a..b]`. -/
def range (v : List α) (a b : Nat) : Outcome ε (List α) :=
  if a > b then .panic "slice index starts after it ends"
  else if b > v.length then .panic "range end index out of range for slice"
  else .ok ((v.drop a).take (b - a))

/-- `v[i]`. -/
def index (v : List α) (i : Nat) : Outcome ε α :=
  match v[i]? with
  | some x => .ok x
  | none => .panic "index out of bounds"

/-- `v.get(a..b)`: the slice, or `None` when the range is not in bounds. -/
def get (v : List α) (a b : Nat) : Option (List α) :=
  if a ≤ b ∧ b ≤ v.length then some ((v.drop a).take (b - a)) else none

/-- `v[a..a + xs.len()].copy_from_slice(xs)` once the range is known to be in bounds. -/
def write (v : List α) (a : Nat) (xs : List α) : List α :=
  v.take a ++ xs ++ v.drop (a + xs.length)

/-- `Vec::resize(n, x)`. -/
def resize (v : List α) (n : Nat) (x : α) : List α :=
  v.take n ++ List.replicate (n - v.length) x

/-- `v.chunks(n)`: chunk `i` is `v[n * i .. min(n * i + n, len)]`, so the
last one may be shorter. Rust panics on `n = 0`, which the modelled code
never passes. -/
def chunks (n : Nat) (v : List α) : List (List α) :=
  (List.range ((v.length + n - 1) / n)).map fun i => (v.drop (n * i)).take n

theorem range_ok {v : List α} {a b : Nat} (hab : a ≤ b) (hb : b ≤ v.length) :
    (range v a b : Outcome ε (List α)) = .ok ((v.drop a).take (b - a)) := by
  simp only [range, gt_iff_lt]
  rw [if_neg (by omega), if_neg (by omega)]

theorem range_noPanic_iff {v : List α} {a b : Nat} :
    Outcome.NoPanic (range v a b : Outcome ε (List α)) ↔ a ≤ b ∧ b ≤ v.length := by
  unfold range
  split
  · simp only [Outcome.not_noPanic_panic, false_iff]; omega
  · split
    · simp only [Outcome.not_noPanic_panic, false_iff]; omega
    · simp only [Outcome.noPanic_ok, true_iff]; omega

@[simp] theorem index_eq_ok {v : List α} {i : Nat} {x : α} :
    (index v i : Outcome ε α) = .ok x ↔ v[i]? = some x := by
  unfold index
  split <;> simp_all

theorem index_ok {v : List α} {i : Nat} (h : i < v.length) :
    (index v i : Outcome ε α) = .ok v[i] := by
  simp [index, List.getElem?_eq_getElem h]

theorem get_eq_none {v : List α} {a b : Nat} (h : v.length < b) : get v a b = none := by
  simp only [get]
  rw [if_neg (by omega)]

@[simp] theorem length_write {v xs : List α} {a : Nat} (h : a + xs.length ≤ v.length) :
    (write v a xs).length = v.length := by
  simp only [write, List.length_append, List.length_take, List.length_drop]
  omega

@[simp] theorem write_nil (v : List α) (a : Nat) : write v a [] = v := by
  simp [write]

/-- Two writes side by side are one write of both. -/
theorem write_write_adjacent {v xs ys : List α} {a : Nat} (h : a + xs.length + ys.length ≤ v.length) :
    write (write v (a + xs.length) ys) a xs = write v a (xs ++ ys) := by
  have htake : (v.take (a + xs.length)).length = a + xs.length := by
    rw [List.length_take]
    omega
  simp only [write, List.append_assoc, List.length_append]
  rw [List.take_append_of_le_length (by omega), List.take_take, Nat.min_eq_left (by omega),
    List.drop_append_of_le_length (by omega), List.drop_eq_nil_of_le (by omega), List.nil_append,
    Nat.add_assoc]

theorem getElem?_write_of_lt {v xs : List α} {a j : Nat} (hj : j < a) (ha : a ≤ v.length) :
    (write v a xs)[j]? = v[j]? := by
  rw [write, List.append_assoc, List.getElem?_append_left (by rw [List.length_take]; omega),
    List.getElem?_take_of_lt hj]

theorem getElem?_write_add {v xs : List α} {a i : Nat} (hi : i < xs.length) (ha : a ≤ v.length) :
    (write v a xs)[a + i]? = xs[i]? := by
  have htake : (v.take a).length = a := by
    rw [List.length_take]
    omega
  rw [write, List.append_assoc, List.getElem?_append_right (by omega), htake, Nat.add_sub_cancel_left,
    List.getElem?_append_left hi]

theorem getElem?_write_of_le {v xs : List α} {a j : Nat} (hj : a + xs.length ≤ j)
    (h : a + xs.length ≤ v.length) : (write v a xs)[j]? = v[j]? := by
  have htake : (v.take a).length = a := by
    rw [List.length_take]
    omega
  rw [write, List.getElem?_append_right (by simp only [List.length_append, htake]; omega),
    List.getElem?_drop, List.length_append, htake]
  congr 1
  omega

@[simp] theorem length_chunks (n : Nat) (v : List α) :
    (chunks n v).length = (v.length + n - 1) / n := by
  simp [chunks]

@[simp] theorem chunks_nil (n : Nat) : chunks n ([] : List α) = [] := by
  have h0 : (n - 1) / n = 0 := by
    rcases Nat.eq_zero_or_pos n with rfl | hn
    · rfl
    · exact Nat.div_eq_of_lt (by omega)
  simp [chunks, h0]

/-- The first chunk, then the chunks of the rest. -/
theorem chunks_of_ne_nil {n : Nat} {v : List α} (hn : 0 < n) (hv : v ≠ []) :
    chunks n v = v.take n :: chunks n (v.drop n) := by
  have hpos : 0 < v.length := List.length_pos_iff.mpr hv
  -- one more chunk than the rest has
  have hcount : (v.length + n - 1) / n = ((v.drop n).length + n - 1) / n + 1 := by
    rw [List.length_drop, ← Nat.add_div_right _ hn]
    by_cases hle : v.length ≤ n
    · rw [Nat.div_eq_of_lt_le (k := 1) (by omega) (by omega),
        Nat.div_eq_of_lt_le (k := 1) (by omega) (by omega)]
    · congr 1
      omega
  rw [chunks, hcount, List.range_succ_eq_map, List.map_cons, List.map_map, chunks]
  congr 1
  refine List.map_congr_left fun i _ => ?_
  simp only [Function.comp_apply, List.drop_drop, Nat.mul_succ, Nat.add_comm]

/-- A vector of at most `n` elements is one chunk. -/
theorem chunks_of_length_le {n : Nat} {v : List α} (hn : 0 < n) (hv : v ≠ []) (hle : v.length ≤ n) :
    chunks n v = [v] := by
  rw [chunks_of_ne_nil hn hv, List.take_of_length_le hle, List.drop_of_length_le hle, chunks_nil]

@[simp] theorem length_resize (v : List α) (n : Nat) (x : α) : (resize v n x).length = n := by
  simp only [resize, List.length_append, List.length_take, List.length_replicate]
  omega

end Slice

end Cita
