import Mathlib.Logic.Function.Basic
import Mathlib.Order.Lattice

/-!
# Hash maps as functions

A `HashMap<K, V>` whose iteration order does not matter to the code that
uses it is a function `K → Option V`. `insert` is `Function.update`;
`entry(k).or_insert(v)` keeps the value already there, which is `orInsert`;
merging a map into another with `or_insert` for every entry is `merge`;
inserting a list of pairs one after another is `insertAll`, which does not
depend on the order of the pairs when their keys are distinct.
A `BTreeMap` replaced by its own `split_off(&k)` keeps the keys from `k`
on, which is `splitOff`.
-/

namespace Cita

namespace FunMap

variable {κ ν : Type}

/-- `for (k, v) in m.drain() { prev.entry(k).or_insert(v); }`: the entries of
`prev` win. -/
def merge (prev m : κ → Option ν) : κ → Option ν :=
  fun k => (prev k).or (m k)

@[simp] theorem merge_apply (prev m : κ → Option ν) (k : κ) :
    merge prev m k = (prev k).or (m k) := rfl

@[simp] theorem merge_empty (m : κ → Option ν) : merge (fun _ => none) m = m := rfl

section Ordered

variable [LinearOrder κ]

/-- `*map = map.split_off(&k)`: the entries at `k` and above. -/
def splitOff (m : κ → Option ν) (k : κ) : κ → Option ν :=
  fun i => if k ≤ i then m i else none

@[simp] theorem splitOff_of_le {m : κ → Option ν} {k i : κ} (h : k ≤ i) : splitOff m k i = m i :=
  if_pos h

@[simp] theorem splitOff_of_lt {m : κ → Option ν} {k i : κ} (h : i < k) : splitOff m k i = none :=
  if_neg (not_le.mpr h)

theorem splitOff_eq_some {m : κ → Option ν} {k i : κ} {v : ν} :
    splitOff m k i = some v ↔ k ≤ i ∧ m i = some v := by
  unfold splitOff
  split
  · rename_i h
    simp [h]
  · rename_i h
    simp [h]

end Ordered

variable [DecidableEq κ]

/-- `map.entry(k).or_insert(v)`. -/
def orInsert (m : κ → Option ν) (k : κ) (v : ν) : κ → Option ν :=
  Function.update m k ((m k).or (some v))

@[simp] theorem orInsert_self (m : κ → Option ν) (k : κ) (v : ν) :
    orInsert m k v k = (m k).or (some v) := by
  simp [orInsert]

@[simp] theorem orInsert_ne {m : κ → Option ν} {k k' : κ} (v : ν) (h : k' ≠ k) :
    orInsert m k v k' = m k' := by
  simp [orInsert, h]

theorem orInsert_apply (m : κ → Option ν) (k : κ) (v : ν) (k' : κ) :
    orInsert m k v k' = if k' = k then (m k).or (some v) else m k' := by
  by_cases h : k' = k
  · subst h; simp
  · simp [h]

/-- A key already present keeps its value. -/
theorem orInsert_of_isSome {m : κ → Option ν} {k : κ} (v : ν) (h : (m k).isSome) :
    orInsert m k v = m := by
  funext k'
  by_cases hk : k' = k
  · subst hk
    obtain ⟨x, hx⟩ := Option.isSome_iff_exists.mp h
    simp [hx]
  · simp [hk]

/-- `for (k, v) in l { map.insert(k, v) }`. -/
def insertAll (m : κ → Option ν) (l : List (κ × ν)) : κ → Option ν :=
  l.foldl (fun m p => Function.update m p.1 (some p.2)) m

@[simp] theorem insertAll_nil (m : κ → Option ν) : insertAll m [] = m := rfl

@[simp] theorem insertAll_cons (m : κ → Option ν) (p : κ × ν) (l : List (κ × ν)) :
    insertAll m (p :: l) = insertAll (Function.update m p.1 (some p.2)) l := rfl

theorem insertAll_append (m : κ → Option ν) (l l' : List (κ × ν)) :
    insertAll m (l ++ l') = insertAll (insertAll m l) l' :=
  List.foldl_append

theorem insertAll_of_not_mem {m : κ → Option ν} {l : List (κ × ν)} {k : κ}
    (h : k ∉ l.map Prod.fst) : insertAll m l k = m k := by
  induction l generalizing m with
  | nil => rfl
  | cons p l ih =>
    simp only [List.map_cons, List.mem_cons, not_or] at h
    rw [insertAll_cons, ih h.2, Function.update_of_ne h.1]

theorem insertAll_of_mem {m : κ → Option ν} {l : List (κ × ν)} {k : κ} {v : ν}
    (hl : (l.map Prod.fst).Nodup) (h : (k, v) ∈ l) : insertAll m l k = some v := by
  induction l generalizing m with
  | nil => cases h
  | cons p l ih =>
    rw [List.map_cons, List.nodup_cons] at hl
    rw [insertAll_cons]
    rcases List.mem_cons.mp h with rfl | h
    · rw [insertAll_of_not_mem hl.1, Function.update_self]
    · exact ih hl.2 h

/-- With distinct keys the order of the insertions does not matter. -/
theorem insertAll_perm {m : κ → Option ν} {l l' : List (κ × ν)}
    (hl : (l.map Prod.fst).Nodup) (hp : l.Perm l') : insertAll m l = insertAll m l' := by
  have hl' : (l'.map Prod.fst).Nodup := (hp.map Prod.fst).nodup_iff.mp hl
  funext k
  by_cases hk : k ∈ l.map Prod.fst
  · obtain ⟨⟨k', v⟩, hmem, rfl⟩ := List.mem_map.mp hk
    rw [insertAll_of_mem hl hmem, insertAll_of_mem hl' (hp.subset hmem)]
  · have hk' : k ∉ l'.map Prod.fst := fun h => hk ((hp.map Prod.fst).symm.subset h)
    rw [insertAll_of_not_mem hk, insertAll_of_not_mem hk']

end FunMap

end Cita
