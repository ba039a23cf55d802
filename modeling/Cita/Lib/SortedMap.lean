import Mathlib.Order.Lattice

/-!
# Ordered maps as sorted lists

A `BTreeMap<K, V>` is its entries in increasing order of their keys
(`SortedMap`, which carries the order as a field). `insert` replaces the
entry of its key in one pass (`sortedInsert`); `split_off(&k)` keeps the
keys from `k` on and `remove` drops one key, both filters on the keys;
`iter().rfind(p)` is the last entry whose value satisfies `p`, which the
order makes the one with the greatest key (`rfind_eq_some_iff`).

Lookups go through `get?`, and every operation has its `get?` lemma
(`get?_insert`, `get?_filterKeys`); later proofs use those and never the
entry list.
-/

namespace Cita

variable {κ ν : Type} [LinearOrder κ]

/-- Insertion into a key-ordered entry list, replacing the entry of the same
key. -/
def sortedInsert (k : κ) (v : ν) : List (κ × ν) → List (κ × ν)
  | [] => [(k, v)]
  | (k', v') :: rest =>
    if k < k' then (k, v) :: (k', v') :: rest
    else if k = k' then (k, v) :: rest
    else (k', v') :: sortedInsert k v rest

theorem mem_sortedInsert {k : κ} {v : ν} {e : κ × ν} {l : List (κ × ν)}
    (h : e ∈ sortedInsert k v l) : e = (k, v) ∨ e ∈ l := by
  induction l with
  | nil => simpa [sortedInsert] using h
  | cons hd tl ih =>
    obtain ⟨k', v'⟩ := hd
    rw [sortedInsert] at h
    split_ifs at h <;> grind

theorem pairwise_sortedInsert (k : κ) (v : ν) {l : List (κ × ν)}
    (h : l.Pairwise (fun a b => a.1 < b.1)) :
    (sortedInsert k v l).Pairwise (fun a b => a.1 < b.1) := by
  induction l with
  | nil => simp [sortedInsert]
  | cons hd tl ih =>
    obtain ⟨k', v'⟩ := hd
    rw [List.pairwise_cons] at h
    rw [sortedInsert]
    split_ifs with hlt heq
    · refine List.Pairwise.cons (fun e he => ?_) (List.Pairwise.cons h.1 h.2)
      rcases List.mem_cons.mp he with rfl | he
      · exact hlt
      · exact lt_trans hlt (h.1 e he)
    · subst heq
      exact List.Pairwise.cons h.1 h.2
    · refine List.Pairwise.cons (fun e he => ?_) (ih h.2)
      rcases mem_sortedInsert he with rfl | he
      · exact lt_of_le_of_ne (not_lt.mp hlt) (Ne.symm heq)
      · exact h.1 e he

/-- A `BTreeMap`: its entries, in strictly increasing order of keys. -/
structure SortedMap (κ ν : Type) [LinearOrder κ] where
  entries : List (κ × ν)
  sorted : entries.Pairwise (fun a b => a.1 < b.1)

namespace SortedMap

/-- `BTreeMap::new()`. -/
def empty : SortedMap κ ν := ⟨[], .nil⟩

/-- `map.get(&k)`. -/
def get? (m : SortedMap κ ν) (k : κ) : Option ν :=
  (m.entries.find? fun e => decide (e.1 = k)).map Prod.snd

/-- `map.contains_key(&k)`. -/
def containsKey (m : SortedMap κ ν) (k : κ) : Bool := (m.get? k).isSome

/-- `map.is_empty()`. -/
def isEmpty (m : SortedMap κ ν) : Bool := m.entries.isEmpty

/-- `map.insert(k, v)`. -/
def insert (m : SortedMap κ ν) (k : κ) (v : ν) : SortedMap κ ν :=
  ⟨sortedInsert k v m.entries, pairwise_sortedInsert k v m.sorted⟩

/-- The entries whose key satisfies `p`. -/
def filterKeys (m : SortedMap κ ν) (p : κ → Bool) : SortedMap κ ν :=
  ⟨m.entries.filter fun e => p e.1, m.sorted.filter _⟩

/-- `*map = map.split_off(&k)`: the entries from `k` on. -/
def splitOff (m : SortedMap κ ν) (k : κ) : SortedMap κ ν := m.filterKeys fun i => decide (k ≤ i)

/-- `map.remove(&k)`: the value removed and the map without it. -/
def remove (m : SortedMap κ ν) (k : κ) : Option ν × SortedMap κ ν :=
  (m.get? k, m.filterKeys fun i => decide (i ≠ k))

/-- `map.iter().rfind(|(_, v)| p(v))`. -/
def rfind (m : SortedMap κ ν) (p : ν → Bool) : Option (κ × ν) :=
  m.entries.reverse.find? fun e => p e.2

@[simp] theorem get?_empty (k : κ) : (empty : SortedMap κ ν).get? k = none := rfl

theorem get?_eq_some_iff {m : SortedMap κ ν} {k : κ} {v : ν} :
    m.get? k = some v ↔ (k, v) ∈ m.entries := by
  obtain ⟨l, hl⟩ := m
  simp only [get?]
  induction l with
  | nil => simp
  | cons hd tl ih =>
    obtain ⟨k', v'⟩ := hd
    rw [List.pairwise_cons] at hl
    by_cases hk : k' = k
    · subst hk
      have hnot : (k', v) ∉ tl := fun hm => lt_irrefl k' (hl.1 (k', v) hm)
      simp only [List.find?_cons, decide_true, Option.map_some, Option.some.injEq,
        List.mem_cons, Prod.mk.injEq, true_and]
      constructor
      · rintro rfl
        exact .inl rfl
      · rintro (h | h)
        · exact h.symm
        · exact absurd h hnot
    · simp only [List.find?_cons, hk, decide_false, List.mem_cons, Prod.mk.injEq, Ne.symm hk,
        false_and, false_or]
      exact ih hl.2

@[simp] theorem get?_insert (m : SortedMap κ ν) (k k' : κ) (v : ν) :
    (m.insert k v).get? k' = if k' = k then some v else m.get? k' := by
  obtain ⟨l, hl⟩ := m
  simp only [insert, get?]
  clear hl
  induction l with
  | nil =>
    by_cases h : k' = k
    · subst h
      simp [sortedInsert]
    · simp [sortedInsert, h, Ne.symm h]
  | cons hd tl ih =>
    obtain ⟨k'', v''⟩ := hd
    by_cases hlt : k < k''
    · rw [sortedInsert, if_pos hlt]
      by_cases h1 : k' = k
      · subst h1
        simp
      · simp [List.find?_cons, Ne.symm h1, h1]
    · by_cases heq : k = k''
      · rw [sortedInsert, if_neg hlt, if_pos heq]
        subst heq
        by_cases h1 : k' = k
        · subst h1
          simp
        · simp [Ne.symm h1, h1]
      · rw [sortedInsert, if_neg hlt, if_neg heq]
        by_cases h2 : k'' = k'
        · subst h2
          simp [Ne.symm heq]
        · simp only [List.find?_cons, h2, decide_false]
          exact ih

@[simp] theorem get?_filterKeys (m : SortedMap κ ν) (p : κ → Bool) (k : κ) :
    (m.filterKeys p).get? k = if p k then m.get? k else none := by
  obtain ⟨l, hl⟩ := m
  simp only [filterKeys, get?]
  clear hl
  induction l with
  | nil => simp
  | cons hd tl ih =>
    obtain ⟨k', v'⟩ := hd
    by_cases hp : p k' <;> by_cases hk : k' = k <;> simp_all

@[simp] theorem get?_splitOff (m : SortedMap κ ν) (k i : κ) :
    (m.splitOff k).get? i = if k ≤ i then m.get? i else none := by
  simp [splitOff]

@[simp] theorem remove_fst (m : SortedMap κ ν) (k : κ) : (m.remove k).1 = m.get? k := rfl

@[simp] theorem get?_remove_snd (m : SortedMap κ ν) (k i : κ) :
    (m.remove k).2.get? i = if i = k then none else m.get? i := by
  by_cases h : i = k <;> simp [remove, h]

@[simp] theorem containsKey_eq (m : SortedMap κ ν) (k : κ) : m.containsKey k = (m.get? k).isSome := rfl

theorem isEmpty_iff {m : SortedMap κ ν} : m.isEmpty = true ↔ ∀ k, m.get? k = none := by
  obtain ⟨l, hl⟩ := m
  cases l with
  | nil => simp [isEmpty, get?]
  | cons hd tl =>
    simp only [isEmpty, List.isEmpty_cons, Bool.false_eq_true, false_iff, not_forall]
    exact ⟨hd.1, by simp [get?]⟩

theorem rfind_mem {m : SortedMap κ ν} {p : ν → Bool} {e : κ × ν} (h : m.rfind p = some e) :
    e ∈ m.entries ∧ p e.2 = true := by
  have h' : m.entries.reverse.find? (fun e => p e.2) = some e := h
  have hp : (fun e : κ × ν => p e.2) e = true := List.find?_some (p := fun e : κ × ν => p e.2) h'
  exact ⟨List.mem_reverse.mp (List.mem_of_find?_eq_some h'), hp⟩

/-- Every entry after the one `rfind` returns fails `p`, and every entry
before it has a smaller key: so no entry satisfying `p` has a greater key. -/
theorem le_of_rfind {m : SortedMap κ ν} {p : ν → Bool} {e e' : κ × ν} (h : m.rfind p = some e)
    (he' : e' ∈ m.entries) (hp : p e'.2 = true) : e'.1 ≤ e.1 := by
  obtain ⟨-, as, bs, hsplit, has⟩ := List.find?_eq_some_iff_append.mp h
  have hent : m.entries = bs.reverse ++ e :: as.reverse := by
    rw [← List.reverse_reverse m.entries, hsplit]
    simp
  have hsorted := m.sorted
  rw [hent, List.pairwise_append] at hsorted
  rw [hent] at he'
  rcases List.mem_append.mp he' with hb | he'
  · exact le_of_lt (hsorted.2.2 e' hb e List.mem_cons_self)
  · rcases List.mem_cons.mp he' with rfl | ha
    · exact le_refl _
    · exact absurd hp (by simpa using has e' (List.mem_reverse.mp ha))

theorem rfind_eq_none {m : SortedMap κ ν} {p : ν → Bool} (h : m.rfind p = none) {k : κ} {v : ν}
    (hk : m.get? k = some v) : p v = false := by
  have hmem := List.mem_reverse.mpr (get?_eq_some_iff.mp hk)
  simpa using List.find?_eq_none.mp h _ hmem

/-- The last entry whose value satisfies `p` is the one of greatest key
among them. -/
theorem rfind_eq_some_iff {m : SortedMap κ ν} {p : ν → Bool} {k : κ} {v : ν} :
    m.rfind p = some (k, v) ↔
      m.get? k = some v ∧ p v = true ∧ ∀ k' v', m.get? k' = some v' → p v' = true → k' ≤ k := by
  constructor
  · intro h
    obtain ⟨hmem, hp⟩ := rfind_mem h
    exact ⟨get?_eq_some_iff.mpr hmem, hp, fun k' v' h' hp' =>
      le_of_rfind h (get?_eq_some_iff.mp h') hp'⟩
  · rintro ⟨hk, hp, hmax⟩
    cases hr : m.rfind p with
    | none => exact absurd (rfind_eq_none hr hk) (by simp [hp])
    | some e =>
      obtain ⟨hmem, hpe⟩ := rfind_mem hr
      have hke : e.1 = k :=
        le_antisymm (hmax e.1 e.2 (get?_eq_some_iff.mpr hmem) hpe)
          (le_of_rfind hr (get?_eq_some_iff.mp hk) hp)
      have hget : m.get? k = some e.2 := hke ▸ get?_eq_some_iff.mpr hmem
      rw [hk, Option.some.injEq] at hget
      rw [← hke, hget]

end SortedMap

end Cita
