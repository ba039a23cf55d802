import Cita.Executor.Snapshot

/-!
# Rebuilding a state from its chunks

`feedAll_restores`: chunks that are a snapshot of a well-formed state,
fed into a fresh `StateRebuilder` in any order, give the state back.

`RebuildInv` is what the rebuilder holds after some of the chunks: the
trie holds the accounts that have a piece among them, with the storage of
those pieces; the storage root of an account split over several chunks is
kept for its next piece, since such an account stands first or last in
each of its chunks; every value in the database is one the state holds;
and each code (and ABI) given by hash is in the account's database or
waits in `missing_code` until the chunk that carries it inline patches it
in (`CodeInv`, once for the code and once for the ABI).
-/

namespace Cita

namespace Snapshot

/-- The database `db'` keeps every value of `db`. -/
def Keeps (db db' : Address → H256 → Option Bytes) : Prop :=
  ∀ x h, (db x h).isSome → (db' x h).isSome

theorem Keeps.refl (db : Address → H256 → Option Bytes) : Keeps db db := fun _ _ h => h

theorem Keeps.trans {db db' db'' : Address → H256 → Option Bytes} (h₁ : Keeps db db')
    (h₂ : Keeps db' db'') : Keeps db db'' :=
  fun x h hs => h₂ x h (h₁ x h hs)

theorem keeps_write (db : Address → H256 → Option Bytes) (x : Address) (h : H256) (c : Bytes) :
    Keeps db (Function.update db x (Function.update (db x) h (some c))) := by
  intro y k hs
  by_cases hy : y = x
  · subst hy
    by_cases hk : k = h
    · subst hk
      simp
    · simpa [hk] using hs
  · simpa [hy] using hs

section Keccak

variable (keccak : Bytes → H256) (st : State)

/-- Every value in the rebuilder's database is one the state holds under
the same hash. -/
def TrueCells (db : Address → H256 → Option Bytes) : Prop :=
  ∀ x h c, db x h = some c → ∃ b, st.db b h = some c

variable {keccak st}

theorem TrueCells.write {db : Address → H256 → Option Bytes} (hc : TrueCells st db)
    {x : Address} {h : H256} {c : Bytes} (hv : ∃ b, st.db b h = some c) :
    TrueCells st (Function.update db x (Function.update (db x) h (some c))) := by
  intro y k c' hy
  by_cases hyx : y = x
  · subst hyx
    by_cases hk : k = h
    · subst hk
      simp only [Function.update_self, Option.some.injEq] at hy
      exact hy ▸ hv
    · simp only [Function.update_self, Function.update_of_ne hk] at hy
      exact hc y k c' hy
  · rw [Function.update_of_ne hyx] at hy
    exact hc y k c' hy

theorem State.WellFormed.account_unique (hwf : st.WellFormed keccak) {a : Address}
    {acc acc' : Account} (h : (a, acc) ∈ st.accounts) (h' : (a, acc') ∈ st.accounts) :
    acc = acc' :=
  (Prod.mk.inj (List.inj_on_of_nodup_map hwf.addresses h h' rfl)).2

/-! ## One piece -/

section Piece

variable {m : H256 → Option Bytes} {cf : CodeField} {dbo : H256 → Option Bytes} {h : H256}

theorem loadCode_hash (hd : cf.Describes keccak dbo h) : (loadCode keccak m cf).1 = h := by
  cases cf with
  | empty => exact hd.symm
  | inline c => exact hd.1
  | hash h' => exact hd

theorem loadCode_keeps (cf : CodeField) {k : H256} (hs : (m k).isSome) :
    ((loadCode keccak m cf).2.1 k).isSome := by
  cases cf with
  | inline c =>
    by_cases hk : k = keccak c
    · subst hk
      simp [loadCode]
    · simpa [loadCode, hk] using hs
  | empty => exact hs
  | hash h' => exact hs

theorem loadCode_cell {k : H256} {c : Bytes} (hc : (loadCode keccak m cf).2.1 k = some c) :
    m k = some c ∨ cf = .inline c ∧ keccak c = k := by
  cases cf with
  | inline c' =>
    by_cases hk : k = keccak c'
    · subst hk
      simp only [loadCode, Function.update_self, Option.some.injEq] at hc
      exact .inr ⟨hc ▸ rfl, hc ▸ rfl⟩
    · simp only [loadCode, Function.update_of_ne hk] at hc
      exact .inl hc
  | empty => exact .inl hc
  | hash h' => exact .inl hc

theorem loadCode_new_eq_some {c : Bytes} :
    (loadCode keccak m cf).2.2 = some c ↔ cf = .inline c := by
  cases cf <;> simp [loadCode]

theorem loadCode_inline_cell (c : Bytes) :
    ((loadCode keccak m (.inline c)).2.1 (keccak c)).isSome := by
  simp [loadCode]

theorem fromFatRlp_eq (db : H256 → Option Bytes) (f : FatAccount) (s : Bytes → Option Bytes) :
    fromFatRlp keccak db f s =
      (⟨f.nonce, f.balance, FunMap.insertAll s f.pairs, (loadCode keccak db f.code).1,
          (loadCode keccak (loadCode keccak db f.code).2.1 f.abi).1⟩,
        (loadCode keccak (loadCode keccak db f.code).2.1 f.abi).2.1,
        (loadCode keccak db f.code).2.2, (loadCode keccak (loadCode keccak db f.code).2.1 f.abi).2.2) :=
  rfl

end Piece

variable (keccak) in
/-- The account `rebuild_accounts` writes to the trie for a piece, given
the storage roots known before the chunk. -/
def entryAccount (knownStorageRoots : Address → Option (Bytes → Option Bytes))
    (e : Address × FatAccount) : Address × BasicAccount :=
  (e.1, (fromFatRlp keccak (fun _ => none) e.2 ((knownStorageRoots e.1).getD fun _ => none)).1)

theorem entryAccount_of_describes {ksr : Address → Option (Bytes → Option Bytes)}
    {e : Address × FatAccount} {dbo : H256 → Option Bytes} {acc : Account}
    (hd : e.2.Describes keccak dbo acc) :
    entryAccount keccak ksr e =
      (e.1, ⟨acc.nonce, acc.balance, FunMap.insertAll ((ksr e.1).getD fun _ => none) e.2.pairs,
        acc.codeHash, acc.abiHash⟩) := by
  rw [entryAccount, fromFatRlp_eq, loadCode_hash hd.code, loadCode_hash hd.abi, hd.nonce,
    hd.balance]

theorem fromFatRlp_fst (db : H256 → Option Bytes) (f : FatAccount) (s : Bytes → Option Bytes) :
    (fromFatRlp keccak db f s).1 = (fromFatRlp keccak (fun _ => none) f s).1 := by
  obtain ⟨n, b, code, abi, pairs⟩ := f
  cases code <;> cases abi <;> rfl

/-! ## What `rebuild_accounts` reports -/

variable (keccak st) in
/-- What `rebuild_accounts` reports of the code (or of the ABI, as `field`
says) of the pieces `entries`: `known` is what the rebuilder knew before
the chunk, `db` its database after. -/
structure Reported (field : FatAccount → CodeField) (entries : Chunk)
    (known : H256 → Option Address) (db : Address → H256 → Option Bytes)
    (new : List (H256 × Bytes × Address)) (missing : List (Address × H256)) : Prop where
  arrived : ∀ h c b, (h, c, b) ∈ new → (db b h).isSome ∧ ∃ b', st.db b' h = some c
  inline : ∀ e ∈ entries, ∀ c, field e.2 = .inline c → ∃ b, (keccak c, c, b) ∈ new
  waiting : ∀ b h, (b, h) ∈ missing → known h = none
  restored : ∀ e ∈ entries, ∀ h, (field e.2).Describes keccak (st.db e.1) h →
    h ≠ hashEmpty keccak → (db e.1 h).isSome ∨ (e.1, h) ∈ missing

section Reported

variable {field : FatAccount → CodeField} {entries entries' : Chunk}
  {known : H256 → Option Address} {db db' : Address → H256 → Option Bytes}
  {new new' : List (H256 × Bytes × Address)} {missing missing' : List (Address × H256)}

theorem Reported.keeps (hr : Reported keccak st field entries known db new missing)
    (hk : Keeps db db') : Reported keccak st field entries known db' new missing where
  arrived h c b hm := ⟨hk b h (hr.arrived h c b hm).1, (hr.arrived h c b hm).2⟩
  inline := hr.inline
  waiting := hr.waiting
  restored e he h hd hne := (hr.restored e he h hd hne).imp_left (hk e.1 h)

theorem Reported.append (hr : Reported keccak st field entries known db new missing)
    (hr' : Reported keccak st field entries' known db new' missing') :
    Reported keccak st field (entries ++ entries') known db (new ++ new') (missing ++ missing') where
  arrived h c b hm := (List.mem_append.mp hm).elim (hr.arrived h c b) (hr'.arrived h c b)
  inline e he c hc := (List.mem_append.mp he).elim
    (fun he => (hr.inline e he c hc).imp fun _ hb => List.mem_append_left _ hb)
    (fun he => (hr'.inline e he c hc).imp fun _ hb => List.mem_append_right _ hb)
  waiting b h hm := (List.mem_append.mp hm).elim (hr.waiting b h) (hr'.waiting b h)
  restored e he h hd hne := (List.mem_append.mp he).elim
    (fun he => (hr.restored e he h hd hne).imp_right (List.mem_append_left _))
    (fun he => (hr'.restored e he h hd hne).imp_right (List.mem_append_right _))

theorem reported_nil : Reported keccak st field [] known db [] [] where
  arrived _ _ _ h := by cases h
  inline _ he := by cases he
  waiting _ _ h := by cases h
  restored _ he := by cases he

end Reported

/-- `restoreCode` does not panic while every known hash is in the
database, and it only copies values the database holds. -/
theorem restoreCode_spec {db : Address → H256 → Option Bytes} {known : H256 → Option Address}
    (hknown : ∀ h b, known h = some b → (db b h).isSome) (hcells : TrueCells st db)
    (a : Address) (h : H256) (newCode : Option Bytes) :
    ∃ db' new missing, restoreCode keccak db known a h newCode = .ok (db', new, missing) ∧
      Keeps db db' ∧ TrueCells st db' ∧ new = (newCode.map fun c => (h, c, a)).toList ∧
      (∀ b h', (b, h') ∈ missing → b = a ∧ h' = h ∧ known h = none) ∧
      (newCode = none → h ≠ hashEmpty keccak → (db' a h).isSome ∨ (a, h) ∈ missing) := by
  cases newCode with
  | some c => exact ⟨db, _, [], rfl, Keeps.refl db, hcells, rfl, by simp, by simp⟩
  | none =>
    by_cases he : h = hashEmpty keccak
    · exact ⟨db, [], [], by simp [restoreCode, he], Keeps.refl db, hcells, rfl, by simp,
        fun _ hne => absurd he hne⟩
    · cases hk : known h with
      | none =>
        refine ⟨db, [], [(a, h)], by simp [restoreCode, he, hk], Keeps.refl db, hcells, rfl, ?_,
          fun _ _ => .inr (List.mem_singleton_self _)⟩
        intro b h' hm
        obtain ⟨rfl, rfl⟩ := Prod.mk.inj (List.mem_singleton.mp hm)
        exact ⟨rfl, rfl, rfl⟩
      | some b =>
        obtain ⟨c, hc⟩ := Option.isSome_iff_exists.mp (hknown h b hk)
        refine ⟨_, [], [], by simp [restoreCode, he, hk, hc], keeps_write db a h c,
          hcells.write (hcells b h c hc), rfl, by simp, fun _ _ => .inl (by simp)⟩

/-- One kind of code of a piece, loaded by `from_fat_rlp` into the
database `db₁` and then restored: what `rebuild_accounts` reports of it. -/
theorem reported_of_restore {field : FatAccount → CodeField} {e : Address × FatAccount}
    {known : H256 → Option Address} {m : H256 → Option Bytes} {hh : H256}
    {db₁ db₂ db' : Address → H256 → Option Bytes} {new : List (H256 × Bytes × Address)}
    {missing : List (Address × H256)}
    (hdesc : (field e.2).Describes keccak (st.db e.1) hh)
    (hinline : ∀ c, field e.2 = .inline c → (db₁ e.1 (keccak c)).isSome)
    (hk₁ : Keeps db₁ db₂) (hk : Keeps db₂ db')
    (hnew : new = ((loadCode keccak m (field e.2)).2.2.map fun c => (hh, c, e.1)).toList)
    (hmissing : ∀ b h', (b, h') ∈ missing → b = e.1 ∧ h' = hh ∧ known hh = none)
    (hrestored : (loadCode keccak m (field e.2)).2.2 = none → hh ≠ hashEmpty keccak →
      (db₂ e.1 hh).isSome ∨ (e.1, hh) ∈ missing) :
    Reported keccak st field [e] known db' new missing := by
  have hmiss : ∀ b h, (b, h) ∈ missing → known h = none := by
    intro b h hm
    obtain ⟨-, rfl, hn⟩ := hmissing b h hm
    exact hn
  -- the field decides the hash: whatever `Describes` it with is `hh`
  have huniq : ∀ h, (field e.2).Describes keccak (st.db e.1) h → h = hh := by
    intro h hd
    generalize field e.2 = cf at hd hdesc
    cases cf with
    | empty => exact hd.trans hdesc.symm
    | inline c => exact hd.1.symm.trans hdesc.1
    | hash h' => exact hd.symm.trans hdesc
  generalize hf : field e.2 = cf at hdesc hinline hnew hrestored
  cases cf with
  | inline c =>
    obtain ⟨rfl, hdb⟩ := hdesc
    have hcell : (db' e.1 (keccak c)).isSome := hk _ _ (hk₁ _ _ (hinline c rfl))
    refine ⟨?_, ?_, hmiss, ?_⟩
    · intro h c' b hm
      simp only [loadCode, Option.map_some, Option.toList_some, hnew, List.mem_singleton,
        Prod.mk.injEq] at hm
      obtain ⟨rfl, rfl, rfl⟩ := hm
      exact ⟨hcell, e.1, hdb⟩
    · intro e' he c' hc'
      rw [List.mem_singleton.mp he, hf, CodeField.inline.injEq] at hc'
      subst hc'
      exact ⟨e.1, by simp [hnew, loadCode]⟩
    · intro e' he h hd _
      rw [List.mem_singleton.mp he] at hd ⊢
      rw [huniq h (hf ▸ hd)]
      exact .inl hcell
  | empty =>
    refine ⟨by simp [hnew, loadCode], ?_, hmiss, ?_⟩
    · intro e' he c hc
      rw [List.mem_singleton.mp he, hf] at hc
      cases hc
    · intro e' he h hd hne
      rw [List.mem_singleton.mp he] at hd
      exact absurd ((huniq h (hf ▸ hd)).trans hdesc) hne
  | hash h' =>
    subst hdesc
    refine ⟨by simp [hnew, loadCode], ?_, hmiss, ?_⟩
    · intro e' he c hc
      rw [List.mem_singleton.mp he, hf] at hc
      cases hc
    · intro e' he h hd hne
      rw [List.mem_singleton.mp he] at hd ⊢
      rw [huniq h (hf ▸ hd)] at hne ⊢
      exact (hrestored rfl hne).imp_left (hk e.1 h')

theorem rebuildAccount_eq (kc ka : H256 → Option Address)
    (ksr : Address → Option (Bytes → Option Bytes)) (db : Address → H256 → Option Bytes)
    (e : Address × FatAccount) :
    rebuildAccount keccak kc ka ksr db e =
      (restoreCode keccak
          (Function.update db e.1 (fromFatRlp keccak (db e.1) e.2 ((ksr e.1).getD fun _ => none)).2.1)
          kc e.1 (fromFatRlp keccak (db e.1) e.2 ((ksr e.1).getD fun _ => none)).1.codeHash
          (fromFatRlp keccak (db e.1) e.2 ((ksr e.1).getD fun _ => none)).2.2.1 >>= fun r₁ =>
        restoreCode keccak r₁.1 ka e.1
            (fromFatRlp keccak (db e.1) e.2 ((ksr e.1).getD fun _ => none)).1.abiHash
            (fromFatRlp keccak (db e.1) e.2 ((ksr e.1).getD fun _ => none)).2.2.2 >>= fun r₂ =>
          pure (r₂.1, ⟨r₁.2.1, r₁.2.2, r₂.2.1, r₂.2.2⟩,
            (e.1, (fromFatRlp keccak (db e.1) e.2 ((ksr e.1).getD fun _ => none)).1))) :=
  rfl

/-- `rebuild_accounts` on one piece: it does not panic, keeps the database's
values and adds true ones, and reports the piece's code and ABI. -/
theorem rebuildAccount_spec {kc ka : H256 → Option Address}
    (ksr : Address → Option (Bytes → Option Bytes)) {db : Address → H256 → Option Bytes}
    {e : Address × FatAccount} {acc : Account}
    (hkc : ∀ h b, kc h = some b → (db b h).isSome) (hka : ∀ h b, ka h = some b → (db b h).isSome)
    (hcells : TrueCells st db) (hd : e.2.Describes keccak (st.db e.1) acc) :
    ∃ db' status, rebuildAccount keccak kc ka ksr db e = .ok (db', status, entryAccount keccak ksr e) ∧
      Keeps db db' ∧ TrueCells st db' ∧
      Reported keccak st FatAccount.code [e] kc db' status.newCode status.missingCode ∧
      Reported keccak st FatAccount.abi [e] ka db' status.newAbi status.missingAbi := by
  set F := fromFatRlp keccak (db e.1) e.2 ((ksr e.1).getD fun _ => none) with hF
  -- `from_fat_rlp` writes the inline code and ABI into the account's database
  set db₁ := Function.update db e.1 F.2.1 with hdb₁
  have hF₂ : F.2.1 = (loadCode keccak (loadCode keccak (db e.1) e.2.code).2.1 e.2.abi).2.1 := rfl
  have hk₁ : Keeps db db₁ := by
    intro x h hs
    by_cases hx : x = e.1
    · subst hx
      rw [hdb₁, Function.update_self, hF₂]
      exact loadCode_keeps _ (loadCode_keeps _ hs)
    · rwa [hdb₁, Function.update_of_ne hx]
  have ht₁ : TrueCells st db₁ := by
    intro x h c hc
    by_cases hx : x = e.1
    · subst hx
      rw [hdb₁, Function.update_self, hF₂] at hc
      rcases loadCode_cell hc with hc | ⟨habi, rfl⟩
      · rcases loadCode_cell hc with hc | ⟨hcode, rfl⟩
        · exact hcells _ _ _ hc
        · have hd' := hd.code
          rw [hcode] at hd'
          obtain ⟨hkc, hdb⟩ := hd'
          exact ⟨e.1, hkc ▸ hdb⟩
      · have hd' := hd.abi
        rw [habi] at hd'
        obtain ⟨hka, hdb⟩ := hd'
        exact ⟨e.1, hka ▸ hdb⟩
    · rw [hdb₁, Function.update_of_ne hx] at hc
      exact hcells x h c hc
  obtain ⟨db₂, n₁, m₁, hr₁, hk₂, ht₂, hn₁, hm₁, hres₁⟩ :=
    restoreCode_spec (fun h b hb => hk₁ b h (hkc h b hb)) ht₁ e.1 acc.codeHash F.2.2.1
  obtain ⟨db₃, n₂, m₂, hr₂, hk₃, ht₃, hn₂, hm₂, hres₂⟩ :=
    restoreCode_spec (fun h b hb => hk₂ b h (hk₁ b h (hka h b hb))) ht₂ e.1 acc.abiHash F.2.2.2
  refine ⟨db₃, ⟨n₁, m₁, n₂, m₂⟩, ?_, hk₁.trans (hk₂.trans hk₃), ht₃, ?_, ?_⟩
  · have hcode : F.1.codeHash = acc.codeHash := loadCode_hash hd.code
    have habi : F.1.abiHash = acc.abiHash := loadCode_hash hd.abi
    rw [rebuildAccount_eq, ← hF, ← hdb₁, hcode, hr₁, Outcome.ok_bind, habi, hr₂, Outcome.ok_bind,
      entryAccount, hF, fromFatRlp_fst]
    rfl
  · refine reported_of_restore (m := db e.1) hd.code ?_ hk₂ hk₃ hn₁ hm₁ hres₁
    intro c hc
    rw [hdb₁, Function.update_self, hF₂, hc]
    exact loadCode_keeps _ (loadCode_inline_cell c)
  · refine reported_of_restore (m := (loadCode keccak (db e.1) e.2.code).2.1) hd.abi ?_
      (hk₂.trans hk₃) (Keeps.refl _) hn₂ hm₂ hres₂
    intro c hc
    rw [hdb₁, Function.update_self, hF₂, hc]
    exact loadCode_inline_cell c

/-- The loop of `rebuild_accounts`: the trie gets `entryAccount` of each
piece, and the code and ABI of all pieces are reported. -/
theorem rebuildAccounts_spec {kc ka : H256 → Option Address}
    (ksr : Address → Option (Bytes → Option Bytes)) (chunk : Chunk)
    {db : Address → H256 → Option Bytes}
    (hdesc : ∀ e ∈ chunk, ∃ acc, e.2.Describes keccak (st.db e.1) acc)
    (hkc : ∀ h b, kc h = some b → (db b h).isSome) (hka : ∀ h b, ka h = some b → (db b h).isSome)
    (hcells : TrueCells st db) :
    ∃ db' status, rebuildAccounts keccak kc ka ksr db chunk =
        .ok (db', status, chunk.map (entryAccount keccak ksr)) ∧
      Keeps db db' ∧ TrueCells st db' ∧
      Reported keccak st FatAccount.code chunk kc db' status.newCode status.missingCode ∧
      Reported keccak st FatAccount.abi chunk ka db' status.newAbi status.missingAbi := by
  induction chunk generalizing db with
  | nil => exact ⟨db, ⟨[], [], [], []⟩, rfl, Keeps.refl db, hcells, reported_nil, reported_nil⟩
  | cons e chunk ih =>
    obtain ⟨acc, hd⟩ := hdesc e List.mem_cons_self
    obtain ⟨db₁, s₁, hr₁, hk₁, ht₁, hc₁, ha₁⟩ := rebuildAccount_spec ksr hkc hka hcells hd
    obtain ⟨db₂, s₂, hr₂, hk₂, ht₂, hc₂, ha₂⟩ :=
      ih (fun e he => hdesc e (List.mem_cons_of_mem _ he)) (fun h b hb => hk₁ b h (hkc h b hb))
        (fun h b hb => hk₁ b h (hka h b hb)) ht₁
    refine ⟨db₂, s₁.append s₂, ?_, hk₁.trans hk₂, ht₂, (hc₁.keeps hk₂).append hc₂,
      (ha₁.keeps hk₂).append ha₂⟩
    rw [rebuildAccounts, hr₁, Outcome.ok_bind]
    simp only [hr₂, Outcome.ok_bind, List.map_cons]
    rfl

/-! ## The end of `feed` -/

theorem mem_noteMissing {missing : H256 → List Address} {ms : List (Address × H256)} {a : Address}
    {h : H256} : a ∈ noteMissing missing ms h ↔ a ∈ missing h ∨ (a, h) ∈ ms := by
  induction ms generalizing missing with
  | nil => simp [noteMissing]
  | cons p ms ih =>
    obtain ⟨b, k⟩ := p
    change a ∈ noteMissing (Function.update missing k (missing k ++ [b])) ms h ↔ _
    rw [ih]
    by_cases hk : h = k
    · subst hk
      simp only [Function.update_self, List.mem_append, List.mem_cons, Prod.mk.injEq, and_true]
      tauto
    · simp [hk]

/-- Patching the accounts that wait for one code. -/
theorem patch_spec {db : Address → H256 → Option Bytes} (hcells : TrueCells st db) {h : H256}
    {c : Bytes} (hv : ∃ b, st.db b h = some c) (as : List Address) :
    Keeps db (as.foldl (fun db a => Function.update db a (Function.update (db a) h (some c))) db) ∧
      TrueCells st
        (as.foldl (fun db a => Function.update db a (Function.update (db a) h (some c))) db) ∧
      ∀ a ∈ as,
        ((as.foldl (fun db a => Function.update db a (Function.update (db a) h (some c))) db) a
          h).isSome := by
  induction as generalizing db with
  | nil => exact ⟨Keeps.refl db, hcells, fun _ ha => by cases ha⟩
  | cons a as ih =>
    obtain ⟨hk, ht, hall⟩ := ih (hcells.write (x := a) hv)
    refine ⟨(keeps_write db a h c).trans hk, ht, fun a' ha' => ?_⟩
    rcases List.mem_cons.mp ha' with rfl | ha'
    · exact hk a' h (by simp)
    · exact hall a' ha'

/-- `patchMissing`: the accounts waiting for a code that has arrived get it,
the carrier becomes known, and nothing else changes. -/
theorem patchMissing_spec {new : List (H256 × Bytes × Address)}
    {db db' : Address → H256 → Option Bytes} {missing missing' : H256 → List Address}
    {known known' : H256 → Option Address}
    (hnew : ∀ h c b, (h, c, b) ∈ new → (db b h).isSome ∧ ∃ b', st.db b' h = some c)
    (hcells : TrueCells st db) (hp : patchMissing db missing known new = (db', missing', known')) :
    Keeps db db' ∧ TrueCells st db' ∧
      (∀ h b, known' h = some b → known h = some b ∨ (db' b h).isSome) ∧
      (∀ h c b, (h, c, b) ∈ new → (known' h).isSome ∧ ∀ a ∈ missing h, (db' a h).isSome) ∧
      (∀ h, (∀ c b, (h, c, b) ∉ new) → missing' h = missing h ∧ known' h = known h) := by
  induction new generalizing db missing known with
  | nil =>
    simp only [patchMissing, List.foldl_nil, Prod.mk.injEq] at hp
    obtain ⟨rfl, rfl, rfl⟩ := hp
    exact ⟨Keeps.refl db, hcells, fun _ _ hb => .inl hb, (fun _ _ _ h => nomatch h),
      fun _ _ => ⟨rfl, rfl⟩⟩
  | cons n new ih =>
    obtain ⟨h, c, b⟩ := n
    obtain ⟨hb, hv⟩ := hnew h c b List.mem_cons_self
    obtain ⟨hk₁, ht₁, hall₁⟩ := patch_spec hcells hv (missing h)
    obtain ⟨hk, ht, hknown, harrived, huntouched⟩ :=
      ih (fun h' c' b' hm => (hnew h' c' b' (List.mem_cons_of_mem _ hm)).imp_left (hk₁ b' h'))
        ht₁ hp
    refine ⟨hk₁.trans hk, ht, ?_, ?_, ?_⟩
    · intro h' b' hb'
      rcases hknown h' b' hb' with hb' | hb'
      · by_cases hh : h' = h
        · subst hh
          simp only [Function.update_self, Option.some.injEq] at hb'
          exact .inr (hb' ▸ hk b h' (hk₁ b h' hb))
        · exact .inl (by simpa [Function.update_of_ne hh] using hb')
      · exact .inr hb'
    · intro h' c' b' hm
      -- the accounts waiting for `h` were patched by its first arrival
      have hmissing : ∀ a ∈ missing h', (db' a h').isSome := by
        by_cases hh : h' = h
        · subst hh
          exact fun a ha => hk a h' (hall₁ a ha)
        · rcases List.mem_cons.mp hm with heq | hm
          · exact absurd (Prod.mk.inj heq).1 hh
          · simpa [Function.update_of_ne hh] using (harrived h' c' b' hm).2
      refine ⟨?_, hmissing⟩
      by_cases hrest : ∃ c'' b'', (h', c'', b'') ∈ new
      · obtain ⟨c'', b'', hm'⟩ := hrest
        exact (harrived h' c'' b'' hm').1
      · have hrest' : ∀ c'' b'', (h', c'', b'') ∉ new := fun c'' b'' hm => hrest ⟨c'', b'', hm⟩
        rcases List.mem_cons.mp hm with heq | hm
        · obtain ⟨rfl, -⟩ := Prod.mk.inj heq
          simp [(huntouched h' hrest').2]
        · exact absurd hm (hrest' c' b')
    · intro h' hnot
      have hh : h' ≠ h := fun hh => hnot c b (hh ▸ List.mem_cons_self)
      obtain ⟨hm, hk'⟩ := huntouched h' fun c' b' hm => hnot c' b' (List.mem_cons_of_mem _ hm)
      exact ⟨by rw [hm, Function.update_of_ne hh], by rw [hk', Function.update_of_ne hh]⟩

section StorageRoots

variable {known : Address → Option (Bytes → Option Bytes)} {out : List (Address × BasicAccount)}
  {a : Address} {acc : BasicAccount}

theorem noteStorageRoots_of_not_mem (h : a ∉ out.map Prod.fst) :
    noteStorageRoots known out a = known a := by
  have hne : ∀ e ∈ out, a ≠ e.1 := fun e he hea => h (List.mem_map.mpr ⟨e, he, hea.symm⟩)
  unfold noteStorageRoots
  rcases hl : out.getLast? with _ | ⟨a₂, acc₂⟩ <;> rcases hh : out.head? with _ | ⟨a₁, acc₁⟩
  · rfl
  · exact Function.update_of_ne (hne _ (List.mem_of_head? hh)) _ _
  · exact Function.update_of_ne (hne _ (List.mem_of_getLast? hl)) _ _
  · exact (Function.update_of_ne (hne _ (List.mem_of_head? hh)) _ _).trans
      (Function.update_of_ne (hne _ (List.mem_of_getLast? hl)) _ _)

variable (known) in
theorem noteStorageRoots_of_mem (hnd : (out.map Prod.fst).Nodup) (hmem : (a, acc) ∈ out) :
    noteStorageRoots known out a = known a ∨ noteStorageRoots known out a = some acc.storage := by
  -- an entry of `out` at `a` is the one at `a`
  have huniq : ∀ acc', (a, acc') ∈ out → acc' = acc := fun acc' h' =>
    (Prod.mk.inj (List.inj_on_of_nodup_map hnd h' hmem rfl)).2
  unfold noteStorageRoots
  rcases hl : out.getLast? with _ | ⟨a₂, acc₂⟩ <;> rcases hh : out.head? with _ | ⟨a₁, acc₁⟩
  · exact .inl rfl
  · by_cases ha : a = a₁
    · subst ha
      rw [huniq acc₁ (List.mem_of_head? hh)]
      exact .inr (Function.update_self _ _ _)
    · exact .inl (Function.update_of_ne ha _ _)
  · by_cases ha : a = a₂
    · subst ha
      rw [huniq acc₂ (List.mem_of_getLast? hl)]
      exact .inr (Function.update_self _ _ _)
    · exact .inl (Function.update_of_ne ha _ _)
  · dsimp only
    by_cases ha : a = a₁
    · subst ha
      rw [huniq acc₁ (List.mem_of_head? hh)]
      exact .inr (Function.update_self _ _ _)
    · rw [Function.update_of_ne ha]
      by_cases ha' : a = a₂
      · subst ha'
        rw [huniq acc₂ (List.mem_of_getLast? hl)]
        exact .inr (Function.update_self _ _ _)
      · exact .inl (Function.update_of_ne ha' _ _)

/-- The first and the last account of a chunk keep their storage roots. -/
theorem noteStorageRoots_of_ends (hnd : (out.map Prod.fst).Nodup)
    (hend : out.head? = some (a, acc) ∨ out.getLast? = some (a, acc)) :
    noteStorageRoots known out a = some acc.storage := by
  rcases noteStorageRoots_of_mem known hnd
    (hend.elim List.mem_of_head? List.mem_of_getLast?) with h | h
  · unfold noteStorageRoots at h ⊢
    rcases hend with hend | hend
    · simp only [hend, Function.update_self]
    · rcases hh : out.head? with _ | ⟨a₁, acc₁⟩
      · simp [hend]
      · by_cases ha : a = a₁
        · subst ha
          have := (Prod.mk.inj (List.inj_on_of_nodup_map hnd (List.mem_of_head? hh)
            (List.mem_of_getLast? hend) rfl)).2
          simp [this]
        · simp [hend, Function.update_of_ne ha]
  · exact h

end StorageRoots

/-! ## The invariant -/

/-- The storage the pieces of an account rebuild. -/
def pieceStorage (pieces : List FatAccount) : Bytes → Option Bytes :=
  FunMap.insertAll (fun _ => none) (pieces.flatMap FatAccount.pairs)

theorem insertAll_pieceStorage (pieces : List FatAccount) (f : FatAccount) :
    FunMap.insertAll (pieceStorage pieces) f.pairs = pieceStorage (pieces ++ [f]) := by
  rw [pieceStorage, pieceStorage, List.flatMap_append, List.flatMap_singleton,
    FunMap.insertAll_append]

/-- The account as the trie holds it once the pieces `pieces` of it are fed. -/
def Account.rebuilt (acc : Account) (pieces : List FatAccount) : BasicAccount :=
  ⟨acc.nonce, acc.balance, pieceStorage pieces, acc.codeHash, acc.abiHash⟩

variable (keccak st) in
/-- What the rebuilder holds of one kind of code (the code, or the ABI:
`hashOf` and `field` say which) after the chunks `fed`. -/
structure CodeInv (hashOf : Account → H256) (field : FatAccount → CodeField) (fed : List Chunk)
    (db : Address → H256 → Option Bytes) (known : H256 → Option Address)
    (missing : H256 → List Address) : Prop where
  carrier : ∀ h b, known h = some b → (db b h).isSome
  restored : ∀ a acc, (a, acc) ∈ st.accounts → piecesOf a fed ≠ [] → hashOf acc ≠ hashEmpty keccak →
    (db a (hashOf acc)).isSome ∨ a ∈ missing (hashOf acc) ∧ known (hashOf acc) = none
  inline : ∀ h, CarriesInline keccak field fed h → (known h).isSome

variable (keccak st) in
structure RebuildInv (chunks fed : List Chunk) (r : StateRebuilder) : Prop where
  root : ∀ a acc, (a, acc) ∈ st.accounts → piecesOf a fed ≠ [] →
    r.stateRoot a = some (acc.rebuilt (piecesOf a fed))
  rootNone : ∀ a, piecesOf a fed = [] → r.stateRoot a = none
  storageRoot : ∀ a m, r.knownStorageRoots a = some m →
    piecesOf a fed ≠ [] ∧ m = pieceStorage (piecesOf a fed)
  storageSplit : ∀ a, piecesOf a fed ≠ [] → 2 ≤ (piecesOf a chunks).length →
    (r.knownStorageRoots a).isSome
  cells : TrueCells st r.db
  code : CodeInv keccak st Account.codeHash FatAccount.code fed r.db r.knownCode r.missingCode
  abi : CodeInv keccak st Account.abiHash FatAccount.abi fed r.db r.knownAbi r.missingAbi

theorem codeInv_new (hashOf : Account → H256) (field : FatAccount → CodeField) :
    CodeInv keccak st hashOf field [] (fun _ _ => none) (fun _ => none) (fun _ => []) where
  carrier _ _ h := by cases h
  restored _ _ _ h := absurd rfl h
  inline _ h := by
    obtain ⟨_, h, -⟩ := h
    cases h

theorem rebuildInv_new {chunks : List Chunk} : RebuildInv keccak st chunks [] StateRebuilder.new where
  root _ _ _ h := absurd rfl h
  rootNone _ _ := rfl
  storageRoot _ _ h := by cases h
  storageSplit _ h := absurd rfl h
  cells _ _ _ h := by cases h
  code := codeInv_new _ _
  abi := codeInv_new _ _

section CodeInv

variable {hashOf : Account → H256} {field : FatAccount → CodeField} {fed : List Chunk}
  {chunk : Chunk} {db db₁ db₂ : Address → H256 → Option Bytes} {known known' : H256 → Option Address}
  {missing missing' : H256 → List Address} {new : List (H256 × Bytes × Address)}
  {ms : List (Address × H256)}

theorem CodeInv.keeps (hi : CodeInv keccak st hashOf field fed db known missing)
    (hk : Keeps db db₁) : CodeInv keccak st hashOf field fed db₁ known missing where
  carrier h b hb := hk b h (hi.carrier h b hb)
  restored a acc hacc hp hne := (hi.restored a acc hacc hp hne).imp_left (hk a _)
  inline := hi.inline

/-- One kind of code through a `feed`: what the chunk reports, queued and
patched, keeps `CodeInv`. -/
theorem CodeInv.feed (hwf : st.WellFormed keccak)
    (hfield : ∀ {dbo acc f}, f.Describes keccak dbo acc → (field f).Describes keccak dbo (hashOf acc))
    (hi : CodeInv keccak st hashOf field fed db known missing)
    (hdesc : ∀ e ∈ chunk, ∃ acc, (e.1, acc) ∈ st.accounts ∧ e.2.Describes keccak (st.db e.1) acc)
    (hk : Keeps db db₁) (hrep : Reported keccak st field chunk known db₁ new ms)
    (hcells : TrueCells st db₁)
    (hp : patchMissing db₁ (noteMissing missing ms) known new = (db₂, missing', known')) :
    CodeInv keccak st hashOf field (fed ++ [chunk]) db₂ known' missing' ∧ Keeps db₁ db₂ ∧
      TrueCells st db₂ := by
  obtain ⟨hk₂, ht₂, hknown, harrived, huntouched⟩ := patchMissing_spec hrep.arrived hcells hp
  refine ⟨⟨?_, ?_, ?_⟩, hk₂, ht₂⟩
  · intro h b hb
    rcases hknown h b hb with hb | hb
    · exact hk₂ b h (hk b h (hi.carrier h b hb))
    · exact hb
  · intro a acc hacc hpieces hne
    -- before the patch the code is in the database, or the account waits for it
    have hpre : (db₁ a (hashOf acc)).isSome ∨
        a ∈ noteMissing missing ms (hashOf acc) ∧ known (hashOf acc) = none := by
      by_cases hfed : piecesOf a fed = []
      · rw [piecesOf_append, hfed, List.nil_append, piecesOf_singleton] at hpieces
        obtain ⟨f, hf⟩ := List.exists_mem_of_ne_nil _ hpieces
        have hmem : (a, f) ∈ chunk := mem_piecesIn.mp hf
        obtain ⟨acc', hacc', hd⟩ := hdesc _ hmem
        rw [hwf.account_unique hacc' hacc] at hd
        rcases hrep.restored _ hmem _ (hfield hd) hne with h | h
        · exact .inl h
        · exact .inr ⟨mem_noteMissing.mpr (.inr h), hrep.waiting _ _ h⟩
      · rcases hi.restored a acc hacc hfed hne with h | ⟨hm, hn⟩
        · exact .inl (hk a _ h)
        · exact .inr ⟨mem_noteMissing.mpr (.inl hm), hn⟩
    by_cases har : ∃ c b, (hashOf acc, c, b) ∈ new
    · obtain ⟨c, b, hm⟩ := har
      rcases hpre with h | ⟨h, -⟩
      · exact .inl (hk₂ a _ h)
      · exact .inl ((harrived _ c b hm).2 a h)
    · obtain ⟨hmiss, hkn⟩ := huntouched _ fun c b hm => har ⟨c, b, hm⟩
      rcases hpre with h | h
      · exact .inl (hk₂ a _ h)
      · exact .inr (by rw [hmiss, hkn]; exact h)
  · rintro h ⟨ch, hch, e, he, c, hc, hkc⟩
    have hpre : (known h).isSome ∨ ∃ c b, (h, c, b) ∈ new := by
      rcases List.mem_append.mp hch with hch | hch
      · exact .inl (hi.inline h ⟨ch, hch, e, he, c, hc, hkc⟩)
      · rw [List.mem_singleton.mp hch] at he
        obtain ⟨b, hb⟩ := hrep.inline e he c hc
        exact .inr ⟨c, b, hkc ▸ hb⟩
    by_cases har : ∃ c b, (h, c, b) ∈ new
    · obtain ⟨c, b, hm⟩ := har
      exact (harrived h c b hm).1
    · rw [(huntouched h fun c b hm => har ⟨c, b, hm⟩).2]
      exact hpre.resolve_right har

/-- At the end: a code carried somewhere, of an account that has a piece,
is back in the account's database. -/
theorem CodeInv.restored_eq (hwf : st.WellFormed keccak)
    (hi : CodeInv keccak st hashOf field fed db known missing) (hcells : TrueCells st db)
    {a : Address} {acc : Account} (hacc : (a, acc) ∈ st.accounts) (hp : piecesOf a fed ≠ [])
    (hne : hashOf acc ≠ hashEmpty keccak) (hcarries : CarriesInline keccak field fed (hashOf acc))
    (hstored : (st.db a (hashOf acc)).isSome) : db a (hashOf acc) = st.db a (hashOf acc) := by
  have hsome : (db a (hashOf acc)).isSome := by
    rcases hi.restored a acc hacc hp hne with h | ⟨-, hn⟩
    · exact h
    · have hk := hi.inline _ hcarries
      rw [hn] at hk
      cases hk
  obtain ⟨c, hc⟩ := Option.isSome_iff_exists.mp hsome
  obtain ⟨c', hc'⟩ := Option.isSome_iff_exists.mp hstored
  obtain ⟨b, hb⟩ := hcells a _ c hc
  rw [hc, hc', hwf.unique b a _ c c' hb hc']

end CodeInv

theorem CarriesInline.of_perm {field : FatAccount → CodeField} {order chunks : List Chunk}
    {h : H256} (hperm : order.Perm chunks) (hc : CarriesInline keccak field chunks h) :
    CarriesInline keccak field order h := by
  obtain ⟨ch, hch, rest⟩ := hc
  exact ⟨ch, hperm.symm.subset hch, rest⟩

/-! ## One chunk -/

section Feed

variable {chunks fed : List Chunk} {chunk : Chunk} {r : StateRebuilder} {a : Address}
  {f : FatAccount}

/-- An account fed before and again in this chunk is split. -/
theorem two_le_piecesOf (hsub : (fed ++ [chunk]).Subperm chunks)
    (hnd : (chunk.map Prod.fst).Nodup) (hmem : (a, f) ∈ chunk) (hp : piecesOf a fed ≠ []) :
    2 ≤ (piecesOf a chunks).length := by
  have hle := (piecesOf_subperm (a := a) hsub).length_le
  rw [piecesOf_append, piecesOf_singleton, piecesIn_of_mem hnd hmem, List.length_append,
    List.length_singleton] at hle
  have hpos : 0 < (piecesOf a fed).length := List.length_pos_iff.mpr hp
  omega

theorem RebuildInv.storage_getD (hinv : RebuildInv keccak st chunks fed r)
    (hsub : (fed ++ [chunk]).Subperm chunks) (hnd : (chunk.map Prod.fst).Nodup)
    (hmem : (a, f) ∈ chunk) :
    (r.knownStorageRoots a).getD (fun _ => none) = pieceStorage (piecesOf a fed) := by
  by_cases hp : piecesOf a fed = []
  · cases hk : r.knownStorageRoots a with
    | none =>
      rw [hp]
      rfl
    | some m => exact absurd hp (hinv.storageRoot a m hk).1
  · obtain ⟨m, hm⟩ := Option.isSome_iff_exists.mp
      (hinv.storageSplit a hp (two_le_piecesOf hsub hnd hmem hp))
    rw [hm, Option.getD_some, (hinv.storageRoot a m hm).2]

theorem RebuildInv.entryAccount_eq (hinv : RebuildInv keccak st chunks fed r)
    (hsub : (fed ++ [chunk]).Subperm chunks) (hnd : (chunk.map Prod.fst).Nodup)
    (hmem : (a, f) ∈ chunk) {acc : Account} (hd : f.Describes keccak (st.db a) acc) :
    entryAccount keccak r.knownStorageRoots (a, f) =
      (a, acc.rebuilt (piecesOf a (fed ++ [chunk]))) := by
  rw [entryAccount_of_describes (e := (a, f)) hd, hinv.storage_getD hsub hnd hmem,
    insertAll_pieceStorage, piecesOf_append, piecesOf_singleton, piecesIn_of_mem hnd hmem]
  rfl

/-- `feed` keeps the invariant, and does not panic. -/
theorem feed_inv (hwf : st.WellFormed keccak) (hs : IsSnapshot keccak st chunks)
    (hinv : RebuildInv keccak st chunks fed r) (hsub : (fed ++ [chunk]).Subperm chunks) :
    ∃ r', StateRebuilder.feed keccak r chunk = .ok r' ∧
      RebuildInv keccak st chunks (fed ++ [chunk]) r' := by
  have hC : chunk ∈ chunks := hsub.subset (List.mem_append_right _ (List.mem_singleton_self _))
  have hdesc := hs.describes chunk hC
  have hnd := hs.nodup chunk hC
  obtain ⟨db₁, status, hr, hk₁, ht₁, hcode, habi⟩ :=
    rebuildAccounts_spec r.knownStorageRoots chunk
      (fun e he => (hdesc e he).imp fun _ h => h.2) hinv.code.carrier hinv.abi.carrier hinv.cells
  set out := chunk.map (entryAccount keccak r.knownStorageRoots) with hout
  rcases hp₁ : patchMissing db₁ (noteMissing r.missingCode status.missingCode) r.knownCode
    status.newCode with ⟨db₂, mc, kc⟩
  rcases hp₂ : patchMissing db₂ (noteMissing r.missingAbi status.missingAbi) r.knownAbi
    status.newAbi with ⟨db₃, ma, ka⟩
  obtain ⟨hcode', hk₂, ht₂⟩ := hinv.code.feed hwf (fun hd => hd.code) hdesc hk₁ hcode ht₁ hp₁
  obtain ⟨habi', hk₃, ht₃⟩ :=
    hinv.abi.feed hwf (fun hd => hd.abi) hdesc (hk₁.trans hk₂) (habi.keeps hk₂) ht₂ hp₂
  refine ⟨⟨db₃, FunMap.insertAll r.stateRoot out, kc, mc, ka, ma,
    noteStorageRoots r.knownStorageRoots out⟩, ?_, ?_⟩
  · simp only [StateRebuilder.feed, hr, Outcome.ok_bind, hp₁, hp₂]
    rfl
  have hkeys : out.map Prod.fst = chunk.map Prod.fst := by
    rw [hout, List.map_map]
    rfl
  have hndo : (out.map Prod.fst).Nodup := hkeys ▸ hnd
  -- each account of the chunk: its piece, its account, and what the trie gets for it
  have hentry : ∀ a ∈ chunk.map Prod.fst, ∃ f acc, (a, f) ∈ chunk ∧ (a, acc) ∈ st.accounts ∧
      (a, acc.rebuilt (piecesOf a (fed ++ [chunk]))) ∈ out ∧
      entryAccount keccak r.knownStorageRoots (a, f) =
        (a, acc.rebuilt (piecesOf a (fed ++ [chunk]))) := by
    intro a ha
    obtain ⟨⟨a', f⟩, hmem, rfl⟩ := List.mem_map.mp ha
    obtain ⟨acc, hacc, hd⟩ := hdesc _ hmem
    have he := hinv.entryAccount_eq hsub hnd hmem hd
    exact ⟨f, acc, hmem, hacc, he ▸ List.mem_map_of_mem hmem, he⟩
  -- an account outside the chunk has the pieces it had
  have hsame : ∀ a ∉ chunk.map Prod.fst, piecesOf a (fed ++ [chunk]) = piecesOf a fed := by
    intro a ha
    rw [piecesOf_append, piecesOf_singleton, piecesIn_of_not_mem ha, List.append_nil]
  -- a split account of the chunk stands at one of its ends: its storage root is kept
  have hwritten : ∀ a ∈ chunk.map Prod.fst, 2 ≤ (piecesOf a chunks).length →
      noteStorageRoots r.knownStorageRoots out a =
        some (pieceStorage (piecesOf a (fed ++ [chunk]))) := by
    intro a ha hlen
    obtain ⟨f, acc, hmem, -, -, he⟩ := hentry a ha
    have hends : out.head? = some (a, acc.rebuilt (piecesOf a (fed ++ [chunk]))) ∨
        out.getLast? = some (a, acc.rebuilt (piecesOf a (fed ++ [chunk]))) := by
      rw [hout, List.head?_map, List.getLast?_map, ← he]
      rcases hs.split chunk hC (a, f) hmem hlen with hend | hend
      · exact .inl (by rw [hend]; rfl)
      · exact .inr (by rw [hend]; rfl)
    exact noteStorageRoots_of_ends hndo hends
  refine ⟨?_, ?_, ?_, ?_, ht₃, hcode'.keeps hk₃, habi'⟩
  · intro a acc hacc hp
    show FunMap.insertAll r.stateRoot out a = _
    by_cases ha : a ∈ chunk.map Prod.fst
    · obtain ⟨f, acc', -, hacc', hin, -⟩ := hentry a ha
      rw [hwf.account_unique hacc' hacc] at hin
      exact FunMap.insertAll_of_mem hndo hin
    · rw [FunMap.insertAll_of_not_mem (hkeys ▸ ha), hsame a ha]
      exact hinv.root a acc hacc (hsame a ha ▸ hp)
  · intro a hp
    show FunMap.insertAll r.stateRoot out a = none
    have ha : a ∉ chunk.map Prod.fst := by
      intro ha
      obtain ⟨f, -, hmem, -⟩ := hentry a ha
      rw [piecesOf_append, piecesOf_singleton, piecesIn_of_mem hnd hmem] at hp
      simp at hp
    rw [FunMap.insertAll_of_not_mem (hkeys ▸ ha)]
    exact hinv.rootNone a (hsame a ha ▸ hp)
  · intro a m hm
    change noteStorageRoots r.knownStorageRoots out a = some m at hm
    by_cases ha : a ∈ chunk.map Prod.fst
    · obtain ⟨f, acc, hmem, -, hin, -⟩ := hentry a ha
      have hpieces : piecesOf a (fed ++ [chunk]) ≠ [] := by
        rw [piecesOf_append, piecesOf_singleton, piecesIn_of_mem hnd hmem]
        simp
      refine ⟨hpieces, ?_⟩
      rcases noteStorageRoots_of_mem r.knownStorageRoots hndo hin with h | h
      · -- known before, so split, so at an end of the chunk, so written again
        rw [h] at hm
        have hw := hwritten a ha (two_le_piecesOf hsub hnd hmem (hinv.storageRoot a m hm).1)
        rw [h, hm] at hw
        exact Option.some.inj hw
      · rw [h, Option.some.injEq] at hm
        exact hm.symm
    · rw [noteStorageRoots_of_not_mem (hkeys ▸ ha)] at hm
      rw [hsame a ha]
      exact hinv.storageRoot a m hm
  · intro a hp hlen
    change (noteStorageRoots r.knownStorageRoots out a).isSome
    by_cases ha : a ∈ chunk.map Prod.fst
    · rw [hwritten a ha hlen]
      rfl
    · rw [noteStorageRoots_of_not_mem (hkeys ▸ ha)]
      exact hinv.storageSplit a (hsame a ha ▸ hp) hlen

/-! ## All the chunks -/

/-- Feeding the rest of the chunks, in the order given, keeps the invariant. -/
theorem feedAll_inv (hwf : st.WellFormed keccak) (hs : IsSnapshot keccak st chunks) :
    ∀ (rest fed : List Chunk) (r : StateRebuilder), (fed ++ rest).Perm chunks →
      RebuildInv keccak st chunks fed r →
      ∃ r', StateRebuilder.feedAll keccak r rest = .ok r' ∧
        RebuildInv keccak st chunks (fed ++ rest) r'
  | [], fed, r, _, hinv => ⟨r, rfl, by simpa using hinv⟩
  | chunk :: rest, fed, r, hperm, hinv => by
    have hsub : (fed ++ [chunk]).Subperm chunks :=
      (((List.nil_sublist rest).cons_cons chunk).append_left fed).subperm.trans hperm.subperm
    obtain ⟨r₁, hf₁, hi₁⟩ := feed_inv hwf hs hinv hsub
    obtain ⟨r₂, hf₂, hi₂⟩ :=
      feedAll_inv hwf hs rest (fed ++ [chunk]) r₁ (by simpa using hperm) hi₁
    refine ⟨r₂, ?_, by simpa using hi₂⟩
    rw [StateRebuilder.feedAll, hf₁, Outcome.ok_bind, hf₂]

/-- Once every chunk is fed, the rebuilder has the state back. -/
theorem RebuildInv.restores {order : List Chunk} (hwf : st.WellFormed keccak)
    (hs : IsSnapshot keccak st chunks) (hinv : RebuildInv keccak st chunks order r)
    (hperm : order.Perm chunks) : Restores keccak st r := by
  -- an account's pieces, in the order fed, are a permutation of its pieces
  have hpieces : ∀ a acc, (a, acc) ∈ st.accounts →
      piecesOf a order ≠ [] ∧ ((piecesOf a order).flatMap FatAccount.pairs).Perm acc.storage := by
    intro a acc hacc
    have hpp : (piecesOf a order).Perm (piecesOf a chunks) := hperm.flatMap_right _
    obtain ⟨hne, hpairs⟩ := hs.pieces a acc hacc
    refine ⟨fun h => hne (h ▸ hpp).symm.eq_nil, ?_⟩
    rw [← hpairs]
    exact hpp.flatMap_right _
  have hnodup : ((st.accounts.map fun e => (e.1, e.2.basic)).map Prod.fst).Nodup := by
    rw [List.map_map]
    exact hwf.addresses
  refine ⟨?_, ?_, ?_⟩
  · funext a
    by_cases ha : ∃ acc, (a, acc) ∈ st.accounts
    · obtain ⟨acc, hacc⟩ := ha
      obtain ⟨hp, hflat⟩ := hpieces a acc hacc
      -- the storage, fed in any order, is the account's: its keys are distinct
      have hst : pieceStorage (piecesOf a order) = FunMap.insertAll (fun _ => none) acc.storage :=
        FunMap.insertAll_perm ((hflat.map Prod.fst).nodup_iff.mpr (hwf.keys a acc hacc)) hflat
      rw [hinv.root a acc hacc hp, State.trie,
        FunMap.insertAll_of_mem hnodup (List.mem_map_of_mem (f := fun e => (e.1, e.2.basic)) hacc)]
      simp only [Account.rebuilt, Account.basic, hst]
    · have hp : piecesOf a order = [] := by
        refine piecesOf_eq_nil.mpr fun ch hch e he hea => ha ?_
        obtain ⟨acc, hacc, -⟩ := hs.describes ch (hperm.subset hch) e he
        exact ⟨acc, hea ▸ hacc⟩
      rw [hinv.rootNone a hp, State.trie, FunMap.insertAll_of_not_mem]
      rw [List.map_map]
      intro hmem
      obtain ⟨⟨b, acc⟩, hacc, rfl⟩ := List.mem_map.mp hmem
      exact ha ⟨acc, hacc⟩
  · intro a acc hacc hne
    exact hinv.code.restored_eq hwf hinv.cells hacc (hpieces a acc hacc).1 hne
      ((hs.code a acc hacc hne).of_perm hperm) (hwf.code a acc hacc hne)
  · intro a acc hacc hne
    exact hinv.abi.restored_eq hwf hinv.cells hacc (hpieces a acc hacc).1 hne
      ((hs.abi a acc hacc hne).of_perm hperm) (hwf.abi a acc hacc hne)

/-- Chunks that are a snapshot of a well-formed state, fed into a fresh
rebuilder in any order, restore it. -/
theorem feedAll_restores (hwf : st.WellFormed keccak) (hs : IsSnapshot keccak st chunks)
    {order : List Chunk} (hperm : order.Perm chunks) :
    ∃ r, StateRebuilder.feedAll keccak StateRebuilder.new order = .ok r ∧ Restores keccak st r := by
  obtain ⟨r, hr, hinv⟩ := feedAll_inv hwf hs order [] StateRebuilder.new hperm rebuildInv_new
  exact ⟨r, hr, RebuildInv.restores hwf hs hinv hperm⟩

end Feed

end Keccak

end Snapshot

end Cita
