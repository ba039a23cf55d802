import Cita.Executor.SnapshotRebuild
import Mathlib.Algebra.Order.BigOperators.Group.List
import Mathlib.Algebra.Order.Group.Nat

/-!
# What the chunker writes

`toFatRlps_spec` says what `to_fat_rlps` makes of one account: at most a
marker, then a first piece with the account's header as the chunk found
it (the only one that may carry code or ABI inline, and within the first
chunk size unless a marker came first), then pieces whose header refers
to code and ABI by hash, each within the maximum chunk size as soon as it
holds a pair; their pairs, in order, are the account's storage.

`chunkAccounts` keeps `ChunkInv`, the snapshot format over the accounts
walked so far, with the chunk still being filled kept apart: an account
split over several pieces stands at its head. `chunkState_isSnapshot`
follows, and with `feedAll_restores` the round trip `snapshot_round_trip`.
-/

namespace Cita

namespace Snapshot

variable (keccak : Bytes → H256) (streamLen : Address → FatAccount → Nat)

/-- The chunk the items make once written: the markers are gone. -/
def chunkOf (items : List FatRlp) : Chunk := items.filterMap FatRlp.entry?

@[simp] theorem chunkOf_nil : chunkOf [] = [] := rfl

@[simp] theorem chunkOf_append (l l' : List FatRlp) : chunkOf (l ++ l') = chunkOf l ++ chunkOf l' :=
  List.filterMap_append

@[simp] theorem chunkOf_cons_marker (l : List FatRlp) : chunkOf (.marker :: l) = chunkOf l := rfl

@[simp] theorem chunkOf_cons_piece (a : Address) (f : FatAccount) (l : List FatRlp) :
    chunkOf (.piece a f :: l) = (a, f) :: chunkOf l := rfl

/-! ## The code and ABI fields -/

section CodeField

variable {db : H256 → Option Bytes} {h : H256} {used : List H256}

/-- The four ways `codeField` goes. -/
theorem codeField_cases (db : H256 → Option Bytes) (h : H256) (used : List H256) :
    (h = hashEmpty keccak ∧ codeField keccak db h used = (.empty, used)) ∨
    (h ≠ hashEmpty keccak ∧ h ∈ used ∧ codeField keccak db h used = (.hash h, used)) ∨
    (h ≠ hashEmpty keccak ∧ h ∉ used ∧
      ∃ c, db h = some c ∧ codeField keccak db h used = (.inline c, h :: used)) ∨
    (h ≠ hashEmpty keccak ∧ h ∉ used ∧ db h = none ∧ codeField keccak db h used = (.empty, used)) := by
  by_cases he : h = hashEmpty keccak
  · exact .inl ⟨he, by simp [codeField, he]⟩
  by_cases hu : h ∈ used
  · exact .inr (.inl ⟨he, hu, by simp [codeField, he, hu]⟩)
  cases hdb : db h with
  | some c => exact .inr (.inr (.inl ⟨he, hu, c, rfl, by simp [codeField, he, hu, hdb]⟩))
  | none => exact .inr (.inr (.inr ⟨he, hu, rfl, by simp [codeField, he, hu, hdb]⟩))

theorem subset_codeField : used ⊆ (codeField keccak db h used).2 := by
  rcases codeField_cases keccak db h used with ⟨-, he⟩ | ⟨-, -, he⟩ | ⟨-, -, c, -, he⟩ | ⟨-, -, -, he⟩ <;>
    simp [he]

theorem mem_codeField {h' : H256} (hm : h' ∈ (codeField keccak db h used).2) :
    h' ∈ used ∨ ∃ c, (codeField keccak db h used).1 = .inline c ∧ db h = some c ∧ h' = h := by
  rcases codeField_cases keccak db h used with ⟨-, he⟩ | ⟨-, -, he⟩ | ⟨-, -, c, hc, he⟩ | ⟨-, -, -, he⟩
  · exact .inl (by simpa [he] using hm)
  · exact .inl (by simpa [he] using hm)
  · rw [he] at hm ⊢
    rcases List.mem_cons.mp hm with rfl | hm
    · exact .inr ⟨c, rfl, hc, rfl⟩
    · exact .inl hm
  · exact .inl (by simpa [he] using hm)

theorem self_mem_codeField (hne : h ≠ hashEmpty keccak) (hdb : (db h).isSome) :
    h ∈ (codeField keccak db h used).2 := by
  rcases codeField_cases keccak db h used with ⟨he, -⟩ | ⟨-, hu, he⟩ | ⟨-, -, c, -, he⟩ |
      ⟨-, -, hn, -⟩
  · exact absurd he hne
  · simpa [he] using hu
  · simp [he]
  · simp [hn] at hdb

/-- A field of a present code describes it. -/
theorem codeField_describes (hne : h ≠ hashEmpty keccak → (db h).isSome)
    (hst : ∀ c, db h = some c → keccak c = h) :
    (codeField keccak db h used).1.Describes keccak db h := by
  rcases codeField_cases keccak db h used with ⟨he, hc⟩ | ⟨-, -, hc⟩ | ⟨-, -, c, hdb, hc⟩ |
      ⟨he, -, hn, -⟩
  · rw [hc]
    exact he
  · rw [hc]
    rfl
  · rw [hc]
    exact ⟨hst c hdb, hdb⟩
  · simp [hn] at hne
    exact absurd hne he

variable (db h used) in
/-- Asked again with what it returned, `codeField` refers by hash and
returns the same hashes. -/
theorem codeField_again :
    (codeField keccak db h (codeField keccak db h used).2).2 = (codeField keccak db h used).2 ∧
      ∀ c, (codeField keccak db h (codeField keccak db h used).2).1 ≠ .inline c := by
  rcases codeField_cases keccak db h used with ⟨he, hc⟩ | ⟨hne, hu, hc⟩ | ⟨hne, -, c, -, hc⟩ |
      ⟨hne, hu, hn, hc⟩
  · rw [hc]
    simp [codeField, he]
  · rw [hc]
    simp [codeField, hne, hu]
  · rw [hc]
    simp [codeField, hne]
  · rw [hc]
    simp [codeField, hne, hu, hn]

end CodeField

section Header

variable {acc : Account} {db : H256 → Option Bytes} {used : Used}

theorem fatHeader_eq (acc : Account) (db : H256 → Option Bytes) (used : Used) :
    fatHeader keccak acc db used =
      (⟨acc.nonce, acc.balance, (codeField keccak db acc.codeHash used.code).1,
          (codeField keccak db acc.abiHash used.abi).1, []⟩,
        ⟨(codeField keccak db acc.codeHash used.code).2,
          (codeField keccak db acc.abiHash used.abi).2⟩) :=
  rfl

variable (acc db used) in
/-- The header of the pieces after the first: the same hashes, and no code
or ABI inline. -/
theorem fatHeader_again :
    (fatHeader keccak acc db (fatHeader keccak acc db used).2).2 = (fatHeader keccak acc db used).2 ∧
      (∀ c, (fatHeader keccak acc db (fatHeader keccak acc db used).2).1.code ≠ .inline c) ∧
      (∀ c, (fatHeader keccak acc db (fatHeader keccak acc db used).2).1.abi ≠ .inline c) := by
  obtain ⟨hc₁, hc₂⟩ := codeField_again keccak db acc.codeHash used.code
  obtain ⟨ha₁, ha₂⟩ := codeField_again keccak db acc.abiHash used.abi
  simp only [fatHeader_eq] at hc₁ hc₂ ha₁ ha₂ ⊢
  exact ⟨by rw [hc₁, ha₁], hc₂, ha₂⟩

variable (acc db used) in
/-- The header asked again, as `fillPieces` meets it: the hashes used do
not change. -/
theorem fatHeader_again_eq :
    fatHeader keccak acc db (fatHeader keccak acc db used).2 =
      ((fatHeader keccak acc db (fatHeader keccak acc db used).2).1,
        (fatHeader keccak acc db used).2) :=
  Prod.ext rfl (fatHeader_again keccak acc db used).1

theorem fatHeader_pairs {header : FatAccount} {used' : Used}
    (h : fatHeader keccak acc db used = (header, used')) : header.pairs = [] := by
  rw [← congrArg (fun x => x.1.pairs) h]
  rfl

end Header

theorem FatAccount.header_of_pairs_nil {f : FatAccount} (h : f.pairs = []) (ps : List (Bytes × Bytes)) :
    { { f with pairs := ps } with pairs := [] } = f := by
  obtain ⟨_, _, _, _, _⟩ := f
  subst h
  rfl

/-! ## One account -/

section Account

variable {address : Address} {acc : Account} {db : H256 → Option Bytes} {maxChunkSize : Nat}

/-- The loops of `to_fat_rlps`, from a piece being filled: that piece comes
out first, with the pairs that fit, and every piece after it has the header
`header` and a size within `maxChunkSize` once it holds a pair. -/
theorem fillPieces_spec {header : FatAccount} {used : Used}
    (hheader : fatHeader keccak acc db used = (header, used)) :
    ∀ (pairs : List (Bytes × Bytes)) (piece : FatAccount) (target : Nat)
      (items out : List FatRlp) (used' : Used),
      (piece.pairs ≠ [] → streamLen address piece ≤ target) →
      fillPieces keccak streamLen address acc db maxChunkSize pairs piece target items used =
        .ok (out, used') →
      used' = used ∧ ∃ first rest, out = items ++ .piece address first :: rest ∧
        { first with pairs := [] } = { piece with pairs := [] } ∧
        (first.pairs ≠ [] → streamLen address first ≤ target) ∧
        first.pairs ++ ((chunkOf rest).map Prod.snd).flatMap FatAccount.pairs =
          piece.pairs ++ pairs ∧
        ∀ e ∈ chunkOf rest, e.1 = address ∧ { e.2 with pairs := [] } = header ∧
          (e.2.pairs ≠ [] → streamLen address e.2 ≤ maxChunkSize) := by
  intro pairs
  induction pairs with
  | nil =>
    intro piece target items out used' hfit h
    simp only [fillPieces, Outcome.ok.injEq, Prod.mk.injEq] at h
    obtain ⟨rfl, rfl⟩ := h
    exact ⟨rfl, piece, [], rfl, rfl, hfit, by simp, by simp⟩
  | cons p pairs ih =>
    intro piece target items out used' hfit h
    simp only [fillPieces, hheader] at h
    by_cases hle : streamLen address { piece with pairs := piece.pairs ++ [p] } ≤ target
    · -- `p` fits in the piece
      rw [if_pos hle] at h
      obtain ⟨rfl, first, rest, rfl, hhd, hfst, hpairs, hrest⟩ :=
        ih _ target items out used' (fun _ => hle) h
      exact ⟨rfl, first, rest, rfl, hhd, hfst, by simpa using hpairs, hrest⟩
    · -- the piece is full: `p` is the leftover of the next one, which must hold it
      rw [if_neg hle] at h
      by_cases hbig : maxChunkSize < streamLen address { header with pairs := [p] }
      · rw [if_pos hbig] at h
        cases h
      rw [if_neg hbig] at h
      obtain ⟨rfl, first, rest, hout, hhd, hfst, hpairs, hrest⟩ :=
        ih _ maxChunkSize _ out used' (fun _ => Nat.le_of_not_lt hbig) h
      have hmarker : ∃ ms, chunkOf ms = [] ∧ out = items ++ .piece address piece :: ms ++
          .piece address first :: rest := by
        by_cases hm : maxChunkSize < streamLen address header
        · exact ⟨[.marker], rfl, by simp [hout, hm]⟩
        · exact ⟨[], rfl, by simp [hout, hm]⟩
      obtain ⟨ms, hms, rfl⟩ := hmarker
      refine ⟨rfl, piece, ms ++ .piece address first :: rest, by simp, rfl, hfit, ?_, ?_⟩
      · simp only [chunkOf_append, hms, chunkOf_cons_piece, List.nil_append, List.map_cons,
          List.flatMap_cons]
        rw [hpairs]
        rfl
      · intro e he
        simp only [chunkOf_append, hms, chunkOf_cons_piece, List.nil_append, List.mem_cons] at he
        rcases he with rfl | he
        · exact ⟨rfl, hhd.trans (FatAccount.header_of_pairs_nil (fatHeader_pairs keccak hheader) _), hfst⟩
        · exact hrest e he

/-- `to_fat_rlps`: at most a marker, then the first piece with the header
as the chunk found it, then pieces with the header asked again, which
refers to code and ABI by hash. -/
theorem toFatRlps_spec {used used' : Used} {firstChunkSize : Nat} {items : List FatRlp}
    (h : toFatRlps keccak streamLen address acc db used firstChunkSize maxChunkSize =
      .ok (items, used')) :
    used' = (fatHeader keccak acc db used).2 ∧
      ∃ pre f rest, items = pre ++ .piece address f :: rest ∧ chunkOf pre = [] ∧
        { f with pairs := [] } = (fatHeader keccak acc db used).1 ∧
        ((pre = [] ∧ (f.pairs ≠ [] → streamLen address f ≤ firstChunkSize)) ∨
          (pre = [.marker] ∧ (f.pairs ≠ [] → streamLen address f ≤ maxChunkSize))) ∧
        f.pairs ++ ((chunkOf rest).map Prod.snd).flatMap FatAccount.pairs = acc.storage ∧
        ∀ e ∈ chunkOf rest, e.1 = address ∧
          { e.2 with pairs := [] } = (fatHeader keccak acc db used').1 ∧
          (e.2.pairs ≠ [] → streamLen address e.2 ≤ maxChunkSize) := by
  have hh' := fatHeader_again_eq keccak acc db used
  have hnil : (fatHeader keccak acc db used).1.pairs = [] := rfl
  simp only [toFatRlps] at h
  by_cases hm : firstChunkSize < streamLen address (fatHeader keccak acc db used).1
  · rw [if_pos hm] at h
    obtain ⟨rfl, f, rest, rfl, hhd, hfst, hpairs, hrest⟩ :=
      fillPieces_spec keccak streamLen hh' acc.storage _ _ _ _ _ (fun hne => absurd hnil hne) h
    refine ⟨rfl, [.marker], f, rest, rfl, rfl, ?_, .inr ⟨rfl, hfst⟩, ?_, hrest⟩
    · rw [hhd]
      exact FatAccount.header_of_pairs_nil hnil _
    · rw [hpairs, hnil, List.nil_append]
  · rw [if_neg hm] at h
    obtain ⟨rfl, f, rest, rfl, hhd, hfst, hpairs, hrest⟩ :=
      fillPieces_spec keccak streamLen hh' acc.storage _ _ _ _ _ (fun hne => absurd hnil hne) h
    refine ⟨rfl, [], f, rest, rfl, rfl, ?_, .inl ⟨rfl, hfst⟩, ?_, hrest⟩
    · rw [hhd]
      exact FatAccount.header_of_pairs_nil hnil _
    · rw [hpairs, hnil, List.nil_append]

/-- The loops of `to_fat_rlps` fail only on a leftover pair that does not
fit in a chunk under the header asked again. -/
theorem fillPieces_ok {header : FatAccount} {used : Used}
    (hheader : fatHeader keccak acc db used = (header, used)) :
    ∀ (pairs : List (Bytes × Bytes)),
      (∀ p ∈ pairs, streamLen address { header with pairs := [p] } ≤ maxChunkSize) →
      ∀ (piece : FatAccount) (target : Nat) (items : List FatRlp), ∃ out,
        fillPieces keccak streamLen address acc db maxChunkSize pairs piece target items used =
          .ok (out, used)
  | [], _, piece, _, items => ⟨items ++ [.piece address piece], rfl⟩
  | p :: pairs, hfit, piece, target, items => by
    have hrest := fillPieces_ok hheader pairs fun q hq => hfit q (List.mem_cons_of_mem _ hq)
    simp only [fillPieces, hheader]
    by_cases hle : streamLen address { piece with pairs := piece.pairs ++ [p] } ≤ target
    · rw [if_pos hle]
      exact hrest _ _ _
    · -- the leftover `p` fits in a piece of its own
      rw [if_neg hle, if_neg (Nat.not_lt.mpr (hfit p List.mem_cons_self))]
      exact hrest _ _ _

/-- `to_fat_rlps` succeeds when every pair fits under the header asked again. -/
theorem toFatRlps_ok {used : Used} {firstChunkSize : Nat}
    (hfit : ∀ p ∈ acc.storage, streamLen address
      { (fatHeader keccak acc db (fatHeader keccak acc db used).2).1 with pairs := [p] } ≤
        maxChunkSize) :
    ∃ items, toFatRlps keccak streamLen address acc db used firstChunkSize maxChunkSize =
      .ok (items, (fatHeader keccak acc db used).2) := by
  have hok := fillPieces_ok keccak streamLen (fatHeader_again_eq keccak acc db used) acc.storage hfit
  simp only [toFatRlps]
  by_cases hm : firstChunkSize < streamLen address (fatHeader keccak acc db used).1
  · rw [if_pos hm]
    exact hok _ _ _
  · rw [if_neg hm]
    exact hok _ _ _

end Account


/-! ## The pieces of one account -/

theorem FatAccount.Describes.of_header {db : H256 → Option Bytes} {acc : Account}
    {f g : FatAccount} (h : { f with pairs := [] } = g) (hg : g.Describes keccak db acc) :
    f.Describes keccak db acc := by
  subst h
  exact ⟨hg.nonce, hg.balance, hg.code, hg.abi⟩

section AccountPieces

variable {address : Address} {acc : Account} {db : H256 → Option Bytes}

theorem fatHeader_describes (used : Used)
    (hcode : acc.codeHash ≠ hashEmpty keccak → (db acc.codeHash).isSome)
    (habi : acc.abiHash ≠ hashEmpty keccak → (db acc.abiHash).isSome)
    (hst : ∀ h c, db h = some c → keccak c = h) :
    (fatHeader keccak acc db used).1.Describes keccak db acc :=
  ⟨rfl, rfl, codeField_describes keccak hcode (hst _), codeField_describes keccak habi (hst _)⟩

/-- What the chunker needs of one account's pieces: they describe it,
their pairs are its storage, and the hashes `to_fat_rlps` marks as written
were written inline by these pieces, or before. -/
theorem toFatRlps_pieces {used used' : Used} {firstChunkSize maxChunkSize : Nat}
    {items : List FatRlp}
    (hcode : acc.codeHash ≠ hashEmpty keccak → (db acc.codeHash).isSome)
    (habi : acc.abiHash ≠ hashEmpty keccak → (db acc.abiHash).isSome)
    (hst : ∀ h c, db h = some c → keccak c = h)
    (h : toFatRlps keccak streamLen address acc db used firstChunkSize maxChunkSize =
      .ok (items, used')) :
    (∀ e ∈ chunkOf items, e.1 = address ∧ e.2.Describes keccak db acc) ∧
      chunkOf items ≠ [] ∧ ((chunkOf items).map Prod.snd).flatMap FatAccount.pairs = acc.storage ∧
      used.code ⊆ used'.code ∧ used.abi ⊆ used'.abi ∧
      (∀ h ∈ used'.code, h ∈ used.code ∨
        ∃ e ∈ chunkOf items, ∃ c, e.2.code = .inline c ∧ keccak c = h) ∧
      (∀ h ∈ used'.abi, h ∈ used.abi ∨
        ∃ e ∈ chunkOf items, ∃ c, e.2.abi = .inline c ∧ keccak c = h) ∧
      (acc.codeHash ≠ hashEmpty keccak → acc.codeHash ∈ used'.code) ∧
      (acc.abiHash ≠ hashEmpty keccak → acc.abiHash ∈ used'.abi) := by
  obtain ⟨rfl, pre, f, rest, rfl, hpre, hhd, -, hpairs, hrest⟩ := toFatRlps_spec keccak streamLen h
  have hitems : chunkOf (pre ++ .piece address f :: rest) = (address, f) :: chunkOf rest := by
    simp [hpre]
  have hfirst : f.code = (codeField keccak db acc.codeHash used.code).1 ∧
      f.abi = (codeField keccak db acc.abiHash used.abi).1 := by
    have hc := congrArg FatAccount.code hhd
    have ha := congrArg FatAccount.abi hhd
    exact ⟨hc, ha⟩
  rw [hitems]
  refine ⟨?_, List.cons_ne_nil _ _, by simpa using hpairs, subset_codeField keccak,
    subset_codeField keccak, ?_, ?_, fun hne => self_mem_codeField keccak hne (hcode hne),
    fun hne => self_mem_codeField keccak hne (habi hne)⟩
  · intro e he
    rcases List.mem_cons.mp he with rfl | he
    · exact ⟨rfl, (fatHeader_describes keccak used hcode habi hst).of_header keccak hhd⟩
    · obtain ⟨ha, hh, -⟩ := hrest e he
      exact ⟨ha, (fatHeader_describes keccak _ hcode habi hst).of_header keccak hh⟩
  · intro h hm
    rcases mem_codeField keccak hm with hm | ⟨c, hc, hdb, rfl⟩
    · exact .inl hm
    · exact .inr ⟨(address, f), List.mem_cons_self, c, hfirst.1.trans hc, hst _ _ hdb⟩
  · intro h hm
    rcases mem_codeField keccak hm with hm | ⟨c, hc, hdb, rfl⟩
    · exact .inl hm
    · exact .inr ⟨(address, f), List.mem_cons_self, c, hfirst.2.trans hc, hst _ _ hdb⟩

end AccountPieces

/-! ## The chunker -/

section Chunker

/-- The chunks written, then the one being filled. -/
def StateChunker.closed (c : StateChunker) : List Chunk := c.chunks ++ [chunkOf c.rlps]

/-- `cur_size` is the size of the items of the chunk being filled. -/
def StateChunker.Sized (c : StateChunker) : Prop :=
  c.curSize = (c.rlps.map (FatRlp.size streamLen)).sum

@[simp] theorem writeChunk_chunks (c : StateChunker) :
    c.writeChunk.chunks = c.chunks ++ [chunkOf c.rlps] := rfl

@[simp] theorem writeChunk_rlps (c : StateChunker) : c.writeChunk.rlps = [] := rfl

@[simp] theorem push_chunks (c : StateChunker) (x : FatRlp) :
    (c.push streamLen x).chunks = c.chunks := rfl

@[simp] theorem push_rlps (c : StateChunker) (x : FatRlp) :
    (c.push streamLen x).rlps = c.rlps ++ [x] := rfl

theorem StateChunker.Sized.push {c : StateChunker} (h : c.Sized streamLen) (x : FatRlp) :
    (c.push streamLen x).Sized streamLen := by
  unfold StateChunker.Sized at h ⊢
  simp [StateChunker.push, h]

theorem StateChunker.Sized.pushFatRlps {c : StateChunker} (h : c.Sized streamLen) (items : List FatRlp) :
    (c.pushFatRlps streamLen items).Sized streamLen := by
  cases items with
  | nil => exact h
  | cons x xs =>
    rw [StateChunker.pushFatRlps]
    -- every later item goes into a fresh chunk, whose size starts from nothing
    induction xs generalizing c x with
    | nil => exact h.push streamLen x
    | cons y ys ih =>
      rw [List.foldl_cons]
      have hw : (c.push streamLen x).writeChunk.Sized streamLen := rfl
      exact ih hw y

theorem closed_foldl (c : StateChunker) (xs : List FatRlp) :
    (xs.foldl (fun c f => c.writeChunk.push streamLen f) c).closed =
      c.chunks ++ chunkOf c.rlps :: xs.map fun y => chunkOf [y] := by
  induction xs generalizing c with
  | nil => rfl
  | cons x xs ih =>
    rw [List.foldl_cons, ih]
    simp

theorem closed_pushFatRlps (c : StateChunker) (x : FatRlp) (xs : List FatRlp) :
    (c.pushFatRlps streamLen (x :: xs)).closed =
      c.chunks ++ (chunkOf c.rlps ++ chunkOf [x]) :: xs.map fun y => chunkOf [y] := by
  rw [StateChunker.pushFatRlps, closed_foldl]
  simp

theorem piecesOf_cons (b : Address) (ch : Chunk) (chs : List Chunk) :
    piecesOf b (ch :: chs) = piecesIn b ch ++ piecesOf b chs :=
  List.flatMap_cons

theorem piecesOf_map_single (b : Address) (xs : List FatRlp) :
    piecesOf b (xs.map fun y => chunkOf [y]) = piecesIn b (chunkOf xs) := by
  induction xs with
  | nil => rfl
  | cons x xs ih =>
    rw [List.map_cons, piecesOf_cons, ih, ← piecesIn_append, ← chunkOf_append]
    rfl

/-- Pushing an account's items adds its pieces after those already there. -/
theorem piecesOf_pushFatRlps (c : StateChunker) (items : List FatRlp) (b : Address) :
    piecesOf b (c.pushFatRlps streamLen items).closed =
      piecesOf b c.closed ++ piecesIn b (chunkOf items) := by
  cases items with
  | nil => simp [StateChunker.pushFatRlps]
  | cons x xs =>
    rw [closed_pushFatRlps, StateChunker.closed, piecesOf_append, piecesOf_cons,
      piecesOf_map_single, piecesOf_append, piecesOf_singleton, piecesIn_append,
      show x :: xs = [x] ++ xs from rfl, chunkOf_append, piecesIn_append]
    simp only [List.append_assoc]

theorem mem_map_single {e : Address × FatAccount} (xs : List FatRlp) :
    (∃ ch ∈ xs.map (fun y => chunkOf [y]), e ∈ ch) ↔ e ∈ chunkOf xs := by
  induction xs with
  | nil => simp
  | cons x xs ih =>
    rw [show x :: xs = [x] ++ xs from rfl, chunkOf_append, List.mem_append, ← ih]
    simp

/-- The entries after pushing: those before, and the account's. -/
theorem mem_closed_pushFatRlps {c : StateChunker} {items : List FatRlp}
    {e : Address × FatAccount} :
    (∃ ch ∈ (c.pushFatRlps streamLen items).closed, e ∈ ch) ↔
      (∃ ch ∈ c.closed, e ∈ ch) ∨ e ∈ chunkOf items := by
  cases items with
  | nil => simp [StateChunker.pushFatRlps]
  | cons x xs =>
    have hM := mem_map_single (e := e) xs
    rw [closed_pushFatRlps, show x :: xs = [x] ++ xs from rfl, chunkOf_append]
    constructor
    · rintro ⟨ch, hch, he⟩
      rcases List.mem_append.mp hch with hch | hch
      · exact .inl ⟨ch, List.mem_append_left _ hch, he⟩
      rcases List.mem_cons.mp hch with rfl | hch
      · rcases List.mem_append.mp he with he | he
        · exact .inl ⟨_, List.mem_append_right _ (List.mem_singleton_self _), he⟩
        · exact .inr (List.mem_append_left _ he)
      · exact .inr (List.mem_append_right _ (hM.mp ⟨ch, hch, he⟩))
    · rintro (⟨ch, hch, he⟩ | he)
      · rcases List.mem_append.mp hch with hch | hch
        · exact ⟨ch, List.mem_append_left _ hch, he⟩
        · rw [List.mem_singleton.mp hch] at he
          exact ⟨_, List.mem_append_right _ List.mem_cons_self, List.mem_append_left _ he⟩
      · rcases List.mem_append.mp he with he | he
        · exact ⟨_, List.mem_append_right _ List.mem_cons_self, List.mem_append_right _ he⟩
        · obtain ⟨ch, hch, he⟩ := hM.mpr he
          exact ⟨ch, List.mem_append_right _ (List.mem_cons_of_mem _ hch), he⟩

theorem length_chunkOf_single (x : FatRlp) : (chunkOf [x]).length ≤ 1 := by
  cases x <;> simp

theorem eq_of_mem_chunkOf_single {x : FatRlp} {e : Address × FatAccount} (he : e ∈ chunkOf [x]) :
    chunkOf [x] = [e] := by
  cases x with
  | marker => cases he
  | piece b f =>
    simp only [chunkOf_cons_piece, chunkOf_nil, List.mem_singleton] at he ⊢
    rw [he]

theorem piecesIn_of_forall {a : Address} {ch : Chunk} (h : ∀ e ∈ ch, e.1 = a) :
    piecesIn a ch = ch.map Prod.snd := by
  induction ch with
  | nil => rfl
  | cons e ch ih =>
    have he : e.1 = a := h e List.mem_cons_self
    rw [show e :: ch = [e] ++ ch from rfl, piecesIn_append,
      ih fun e' he' => h e' (List.mem_cons_of_mem _ he')]
    simp [piecesIn, he]

theorem nodup_chunkOf_single (x : FatRlp) : ((chunkOf [x]).map Prod.fst).Nodup := by
  cases x <;> simp

/-- The chunks written while pushing the later items of an account: the
chunk being filled, then one chunk for each item but the last. -/
theorem mem_chunks_foldl {c : StateChunker} {xs : List FatRlp} {ch : Chunk}
    (h : ch ∈ (xs.foldl (fun c f => c.writeChunk.push streamLen f) c).chunks) :
    ch ∈ c.chunks ∨ (xs ≠ [] ∧ ch = chunkOf c.rlps) ∨ ∃ y ∈ xs, ch = chunkOf [y] := by
  induction xs generalizing c with
  | nil => exact .inl h
  | cons y ys ih =>
    rw [List.foldl_cons] at h
    rcases ih h with h | ⟨-, rfl⟩ | ⟨z, hz, rfl⟩
    · rw [push_chunks, writeChunk_chunks, List.mem_append, List.mem_singleton] at h
      rcases h with h | rfl
      · exact .inl h
      · exact .inr (.inl ⟨List.cons_ne_nil _ _, rfl⟩)
    · exact .inr (.inr ⟨y, List.mem_cons_self, rfl⟩)
    · exact .inr (.inr ⟨z, List.mem_cons_of_mem _ hz, rfl⟩)

theorem rlps_foldl (c : StateChunker) {xs : List FatRlp} (hxs : xs ≠ []) :
    ∃ y ∈ xs, (xs.foldl (fun c f => c.writeChunk.push streamLen f) c).rlps = [y] := by
  induction xs generalizing c with
  | nil => exact absurd rfl hxs
  | cons y ys ih =>
    rw [List.foldl_cons]
    by_cases hys : ys = []
    · subst hys
      exact ⟨y, List.mem_cons_self, rfl⟩
    · obtain ⟨z, hz, h⟩ := ih _ hys
      exact ⟨z, List.mem_cons_of_mem _ hz, h⟩

variable {st : State}

variable (st) in
/-- The snapshot format over the accounts `done` walked so far, with the
chunk being filled kept apart: a split account there can only be first. -/
structure ChunkInv (done : List (Address × Account)) (c : StateChunker) (used : Used) : Prop where
  describes : ∀ ch ∈ c.closed, ∀ e ∈ ch,
    ∃ acc, (e.1, acc) ∈ done ∧ e.2.Describes keccak (st.db e.1) acc
  nodup : ∀ ch ∈ c.closed, (ch.map Prod.fst).Nodup
  pieces : ∀ a acc, (a, acc) ∈ done →
    piecesOf a c.closed ≠ [] ∧ (piecesOf a c.closed).flatMap FatAccount.pairs = acc.storage
  split : ∀ ch ∈ c.chunks, ∀ e ∈ ch, 2 ≤ (piecesOf e.1 c.closed).length →
    ch.head? = some e ∨ ch.getLast? = some e
  head : ∀ e ∈ chunkOf c.rlps, 2 ≤ (piecesOf e.1 c.closed).length →
    (chunkOf c.rlps).head? = some e
  usedCode : ∀ h ∈ used.code, CarriesInline keccak FatAccount.code c.closed h
  usedAbi : ∀ h ∈ used.abi, CarriesInline keccak FatAccount.abi c.closed h
  code : ∀ a acc, (a, acc) ∈ done → acc.codeHash ≠ hashEmpty keccak → acc.codeHash ∈ used.code
  abi : ∀ a acc, (a, acc) ∈ done → acc.abiHash ≠ hashEmpty keccak → acc.abiHash ∈ used.abi
  sized : c.Sized streamLen

theorem chunkInv_init : ChunkInv keccak streamLen st [] ⟨[], [], 0⟩ ⟨[], []⟩ where
  describes ch hch e he := by
    rw [StateChunker.closed, List.mem_append, List.mem_singleton] at hch
    rcases hch with hch | rfl
    · cases hch
    · cases he
  nodup ch hch := by
    rw [StateChunker.closed, List.mem_append, List.mem_singleton] at hch
    rcases hch with hch | rfl
    · cases hch
    · exact List.nodup_nil
  pieces _ _ h := by cases h
  split _ h := by cases h
  head _ h := by cases h
  usedCode _ h := by cases h
  usedAbi _ h := by cases h
  code _ _ h := by cases h
  abi _ _ h := by cases h
  sized := rfl

theorem CarriesInline.pushFatRlps {field : FatAccount → CodeField} {c : StateChunker}
    {items : List FatRlp} {h : H256} (hc : CarriesInline keccak field c.closed h) :
    CarriesInline keccak field (c.pushFatRlps streamLen items).closed h := by
  obtain ⟨ch, hch, e, he, rest⟩ := hc
  obtain ⟨ch', hch', he'⟩ := (mem_closed_pushFatRlps streamLen).mpr (.inl ⟨ch, hch, he⟩)
  exact ⟨ch', hch', e, he', rest⟩

theorem CarriesInline.of_items {field : FatAccount → CodeField} {c : StateChunker}
    {items : List FatRlp} {e : Address × FatAccount} (he : e ∈ chunkOf items) {code : Bytes}
    (hcode : field e.2 = .inline code) :
    CarriesInline keccak field (c.pushFatRlps streamLen items).closed (keccak code) := by
  obtain ⟨ch', hch', he'⟩ := (mem_closed_pushFatRlps streamLen).mpr (.inr he)
  exact ⟨ch', hch', e, he', code, hcode, rfl⟩

/-- Pushing the items of one more account keeps the invariant. -/
theorem ChunkInv.step {done : List (Address × Account)} {c : StateChunker} {used used' : Used}
    {a : Address} {acc : Account} {items : List FatRlp} {first maxChunkSize : Nat}
    (hwf : st.WellFormed keccak) (hi : ChunkInv keccak streamLen st done c used)
    (hacc : (a, acc) ∈ st.accounts) (hnew : a ∉ done.map Prod.fst)
    (h : toFatRlps keccak streamLen a acc (st.db a) used first maxChunkSize = .ok (items, used')) :
    ChunkInv keccak streamLen st (done ++ [(a, acc)]) (c.pushFatRlps streamLen items) used' := by
  obtain ⟨hent, hne, hpairs, hsubc, hsuba, hnewc, hnewa, hselfc, hselfa⟩ :=
    toFatRlps_pieces keccak streamLen (hwf.code a acc hacc) (hwf.abi a acc hacc)
      (hwf.stored a) h
  -- nothing pushed before is at `a`
  have hold : ∀ ch ∈ c.closed, ∀ e ∈ ch, e.1 ≠ a := by
    intro ch hch e he hea
    obtain ⟨acc', hacc', -⟩ := hi.describes ch hch e he
    exact hnew (List.mem_map.mpr ⟨_, hacc', hea⟩)
  have hpa : piecesOf a (c.pushFatRlps streamLen items).closed = (chunkOf items).map Prod.snd := by
    rw [piecesOf_pushFatRlps, piecesOf_eq_nil.mpr hold, List.nil_append,
      piecesIn_of_forall fun e he => (hent e he).1]
  have hpb : ∀ b ≠ a, piecesOf b (c.pushFatRlps streamLen items).closed = piecesOf b c.closed := by
    intro b hb
    rw [piecesOf_pushFatRlps, piecesIn_of_not_mem, List.append_nil]
    intro hm
    obtain ⟨e, he, rfl⟩ := List.mem_map.mp hm
    exact hb (hent e he).1
  -- an old entry keeps its count of pieces
  have hcount : ∀ ch ∈ c.closed, ∀ e ∈ ch,
      piecesOf e.1 (c.pushFatRlps streamLen items).closed = piecesOf e.1 c.closed :=
    fun ch hch e he => hpb e.1 (hold ch hch e he)
  have hpend : chunkOf c.rlps ∈ c.closed := List.mem_append_right _ (List.mem_singleton_self _)
  have hwritten : ∀ ch ∈ c.chunks, ch ∈ c.closed := fun ch hch => List.mem_append_left _ hch
  obtain ⟨x, xs, rfl⟩ : ∃ x xs, items = x :: xs := by
    cases items with
    | nil => exact absurd rfl hne
    | cons x xs => exact ⟨x, xs, rfl⟩
  have hx : ∀ e ∈ chunkOf [x], e ∈ chunkOf (x :: xs) := fun e he => by
    rw [show x :: xs = [x] ++ xs from rfl, chunkOf_append]
    exact List.mem_append_left _ he
  have hy : ∀ y ∈ xs, ∀ e ∈ chunkOf [y], e ∈ chunkOf (x :: xs) := fun y hy e he => by
    rw [show x :: xs = [x] ++ xs from rfl, chunkOf_append]
    exact List.mem_append_right _ (List.filterMap_subset _
      (fun z hz => List.mem_singleton.mp hz ▸ hy) he)
  -- an old entry of the chunk being filled that is split stands first in it
  have hheadP : ∀ e ∈ chunkOf c.rlps, ∀ X : Chunk,
      2 ≤ (piecesOf e.1 (c.pushFatRlps streamLen (x :: xs)).closed).length →
      (chunkOf c.rlps ++ X).head? = some e := by
    intro e he X hlen
    rw [hcount _ hpend e he] at hlen
    rw [List.head?_append, hi.head e he hlen]
    rfl
  refine ⟨?_, ?_, ?_, ?_, ?_, ?_, ?_, ?_, ?_, hi.sized.pushFatRlps streamLen _⟩
  · -- describes
    intro ch hch e he
    rcases (mem_closed_pushFatRlps streamLen).mp ⟨ch, hch, he⟩ with ⟨ch', hch', he'⟩ | he'
    · obtain ⟨acc', hacc', hd⟩ := hi.describes ch' hch' e he'
      exact ⟨acc', List.mem_append_left _ hacc', hd⟩
    · obtain ⟨hea, hd⟩ := hent e he'
      exact ⟨acc, by rw [hea]; exact List.mem_append_right _ (List.mem_singleton_self _), hea ▸ hd⟩
  · -- nodup
    intro ch hch
    rw [closed_pushFatRlps, List.mem_append, List.mem_cons] at hch
    rcases hch with hch | rfl | hch
    · exact hi.nodup ch (hwritten ch hch)
    · rw [List.map_append, List.nodup_append]
      refine ⟨hi.nodup _ hpend, nodup_chunkOf_single x, ?_⟩
      intro b hb b' hb' hbb
      obtain ⟨e, he, rfl⟩ := List.mem_map.mp hb
      obtain ⟨e', he', rfl⟩ := List.mem_map.mp hb'
      exact hold _ hpend e he (hbb.trans (hent e' (hx e' he')).1)
    · obtain ⟨y, -, rfl⟩ := List.mem_map.mp hch
      exact nodup_chunkOf_single y
  · -- pieces
    intro b accb hb
    rcases List.mem_append.mp hb with hb | hb
    · have hba : b ≠ a := fun hba => hnew (List.mem_map.mpr ⟨_, hb, hba⟩)
      rw [hpb b hba]
      exact hi.pieces b accb hb
    · obtain ⟨rfl, rfl⟩ := Prod.mk.inj (List.mem_singleton.mp hb)
      rw [hpa]
      exact ⟨by simpa using hne, hpairs⟩
  · -- split, over the chunks written
    intro ch hch e he hlen
    rw [StateChunker.pushFatRlps] at hch
    rcases mem_chunks_foldl streamLen hch with hch | ⟨-, rfl⟩ | ⟨y, -, rfl⟩
    · rw [push_chunks] at hch
      rw [hcount ch (hwritten ch hch) e he] at hlen
      exact hi.split ch hch e he hlen
    · -- the chunk that was being filled, closed after the account's first item
      rw [push_rlps, chunkOf_append] at he ⊢
      rcases List.mem_append.mp he with he | he
      · exact .inl (hheadP e he _ hlen)
      · rw [eq_of_mem_chunkOf_single he]
        exact .inr (by simp)
    · exact .inl (by rw [eq_of_mem_chunkOf_single he]; rfl)
  · -- head, over the chunk now being filled
    intro e he hlen
    rw [StateChunker.pushFatRlps] at he ⊢
    by_cases hxs : xs = []
    · subst hxs
      rw [List.foldl_nil, push_rlps, chunkOf_append] at he ⊢
      rcases List.mem_append.mp he with he | he
      · exact hheadP e he _ hlen
      · -- an account of one item has one piece
        have hea := (hent e (hx e he)).1
        rw [hea, hpa] at hlen
        have := length_chunkOf_single x
        simp at hlen
        omega
    · obtain ⟨y, -, hr⟩ := rlps_foldl streamLen (c.push streamLen x) hxs
      rw [hr] at he ⊢
      rw [eq_of_mem_chunkOf_single he]
      rfl
  · intro h hm
    rcases hnewc h hm with hm | ⟨e, he, code, hcode, rfl⟩
    · exact (hi.usedCode h hm).pushFatRlps keccak streamLen
    · exact CarriesInline.of_items keccak streamLen he hcode
  · intro h hm
    rcases hnewa h hm with hm | ⟨e, he, code, hcode, rfl⟩
    · exact (hi.usedAbi h hm).pushFatRlps keccak streamLen
    · exact CarriesInline.of_items keccak streamLen he hcode
  · intro b accb hb hne'
    rcases List.mem_append.mp hb with hb | hb
    · exact hsubc (hi.code b accb hb hne')
    · obtain ⟨rfl, rfl⟩ := Prod.mk.inj (List.mem_singleton.mp hb)
      exact hselfc hne'
  · intro b accb hb hne'
    rcases List.mem_append.mp hb with hb | hb
    · exact hsuba (hi.abi b accb hb hne')
    · obtain ⟨rfl, rfl⟩ := Prod.mk.inj (List.mem_singleton.mp hb)
      exact hselfa hne'

/-- Once every account is walked, the chunks written and the one being
filled are a snapshot of the state. -/
theorem ChunkInv.isSnapshot {c : StateChunker} {used : Used}
    (hi : ChunkInv keccak streamLen st st.accounts c used) : IsSnapshot keccak st c.closed where
  describes := hi.describes
  nodup := hi.nodup
  pieces := hi.pieces
  split ch hch e he hlen := by
    rcases List.mem_append.mp hch with hch | hch
    · exact hi.split ch hch e he hlen
    · -- the chunk being filled: a split account stands at its head
      obtain rfl := List.mem_singleton.mp hch
      exact .inl (hi.head e he hlen)
  code a acc hacc hne := hi.usedCode _ (hi.code a acc hacc hne)
  abi a acc hacc hne := hi.usedAbi _ (hi.abi a acc hacc hne)

/-- Every piece has a positive size, so a chunk being filled of size zero
holds no piece. -/
theorem chunkOf_rlps_eq_nil (hpos : ∀ a f, 0 < streamLen a f) {c : StateChunker}
    (hs : c.Sized streamLen) (h0 : c.curSize = 0) : chunkOf c.rlps = [] := by
  rw [StateChunker.Sized, h0, eq_comm, List.sum_eq_zero_iff] at hs
  refine List.filterMap_eq_nil_iff.mpr fun x hx => ?_
  cases x with
  | marker => rfl
  | piece a f => exact absurd (hs _ (List.mem_map_of_mem hx)) (hpos a f).ne'

end Chunker

section Empty

variable {st : State} {chunks : List Chunk}

theorem CarriesInline.of_append_nil {field : FatAccount → CodeField} {h : H256}
    (hc : CarriesInline keccak field (chunks ++ [[]]) h) : CarriesInline keccak field chunks h := by
  obtain ⟨ch, hch, e, he, rest⟩ := hc
  rcases List.mem_append.mp hch with hch | hch
  · exact ⟨ch, hch, e, he, rest⟩
  · obtain rfl := List.mem_singleton.mp hch
    cases he

/-- An empty chunk says nothing: dropping it keeps the format. -/
theorem IsSnapshot.of_append_nil (hs : IsSnapshot keccak st (chunks ++ [[]])) :
    IsSnapshot keccak st chunks where
  describes ch hch := hs.describes ch (List.mem_append_left _ hch)
  nodup ch hch := hs.nodup ch (List.mem_append_left _ hch)
  pieces a acc hacc := by simpa using hs.pieces a acc hacc
  split ch hch e he hlen := hs.split ch (List.mem_append_left _ hch) e he (by simpa using hlen)
  code a acc hacc hne := (hs.code a acc hacc hne).of_append_nil keccak
  abi a acc hacc hne := (hs.abi a acc hacc hne).of_append_nil keccak

end Empty

/-! ## The whole walk -/

section Run

variable {st : State}

/-- Every storage pair fits in a chunk on its own under a header that
refers to the code and ABI by hash, as it does in a trie whose keys and
values are words. -/
def State.PairsFit (st : State) : Prop :=
  ∀ a acc, (a, acc) ∈ st.accounts → ∀ p ∈ acc.storage, ∀ code abi : CodeField,
    (∀ c, code ≠ .inline c) → (∀ c, abi ≠ .inline c) →
    streamLen a ⟨acc.nonce, acc.balance, code, abi, [p]⟩ ≤ preferredChunkSize

/-- The loop of `chunk_state` over the accounts left, from the accounts
`done` walked: it succeeds, and keeps `ChunkInv` to the end. -/
theorem chunkAccounts_inv (hwf : st.WellFormed keccak) (hfit : st.PairsFit streamLen) :
    ∀ (rest done : List (Address × Account)) (c : StateChunker) (used : Used),
      done ++ rest = st.accounts → ChunkInv keccak streamLen st done c used →
      ∃ c' used', chunkAccounts keccak streamLen st.db rest c used = .ok c' ∧
        ChunkInv keccak streamLen st st.accounts c' used'
  | [], done, c, used, hsplit, hi => ⟨c, used, rfl, by simpa [← hsplit] using hi⟩
  | (a, acc) :: rest, done, c, used, hsplit, hi => by
    have hacc : (a, acc) ∈ st.accounts := hsplit ▸ List.mem_append_right _ List.mem_cons_self
    -- the trie's addresses are distinct, so `a` is not among those walked
    have hnew : a ∉ done.map Prod.fst := by
      intro hm
      have hnd := hwf.addresses
      rw [← hsplit, List.map_append, List.nodup_append] at hnd
      exact hnd.2.2 a hm a List.mem_cons_self rfl
    have hfit' : ∀ p ∈ acc.storage, streamLen a
        { (fatHeader keccak acc (st.db a) (fatHeader keccak acc (st.db a) used).2).1 with
          pairs := [p] } ≤ preferredChunkSize := by
      obtain ⟨-, hcode, habi⟩ := fatHeader_again keccak acc (st.db a) used
      intro p hp
      exact hfit a acc hacc p hp _ _ hcode habi
    have ht : ∃ items, toFatRlps keccak streamLen a acc (st.db a) used
        (usizeSub preferredChunkSize c.curSize) preferredChunkSize =
          .ok (items, (fatHeader keccak acc (st.db a) used).2) :=
      toFatRlps_ok keccak streamLen hfit'
    obtain ⟨items, ht⟩ := ht
    obtain ⟨c', used', hrun, hinv⟩ := chunkAccounts_inv hwf hfit rest (done ++ [(a, acc)]) _ _
      (by rw [List.append_assoc]; exact hsplit) (hi.step keccak streamLen hwf hacc hnew ht)
    refine ⟨c', used', ?_, hinv⟩
    rw [chunkAccounts, ht, Outcome.ok_bind]
    exact hrun

/-- `chunk_state` succeeds, and what it writes is a snapshot of the state. -/
theorem chunkState_isSnapshot (hwf : st.WellFormed keccak) (hpos : ∀ a f, 0 < streamLen a f)
    (hfit : st.PairsFit streamLen) :
    ∃ chunks, chunkState keccak streamLen st = .ok chunks ∧ IsSnapshot keccak st chunks := by
  obtain ⟨c, used, hrun, hi⟩ :=
    chunkAccounts_inv keccak streamLen hwf hfit st.accounts [] _ _ rfl (chunkInv_init keccak streamLen)
  have hchunks : chunkState keccak streamLen st =
      .ok (if c.curSize ≠ 0 then c.writeChunk else c).chunks := by
    rw [chunkState, hrun, Outcome.ok_bind]
    rfl
  refine ⟨_, hchunks, ?_⟩
  -- the chunk being filled is written unless it is empty
  by_cases h0 : c.curSize = 0
  · rw [if_neg (not_not_intro h0)]
    have hs := hi.isSnapshot
    rw [StateChunker.closed, chunkOf_rlps_eq_nil streamLen hpos hi.sized h0] at hs
    exact hs.of_append_nil
  · rw [if_pos h0, writeChunk_chunks]
    exact hi.isSnapshot

/-- The round trip: `chunk_state` succeeds, and feeding what it writes to a
fresh `StateRebuilder`, in any order, gives the state back. -/
theorem snapshot_round_trip (hwf : st.WellFormed keccak) (hpos : ∀ a f, 0 < streamLen a f)
    (hfit : st.PairsFit streamLen) :
    ∃ chunks, chunkState keccak streamLen st = .ok chunks ∧
      ∀ order : List Chunk, order.Perm chunks →
        ∃ r, StateRebuilder.feedAll keccak StateRebuilder.new order = .ok r ∧
          Restores keccak st r := by
  obtain ⟨chunks, hc, hs⟩ := chunkState_isSnapshot keccak streamLen hwf hpos hfit
  exact ⟨chunks, hc, fun order hperm => feedAll_restores hwf hs hperm⟩

/-- A hash that is the length of the bytes: the empty code hashes to zero. -/
def lengthHash (b : Bytes) : H256 := BitVec.ofNat 256 b.length

/-- Accounts 1 and 2, with one storage pair each and the same code `[5]`,
whose hash is one. -/
def State.sharedCode : State :=
  ⟨[(1, ⟨0, 0, [([1], [2])], 1, 0⟩), (2, ⟨0, 0, [([3], [4])], 1, 0⟩)],
    fun _ h => if h = 1 then some [5] else none⟩

/-- With pieces of 3 MiB no two pieces share a chunk: each account has a
chunk of its own, the first carries the code and the second names it by
its hash. -/
theorem snapshot_round_trip_sharedCode :
    State.WellFormed lengthHash State.sharedCode ∧
      (∀ (a : Address) (f : FatAccount), 0 < (fun _ _ => 3 * 1024 * 1024 : Address → FatAccount → Nat) a f) ∧
      State.PairsFit (fun _ _ => 3 * 1024 * 1024) State.sharedCode ∧
      ∃ chunks, chunkState lengthHash (fun _ _ => 3 * 1024 * 1024) State.sharedCode = .ok chunks ∧
        ∀ order : List Chunk, order.Perm chunks →
          ∃ r, StateRebuilder.feedAll lengthHash StateRebuilder.new order = .ok r ∧
            Restores lengthHash State.sharedCode r := by
  have hwf : State.WellFormed lengthHash State.sharedCode := by
    refine ⟨by decide, ?_, ?_, ?_, ?_, ?_⟩
    · intro a acc h
      simp only [State.sharedCode, List.mem_cons, Prod.mk.injEq, List.not_mem_nil, or_false] at h
      rcases h with ⟨-, rfl⟩ | ⟨-, rfl⟩ <;> simp
    -- both accounts have the code, which the database holds
    · intro a acc h _
      simp only [State.sharedCode, List.mem_cons, Prod.mk.injEq, List.not_mem_nil, or_false] at h
      rcases h with ⟨-, rfl⟩ | ⟨-, rfl⟩ <;> simp [State.sharedCode]
    -- neither has an ABI
    · intro a acc h hne
      simp only [State.sharedCode, List.mem_cons, Prod.mk.injEq, List.not_mem_nil, or_false] at h
      rcases h with ⟨-, rfl⟩ | ⟨-, rfl⟩ <;> exact absurd rfl hne
    · intro a h c hc
      simp only [State.sharedCode] at hc
      split at hc
      · cases hc
        subst h
        rfl
      · cases hc
    · intro a b h c c' hc hc'
      simp only [State.sharedCode] at hc hc'
      split at hc
      · rw [if_pos ‹_›] at hc'
        cases hc
        cases hc'
        rfl
      · cases hc
  have hpos : ∀ (a : Address) (f : FatAccount),
      0 < (fun _ _ => 3 * 1024 * 1024 : Address → FatAccount → Nat) a f :=
    fun _ _ => show 0 < 3 * 1024 * 1024 by decide
  have hfit : State.PairsFit (fun _ _ => 3 * 1024 * 1024) State.sharedCode :=
    fun _ _ _ _ _ _ _ _ _ => show 3 * 1024 * 1024 ≤ preferredChunkSize by decide
  exact ⟨hwf, hpos, hfit, snapshot_round_trip lengthHash (fun _ _ => 3 * 1024 * 1024) hwf hpos hfit⟩

end Run

end Snapshot

end Cita
