import Mathlib.Data.List.Basic
import Mathlib.Algebra.BigOperators.Group.List.Basic
import Mathlib.Algebra.GroupWithZero.Nat

/-!
# Quota checks of `cita-auth`

`MsgHandler::verify_tx_quota` checks one transaction's quota against the
block limit and, when `check_quota` is set, against its signer's limit: the
signer's entry of `specific_gas_limit`, or `common_gas_limit`.
`MsgHandler::verify_block_quota` checks the requests of a block proposal
together, in one pass that keeps the block's remaining quota `n`, what
each signer has left (`account_gas_used`) and a `gas_limit` that starts at
the common limit and is overwritten by the specific limit of each signer
seen for the first time.

Signers are the addresses `pubkey_to_address` derives from a request's
key; here they range over any type with decidable equality. The `u64`
subtractions of the source are all guarded, so quotas are `Nat`.

The reference definition the block check should follow is `BlockQuotaSpec`.
The code meets its block-limit half (`verifyBlockQuota_sum_le`) and, when
no signer has a specific limit, its per-signer half
(`verifyBlockQuota_signer_le`), so then the whole of it
(`verifyBlockQuota_sound`). It does not meet it in general
(`verifyBlockQuota_diverges`): the `gas_limit` left by one signer is used
for the next, and a signer's first request must stay strictly below the
limit.
-/

namespace Cita

namespace Auth

variable {A : Type} [DecidableEq A]

/-- The fields of `MsgHandler` the quota checks read. -/
structure QuotaConfig (A : Type) where
  blockGasLimit : Nat
  commonGasLimit : Nat
  specificGasLimit : A → Option Nat
  checkQuota : Bool

/-- A signer's limit: its specific limit, or the common one. -/
def QuotaConfig.limit (h : QuotaConfig A) (signer : A) : Nat :=
  (h.specificGasLimit signer).getD h.commonGasLimit

omit [DecidableEq A] in
/-- A signer with no specific limit has the common one. -/
theorem QuotaConfig.limit_of_none {h : QuotaConfig A} {signer : A}
    (hs : h.specificGasLimit signer = none) : h.limit signer = h.commonGasLimit := by
  simp [QuotaConfig.limit, hs]

/-- `verify_tx_quota(quota, signer)`. -/
def verifyTxQuota (h : QuotaConfig A) (quota : Nat) (signer : A) : Bool :=
  if quota > h.blockGasLimit then false
  else if h.checkQuota then
    -- the specific limit of the signer, if any, replaces the common one
    let gasLimit := match h.specificGasLimit signer with
      | some value => value
      | none => h.commonGasLimit
    !(quota > gasLimit)
  else true

/-- The variables of `verify_block_quota`'s loop. -/
structure QuotaLoop (A : Type) where
  gasLimit : Nat
  specificGasLimit : A → Option Nat
  accountGasUsed : A → Option Nat
  n : Nat

/-- The per-signer part of an iteration, when `check_quota` is set: a
signer seen before pays from what it has left, a new one from `gas_limit`,
after its specific limit (removed from the map) has replaced it. -/
def QuotaLoop.charge (st : QuotaLoop A) (signer : A) (quota : Nat) : Option (QuotaLoop A) :=
  match st.accountGasUsed signer with
  | some value =>
      if value < quota then none
      else some { st with accountGasUsed := Function.update st.accountGasUsed signer (some (value - quota)) }
  | none =>
      -- `if let Some(value) = specific_gas_limit.remove(..) { gas_limit = value; }`
      let (limit, specific) := match st.specificGasLimit signer with
        | some value => (value, Function.update st.specificGasLimit signer none)
        | none => (st.gasLimit, st.specificGasLimit)
      if quota < limit then
        some ⟨limit, specific, Function.update st.accountGasUsed signer (some (limit - quota)), st.n⟩
      else none

/-- One iteration of the loop over the requests; `none` is `return false`. -/
def quotaStep (checkQuota : Bool) (st : QuotaLoop A) (req : A × Nat) : Option (QuotaLoop A) := do
  let (signer, quota) := req
  if st.n < quota then none
  let st ← if checkQuota then st.charge signer quota else pure st
  pure { st with n := st.n - quota }

/-- `verify_block_quota(blkreq)`, on the requests' signers and quotas in order. -/
def verifyBlockQuota (h : QuotaConfig A) (reqs : List (A × Nat)) : Bool :=
  (reqs.foldlM (quotaStep h.checkQuota)
    ⟨h.commonGasLimit, h.specificGasLimit, fun _ => none, h.blockGasLimit⟩).isSome

/-- The quotas a list of requests asks of `signer`. -/
def quotaOf (reqs : List (A × Nat)) (signer : A) : Nat :=
  ((reqs.filter (fun r => r.1 = signer)).map Prod.snd).sum

/-- The reference definition of the block check: the quotas fit the block,
and, when quotas are checked, each signer's quotas fit its limit. -/
def BlockQuotaSpec (h : QuotaConfig A) (reqs : List (A × Nat)) : Prop :=
  (reqs.map Prod.snd).sum ≤ h.blockGasLimit ∧
    (h.checkQuota = true → ∀ signer ∈ reqs.map Prod.fst, quotaOf reqs signer ≤ h.limit signer)

instance (h : QuotaConfig A) (reqs : List (A × Nat)) : Decidable (BlockQuotaSpec h reqs) := by
  unfold BlockQuotaSpec; infer_instance

/-! ## The block limit -/

theorem QuotaLoop.charge_n {st st' : QuotaLoop A} {signer : A} {quota : Nat}
    (h : st.charge signer quota = some st') : st'.n = st.n := by
  unfold QuotaLoop.charge at h
  split at h
  · split at h
    · cases h
    · cases h; rfl
  · -- a new signer: the destructuring of the limit, then the check
    split at h
    split at h
    · cases h; rfl
    · cases h

/-- An iteration with quotas checked that goes on: the block had room for
the quota, and the signer was charged. -/
theorem quotaStep_true_eq_some {st st' : QuotaLoop A} {req : A × Nat}
    (h : quotaStep true st req = some st') :
    req.2 ≤ st.n ∧ ∃ st1, st.charge req.1 req.2 = some st1 ∧ st' = { st1 with n := st1.n - req.2 } := by
  obtain ⟨signer, quota⟩ := req
  simp only [quotaStep] at h
  split at h
  · cases h
  · simp only [if_true, Option.bind_eq_bind, Option.bind_eq_some_iff, Option.pure_def,
      Option.some.injEq] at h
    obtain ⟨st1, h1, rfl⟩ := h
    exact ⟨by omega, st1, h1, rfl⟩

/-- **Step lemma.** An iteration that goes on takes the request's quota
off the block's remaining quota, which covered it. -/
theorem quotaStep_n {c : Bool} {st st' : QuotaLoop A} {req : A × Nat}
    (h : quotaStep c st req = some st') : st'.n + req.2 = st.n := by
  cases c with
  | false =>
      obtain ⟨signer, quota⟩ := req
      simp only [quotaStep, Bool.false_eq_true, if_false] at h
      split at h
      · cases h
      · cases h
        simp only
        omega
  | true =>
      obtain ⟨hle, st1, h1, rfl⟩ := quotaStep_true_eq_some h
      simp only [QuotaLoop.charge_n h1]
      omega

/-- **Run lemma.** A loop that gets through the requests has taken their
quotas off the block's remaining quota. -/
theorem foldlM_quotaStep_n {c : Bool} {reqs : List (A × Nat)} {st st' : QuotaLoop A}
    (h : reqs.foldlM (quotaStep c) st = some st') : st'.n + (reqs.map Prod.snd).sum = st.n := by
  induction reqs generalizing st with
  | nil => cases h; simp
  | cons req reqs ih =>
      simp only [List.foldlM_cons, Option.bind_eq_bind, Option.bind_eq_some_iff] at h
      obtain ⟨st1, h1, h2⟩ := h
      have hstep := quotaStep_n h1
      have hrest := ih h2
      simp only [List.map_cons, List.sum_cons]
      omega

/-- An accepted block asks at most the block limit. -/
theorem verifyBlockQuota_sum_le {h : QuotaConfig A} {reqs : List (A × Nat)}
    (hv : verifyBlockQuota h reqs = true) : (reqs.map Prod.snd).sum ≤ h.blockGasLimit := by
  obtain ⟨st, hst⟩ := Option.isSome_iff_exists.mp hv
  have := foldlM_quotaStep_n hst
  simp only at this
  omega

/-! ## Per-signer limits -/

theorem quotaOf_nil (signer : A) : quotaOf [] signer = 0 := rfl

theorem quotaOf_append_single (done : List (A × Nat)) (req : A × Nat) (signer : A) :
    quotaOf (done ++ [req]) signer = quotaOf done signer + if req.1 = signer then req.2 else 0 := by
  by_cases hs : req.1 = signer <;> simp [quotaOf, List.filter_append, hs]

/-- What the loop keeps when no signer has a specific limit: `gas_limit`
stays the common limit, and a signer seen so far has the common limit
less what it asked. -/
def QuotaLoop.Tracks (st : QuotaLoop A) (common : Nat) (done : List (A × Nat)) : Prop :=
  st.gasLimit = common ∧ (∀ s, st.specificGasLimit s = none) ∧
    ∀ s, match st.accountGasUsed s with
      | none => quotaOf done s = 0
      | some v => v + quotaOf done s = common

/-- **Step lemma.** Charging a signer keeps `Tracks`, one request longer. -/
theorem QuotaLoop.Tracks.charge {st st' : QuotaLoop A} {common : Nat} {done : List (A × Nat)}
    {signer : A} {quota : Nat} (ht : st.Tracks common done)
    (h : st.charge signer quota = some st') : st'.Tracks common (done ++ [(signer, quota)]) := by
  obtain ⟨hlim, hspec, hused⟩ := ht
  unfold QuotaLoop.charge at h
  split at h
  · -- a signer seen before pays from what it has left
    rename_i v hv
    split at h
    · cases h
    · rename_i hq
      cases h
      refine ⟨hlim, hspec, fun s => ?_⟩
      have hs := hused s
      by_cases hss : s = signer
      · subst hss
        rw [hv] at hs
        simp only [Function.update_self, quotaOf_append_single, if_true]
        omega
      · simpa [Function.update_of_ne hss, quotaOf_append_single, Ne.symm hss] using hs
  · -- a new signer starts from the common limit
    rename_i hv
    rw [hspec signer] at h
    simp only at h
    split at h
    · rename_i hq
      cases h
      refine ⟨hlim, hspec, fun s => ?_⟩
      have hs := hused s
      by_cases hss : s = signer
      · subst hss
        rw [hv] at hs
        simp only [Function.update_self, quotaOf_append_single, if_true]
        omega
      · simpa [Function.update_of_ne hss, quotaOf_append_single, Ne.symm hss] using hs
    · cases h

/-- **Run lemma.** A loop with quotas checked and no specific limits keeps
`Tracks` over the requests it gets through. -/
theorem foldlM_quotaStep_tracks {common : Nat} {reqs done : List (A × Nat)} {st st' : QuotaLoop A}
    (ht : st.Tracks common done) (h : reqs.foldlM (quotaStep true) st = some st') :
    st'.Tracks common (done ++ reqs) := by
  induction reqs generalizing st done with
  | nil => cases h; simpa using ht
  | cons req reqs ih =>
      simp only [List.foldlM_cons, Option.bind_eq_bind, Option.bind_eq_some_iff] at h
      obtain ⟨st1, h1, h2⟩ := h
      have ht1 : st1.Tracks common (done ++ [req]) := by
        obtain ⟨-, st2, h2', rfl⟩ := quotaStep_true_eq_some h1
        -- `Tracks` does not read `n`
        have ht2 := ht.charge h2'
        exact ht2
      simpa using ih ht1 h2

/-- When no signer has a specific limit, an accepted block asks of each
signer at most the common limit. -/
theorem verifyBlockQuota_signer_le {h : QuotaConfig A} {reqs : List (A × Nat)}
    (hspec : ∀ s, h.specificGasLimit s = none) (hcheck : h.checkQuota = true)
    (hv : verifyBlockQuota h reqs = true) (signer : A) :
    quotaOf reqs signer ≤ h.commonGasLimit := by
  obtain ⟨st, hst⟩ := Option.isSome_iff_exists.mp hv
  rw [hcheck] at hst
  have ht0 : QuotaLoop.Tracks ⟨h.commonGasLimit, h.specificGasLimit, fun _ => none,
      h.blockGasLimit⟩ h.commonGasLimit [] :=
    ⟨rfl, hspec, fun s => quotaOf_nil s⟩
  have ht := (foldlM_quotaStep_tracks ht0 hst).2.2 signer
  simp only [List.nil_append] at ht
  split at ht <;> omega

/-- **What an accepted block meets.** A block `verify_block_quota` accepts
asks at most the block limit, and, when no signer has a specific limit, it
meets the whole reference `BlockQuotaSpec`. -/
theorem verifyBlockQuota_sound {h : QuotaConfig A} {reqs : List (A × Nat)}
    (hv : verifyBlockQuota h reqs = true) :
    (reqs.map Prod.snd).sum ≤ h.blockGasLimit ∧
      ((∀ s, h.specificGasLimit s = none) → BlockQuotaSpec h reqs) := by
  have hsum := verifyBlockQuota_sum_le hv
  refine ⟨hsum, fun hspec => ⟨hsum, fun hcheck signer _ => ?_⟩⟩
  rw [QuotaConfig.limit_of_none (hspec signer)]
  exact verifyBlockQuota_signer_le hspec hcheck hv signer

/-- A block limit of 100 and a common limit of `common`, with no specific limits. -/
def QuotaConfig.common (common : Nat) : QuotaConfig Nat :=
  ⟨100, common, fun _ => none, true⟩

theorem verifyBlockQuota_sound_common :
    verifyBlockQuota (QuotaConfig.common 30) [(1, 20), (2, 25), (1, 9)] = true ∧
      ([(1, 20), (2, 25), (1, 9)].map Prod.snd).sum ≤ (QuotaConfig.common 30).blockGasLimit ∧
      (∀ s, (QuotaConfig.common 30).specificGasLimit s = none) ∧
      BlockQuotaSpec (QuotaConfig.common 30) [(1, 20), (2, 25), (1, 9)] := by
  have hv : verifyBlockQuota (QuotaConfig.common 30) [(1, 20), (2, 25), (1, 9)] = true := by decide
  have hspec : ∀ s, (QuotaConfig.common 30).specificGasLimit s = none := fun _ => rfl
  obtain ⟨hsum, hblock⟩ := verifyBlockQuota_sound hv
  exact ⟨hv, hsum, hspec, hblock hspec⟩

/-! ## Where the block check departs from its reference -/

/-- A block limit of 1000 and a common limit of `common`, with signer 1
alone holding the specific limit `specific`. -/
def QuotaConfig.oneSpecific (common specific : Nat) : QuotaConfig Nat :=
  ⟨1000, common, fun s => if s = 1 then some specific else none, true⟩

/-- Signer 2 has no specific limit and a common limit of 10, yet a block
where it asks 500 after signer 1 (specific limit 1000) is accepted,
because `gas_limit` still holds signer 1's limit; the same two requests in
the other order are refused. And a single request for exactly a signer's
limit passes `verify_tx_quota` but fails `verify_block_quota`. -/
theorem verifyBlockQuota_diverges :
    verifyBlockQuota (QuotaConfig.oneSpecific 10 1000) [(1, 500), (2, 500)] = true ∧
    ¬ BlockQuotaSpec (QuotaConfig.oneSpecific 10 1000) [(1, 500), (2, 500)] ∧
    verifyBlockQuota (QuotaConfig.oneSpecific 10 1000) [(2, 500), (1, 500)] = false ∧
    verifyTxQuota (QuotaConfig.oneSpecific 100 100) 100 2 = true ∧
    BlockQuotaSpec (QuotaConfig.oneSpecific 100 100) [(2, 100)] ∧
    verifyBlockQuota (QuotaConfig.oneSpecific 100 100) [(2, 100)] = false := by
  decide

end Auth

end Cita
