import Cita.Evm.Interpreter

/-!
# Gas conservation of the interpreter

A run of `Interpreter::exec` never ends with more gas than `params.gas`,
and the gas of its gasometer never grows from one instruction to the next.
The argument, instruction by instruction:

- the gasometer charges an instruction its price before it runs
  (`Gasometer.charge`): `verify_gas` refuses a price above the gas left,
  so the subtraction never underflows and a charge is exact
  (`charge_outOfGas_or_exact`);
- `CREATE` and the calls hand the child `provide_gas`, which is part of
  the charge (`requirements_refundBound`);
- they get back at most what the child was given, when `Ext` keeps its
  side of the contract (`Ext.ReturnsAtMostGiven`), plus, for a call that
  carries a value, the stipend, which the charge covers through
  `call_value_transfer_gas` (the `assert!` of the `CALL` arm makes the
  stipend smaller);
- a `RETURN` reports the gas left after its own charge.

So each iteration ends with at most the gas it started with
(`gasOf_execStep_le`), and the run rule of `iterate` carries this over the
whole loop (`exec_gas_conservation`). The proofs are written once for any
lawful cost type, so they cover both `Interpreter<usize>` and
`Interpreter<U256>`.
-/

namespace Cita

open CostType Exec

variable {σ : Type} {Cost : Type} [CostType Cost] [LawfulCostType Cost]

/-- What the interpreter assumes of `Ext`: `create` and `call` hand back
at most the gas they were given. -/
structure Ext.ReturnsAtMostGiven (E : Ext σ) : Prop where
  create : ∀ s g v c gl, (E.create s g v c).1.gasLeft? = some gl → gl.toNat ≤ g.toNat
  call : ∀ s g snd rcv v inp ca out ct gl,
    (E.call s g snd rcv v inp ca out ct).1.gasLeft? = some gl → gl.toNat ≤ g.toNat

/-- What the gasometer charges a `CALL` or `CALLCODE` for carrying a value
(its third stack item): the stipend the callee receives comes out of it. -/
def transferCharge (schedule : Schedule) (op : Op) (stack : List U256) : Nat :=
  if (op = .CALL ∨ op = .CALLCODE) ∧ stack.getD 2 0 ≠ 0 then schedule.callValueTransferGas else 0

/-- The most an instruction can hand back: the gas it provides to a child
and the value-transfer charge. -/
def refundBound (schedule : Schedule) (op : Op) (stack : List U256) : Option Cost → Nat
  | some p => CostType.value p + transferCharge schedule op stack
  | none => 0

/-! ## The gasometer's side -/

theorem value_of_overflowing_add {x y z : Cost} (h : overflowing (overflowAdd x y) = .ok z) :
    CostType.value z = CostType.value x + CostType.value y := by
  obtain ⟨hf, rfl⟩ := overflowing_eq_ok.mp h
  exact LawfulCostType.overflowAdd_ok hf

theorem value_addGasIf_ge {c : Bool} {gas z : Cost} {extra : Nat} (hfit : extra < 2 ^ 64)
    (h : addGasIf c gas extra = .ok z) :
    CostType.value z = CostType.value gas + (if c then extra else 0) := by
  cases c with
  | false => cases h; simp
  | true =>
      rw [value_of_overflowing_add h, LawfulCostType.value_ofUsize hfit]
      simp

theorem request_transferCharge (E : Ext σ) (s : σ) (op : Op) (stack : List U256) (d : Cost)
    {gas mem : Cost} {requested : Option U256}
    (hfit : E.schedule.callValueTransferGas < 2 ^ 64)
    (h : Gasometer.request E s op stack d = .ok (.gasMemProvide gas mem requested)) :
    transferCharge E.schedule op stack ≤ CostType.value gas := by
  by_cases hop : op = .CALL ∨ op = .CALLCODE
  · rcases hop with rfl | rfl
    all_goals
      simp only [Gasometer.request, Outcome.bind_eq_ok, Stack.peek, Slice.index_eq_ok] at h
      obtain ⟨_, -, _, -, _, -, _, -, _, -, _, -, _, -, v, hv, _, -, g1, -, g2, hg2, _, -, hreq⟩ := h
      cases hreq
      rw [value_addGasIf_ge hfit hg2]
      simp [transferCharge, List.getD_eq_getElem?_getD, hv]
  · simp [transferCharge, hop]

theorem requirements_refundBound (E : Ext σ) (g : Gasometer Cost) (s : σ) (op : Op)
    (info : InstructionInfo) (stack : List U256) (n : Nat) {req : InstructionRequirements Cost}
    (hfit : E.schedule.callValueTransferGas < 2 ^ 64)
    (h : g.requirements E s op info stack n = .ok req) :
    refundBound E.schedule op stack req.provideGas ≤ CostType.value req.gasCost := by
  simp only [Gasometer.requirements, Outcome.bind_eq_ok] at h
  obtain ⟨_, -, r, hr, h⟩ := h
  cases r with
  | gasMemProvide gas mem requested =>
      simp only [Outcome.bind_eq_ok] at h
      obtain ⟨⟨c, ng, sz⟩, -, g1, hg1, p, -, t, ht, hreq⟩ := h
      cases hreq
      have htc := request_transferCharge E s op stack _ hfit hr
      have h1 := value_of_overflowing_add hg1
      have h2 := value_of_overflowing_add ht
      simp only [refundBound]
      omega
  | gas gas =>
      cases h
      simp [refundBound]
  | gasMem gas mem =>
      simp only [Outcome.bind_eq_ok] at h
      obtain ⟨_, -, _, -, hreq⟩ := h
      cases hreq
      simp [refundBound]
  | gasMemCopy gas mem copy =>
      simp only [Outcome.bind_eq_ok] at h
      obtain ⟨_, -, _, -, _, -, _, -, _, -, hreq⟩ := h
      cases hreq
      simp [refundBound]

/-- `verify_gas` guards the subtraction of a charge: the charge is refused
as out of gas, or it takes exactly the price; it never underflows. -/
theorem charge_outOfGas_or_exact (g : Gasometer Cost) (req : InstructionRequirements Cost) :
    g.charge req = .err .outOfGas ∨ ∃ g', g.charge req = .ok g' ∧
      CostType.value g'.currentGas + CostType.value req.gasCost = CostType.value g.currentGas := by
  have hiff := LawfulCostType.le_iff req.gasCost g.currentGas
  cases hl : le req.gasCost g.currentGas with
  | false =>
    -- `verify_gas` refuses the price
    left
    simp [Gasometer.charge, Gasometer.verifyGas, CostType.lt, hl]
  | true =>
    right
    have hle : CostType.value req.gasCost ≤ CostType.value g.currentGas := by
      simpa [hl] using hiff
    obtain ⟨z, hz, hval⟩ := LawfulCostType.sub_ok hle
    refine ⟨⟨z, req.memoryTotalGas⟩, ?_, by dsimp only; omega⟩
    simp [Gasometer.charge, Gasometer.verifyGas, CostType.lt, hl, hz]

/-- A charge that passes `verify_gas` takes exactly the price. -/
theorem value_charge {g g' : Gasometer Cost} {req : InstructionRequirements Cost}
    (h : g.charge req = .ok g') :
    CostType.value g'.currentGas + CostType.value req.gasCost = CostType.value g.currentGas := by
  rcases charge_outOfGas_or_exact g req with hc | ⟨g'', hc, hval⟩
  · rw [hc] at h
    cases h
  · rw [hc] at h
    cases h
    exact hval

/-! ## The interpreter's side -/

/-- The result of an arm that goes on with the next instruction and hands
back at most `bound` gas. -/
def GivesBackAtMost (bound : Nat) : InstructionResult Cost → Prop
  | .ok => True
  | .unusedGas r => CostType.value r ≤ bound
  | _ => False

omit [LawfulCostType Cost] in
theorem GivesBackAtMost.mono {b b' : Nat} (hb : b ≤ b') {res : InstructionResult Cost}
    (h : GivesBackAtMost b res) : GivesBackAtMost b' res := by
  cases res with
  | unusedGas r => exact Nat.le_trans (show CostType.value r ≤ b from h) hb
  | _ => exact h

variable (E : Ext σ)

theorem finishCall_givesBack (cr : MessageCallResult) (b : Nat)
    (hb : ∀ gl, cr.gasLeft? = some gl → gl.toNat ≤ b) (f : Frame σ) :
    wp (finishCall cr : Exec σ (InstructionResult Cost)) (fun res _ => GivesBackAtMost b res) f := by
  cases cr with
  | success gl data =>
      simp only [finishCall, wp_bind, wp_push, wp_setReturnData, wp_lift, Outcome.expectOk_eq_ok,
        wp_pure]
      intro g hg
      simpa [GivesBackAtMost, LawfulCostType.value_fromU256 hg] using hb gl rfl
  | reverted gl data =>
      simp only [finishCall, wp_bind, wp_push, wp_setReturnData, wp_lift, Outcome.expectOk_eq_ok,
        wp_pure]
      intro g hg
      simpa [GivesBackAtMost, LawfulCostType.value_fromU256 hg] using hb gl rfl
  | failed => simp [finishCall, GivesBackAtMost]

theorem performCall_givesBack (hE : E.ReturnsAtMostGiven) (params : ActionParams) (op : Op)
    (callGas : Cost) (codeAddress : Address) (value : Option U256) (inOff inSize outOff outSize : U256)
    (f : Frame σ) :
    wp (performCall E params op callGas codeAddress value inOff inSize outOff outSize)
      (fun res _ => GivesBackAtMost (CostType.value callGas) res) f := by
  simp only [performCall, wp_bind]
  refine wp_of_forall fun parties f1 => ?_
  simp only [wp_setReturnData, wp_ite]
  refine ⟨fun _ => by simp [GivesBackAtMost], fun _ => ?_⟩
  simp only [wp_bind, wp_mem, wp_lift, wp_ext, wp_setExt, wp_setMem]
  intro input _ w _
  exact finishCall_givesBack _ _ (fun gl hgl => hE.call _ _ _ _ _ _ _ _ _ gl hgl) _

/-- The stipend of a call that carries `x` is paid out of the transfer charge. -/
theorem callStipendFor_some_le {schedule : Schedule}
    (hassert : schedule.callStipend < schedule.callValueTransferGas) (x : U256) :
    CostType.value (callStipendFor schedule (some x) : Cost) ≤
      if x = 0 then 0 else schedule.callValueTransferGas := by
  by_cases hx : x = 0
  · simp [callStipendFor, hx]
  · have hle := LawfulCostType.value_ofUsize_le (α := Cost) schedule.callStipend
    simp only [callStipendFor, hx, if_false]
    omega

theorem callValue_stipend (schedule : Schedule) (op : Op)
    (hop : op = .CALL ∨ op = .CALLCODE ∨ op = .DELEGATECALL ∨ op = .STATICCALL)
    (hassert : schedule.callStipend < schedule.callValueTransferGas) (a b : U256) (g : Frame σ) :
    wp (callValue op)
      (fun v _ => CostType.value (callStipendFor schedule v : Cost) ≤ transferCharge schedule op (a :: b :: g.stack)) g := by
  rcases hop with rfl | rfl | rfl | rfl
  -- `CALL` and `CALLCODE` pop the value, the third item of the stack they started with
  iterate 2
    simp only [callValue, reduceCtorEq, if_false, wp_bind, wp_pop, wp_pure]
    intro x s hs
    simpa [transferCharge, hs] using callStipendFor_some_le hassert x
  -- `DELEGATECALL` and `STATICCALL` carry no value to pay a stipend for
  all_goals simp [callValue, callStipendFor]

theorem execCall_givesBack (hE : E.ReturnsAtMostGiven) (params : ActionParams) (op : Op)
    (hop : op = .CALL ∨ op = .CALLCODE ∨ op = .DELEGATECALL ∨ op = .STATICCALL)
    (provided : Option Cost) (f : Frame σ) :
    wp (execCall E params op provided)
      (fun res _ => GivesBackAtMost (refundBound E.schedule op f.stack provided) res) f := by
  simp only [execCall, wp_bind, wp_lift, wp_pop, Outcome.assert_eq_ok, Outcome.expect_eq_ok,
    decide_eq_true_eq]
  rintro - hassert x0 s0 hs0 p rfl x1 s1 rfl
  refine wp_mono (@callValue_stipend σ Cost _ _ E.schedule op hop hassert x0 x1 _) ?_
  intro v f2 hstip
  rintro _ _ - _ _ - _ _ - _ _ - callGas hadd
  refine wp_mono (performCall_givesBack E hE _ _ _ _ _ _ _ _ _ _) ?_
  intro res _ h
  refine h.mono ?_
  have hle := LawfulCostType.add_le hadd
  simp only at hstip
  simp only [refundBound, hs0]
  omega

theorem finishCreate_givesBack (cr : ContractCreateResult) (b : Nat)
    (hb : ∀ gl, cr.gasLeft? = some gl → gl.toNat ≤ b) (f : Frame σ) :
    wp (finishCreate cr : Exec σ (InstructionResult Cost)) (fun res _ => GivesBackAtMost b res) f := by
  cases cr with
  | created address gl =>
      simp only [finishCreate, wp_bind, wp_push, wp_lift, Outcome.expectOk_eq_ok, wp_pure]
      intro g hg
      simpa [GivesBackAtMost, LawfulCostType.value_fromU256 hg] using hb gl rfl
  | reverted gl data =>
      simp only [finishCreate, wp_bind, wp_push, wp_setReturnData, wp_lift, Outcome.expectOk_eq_ok,
        wp_pure]
      intro g hg
      simpa [GivesBackAtMost, LawfulCostType.value_fromU256 hg] using hb gl rfl
  | failed => simp [finishCreate, GivesBackAtMost]
  | failedInStaticCall => simp [finishCreate]

theorem execCreate_givesBack (hE : E.ReturnsAtMostGiven) (params : ActionParams)
    (provided : Option Cost) (f : Frame σ) :
    wp (execCreate E params provided)
      (fun res _ => GivesBackAtMost (refundBound E.schedule .CREATE f.stack provided) res) f := by
  simp only [execCreate, wp_bind, wp_pop, wp_lift, Outcome.expect_eq_ok]
  rintro _ _ - _ _ - _ _ - p rfl
  simp only [wp_ite, wp_bind, wp_throw, wp_mem, wp_lift, wp_ext, wp_liftExcept, wp_setReturnData,
    wp_push, wp_pure, wp_setExt, implies_true, true_and]
  intro _ code _ _ _
  have hbound : refundBound E.schedule .CREATE f.stack (some p) = CostType.value p := by
    simp [refundBound, transferCharge]
  rw [hbound]
  refine ⟨?_, fun _ => ?_⟩
  -- a create that cannot be made hands back all of the gas it was given
  · intro _
    exact le_rfl
  -- a create that was made hands back at most that gas
  · exact finishCreate_givesBack _ _ (fun gl hgl => hE.create _ _ _ _ gl hgl) _

/-- What an instruction's result says about gas: a hand-back of at most
`bound`, and a `RETURN` with the gas left after its charge. -/
def ResultWithin (gas : Cost) (bound : Nat) : InstructionResult Cost → Prop
  | .unusedGas r => CostType.value r ≤ bound
  | .stopExecutionNeedsReturn g _ _ _ => g = gas
  | _ => True

omit [LawfulCostType Cost] in
theorem GivesBackAtMost.resultWithin {b : Nat} {res : InstructionResult Cost} (gas : Cost)
    (h : GivesBackAtMost b res) : ResultWithin gas b res := by
  cases res with
  | unusedGas r => exact h
  | stopExecutionNeedsReturn => exact h.elim
  | _ => trivial

theorem execInstruction_resultWithin (hE : E.ReturnsAtMostGiven) (sha3 : Bytes → H256) (gas : Cost)
    (params : ActionParams) (code : Bytes) (instruction : UInt8) (op : Op) (provided : Option Cost)
    (f : Frame σ) :
    wp (execInstruction E sha3 gas params code instruction op provided)
      (fun res _ => ResultWithin gas (refundBound E.schedule op f.stack provided) res) f := by
  have hcall : ∀ op, (op = .CALL ∨ op = .CALLCODE ∨ op = .DELEGATECALL ∨ op = .STATICCALL) →
      wp (execCall E params op provided)
        (fun res _ => ResultWithin gas (refundBound E.schedule op f.stack provided) res) f :=
    fun op hop => wp_mono (execCall_givesBack E hE params op hop provided f)
      fun _ _ h => h.resultWithin gas
  unfold execInstruction
  split
  case h_2 =>
    simp only [wp_bind, wp_pop, wp_pure]
    intro _ _ _ _ _ _
    split <;> trivial
  case h_4 =>
    exact wp_mono (execCreate_givesBack E hE params provided f) fun _ _ h => h.resultWithin gas
  case h_5 => exact hcall _ (.inl rfl)
  case h_6 => exact hcall _ (.inr (.inl rfl))
  case h_7 => exact hcall _ (.inr (.inr (.inl rfl)))
  case h_8 => exact hcall _ (.inr (.inr (.inr rfl)))
  case h_13 =>
    simp only [wp_bind, wp_pure]
    exact wp_of_forall fun _ _ => trivial
  all_goals simp [ResultWithin]


/-! ## One iteration and the whole run -/

/-- The gas a refund leaves the gasometer with. -/
theorem value_applyUnusedGas {g g' : Gasometer Cost} {res : InstructionResult Cost} {gas : Cost}
    {b : Nat} (h : g.applyUnusedGas res = .ok g') (hres : ResultWithin gas b res) :
    CostType.value g'.currentGas ≤ CostType.value g.currentGas + b := by
  cases res with
  | unusedGas r =>
      simp only [Gasometer.applyUnusedGas, Outcome.bind_eq_ok] at h
      obtain ⟨c, hc, hg'⟩ := h
      cases hg'
      have hsum := LawfulCostType.add_le hc
      have hr : CostType.value r ≤ b := hres
      show CostType.value c ≤ _
      omega
  | _ => cases h; omega

/-- `gas_left` of either variant of `GasLeft`. -/
def GasLeft.gasLeft : GasLeft → U256
  | .known g => g
  | .needsReturn g _ _ => g

/-- The gas a machine has, or the gas left a finished run reports. -/
def gasOf : Machine Cost σ ⊕ (GasLeft × σ) → Nat
  | .inl m => CostType.value m.gasometer.currentGas
  | .inr r => r.1.gasLeft.toNat

omit [LawfulCostType Cost] in
theorem gasOf_advance {vjd : List Nat} {f : Frame σ} {g : Gasometer Cost}
    {res : InstructionResult Cost} {r : Machine Cost σ ⊕ (GasLeft × σ)} {B : Nat}
    (h : advance vjd f g res = .ok r) (hg : CostType.value g.currentGas ≤ B)
    (hret : ∀ gas o z a, res = .stopExecutionNeedsReturn gas o z a → CostType.value gas ≤ B) :
    gasOf r ≤ B := by
  cases res with
  | jumpToPosition p =>
      simp only [advance, Outcome.bind_eq_ok] at h
      obtain ⟨_, -, hr⟩ := h
      cases hr
      exact hg
  | stopExecutionNeedsReturn gas o z a =>
      simp only [advance, Outcome.bind_eq_ok] at h
      obtain ⟨_, -, hr⟩ := h
      cases hr
      exact hret gas o z a rfl
  | _ => cases h; exact hg

/-- **Step lemma.** An iteration of the loop ends with at most the gas it
started with, whether the loop goes on or returns. -/
theorem gasOf_execStep_le (hE : E.ReturnsAtMostGiven)
    (hfit : E.schedule.callValueTransferGas < 2 ^ 64) (sha3 : Bytes → H256)
    (params : ActionParams) (code : Bytes) (vjd : List Nat) {m : Machine Cost σ}
    {r : Machine Cost σ ⊕ (GasLeft × σ)} (h : execStep E sha3 params code vjd m = .ok r) :
    gasOf r ≤ CostType.value m.gasometer.currentGas := by
  simp only [execStep] at h
  split at h
  · simp only [Outcome.bind_eq_ok, Outcome.ofExcept_eq_ok] at h
    obtain ⟨_, -, req, hreq, g1, hg1, _, -, ⟨res, f'⟩, hexec, g2, hg2, _, -, hadv⟩ := h
    have hcharge := value_charge hg1
    have hbound := requirements_refundBound E _ _ _ _ _ _ hfit hreq
    have hres := (execInstruction_resultWithin E hE sha3 g1.currentGas params code _ _ _ _).apply hexec
    dsimp only at hres
    have happly := value_applyUnusedGas hg2 hres
    refine gasOf_advance hadv (by omega) ?_
    rintro gas o z a rfl
    have hgas : gas = g1.currentGas := hres
    subst hgas
    omega
  · cases h
    exact le_rfl

/-- **Gas conservation.** No charge of the gasometer underflows: it is
refused as out of gas or takes exactly its price. Along every run of
`exec`, no iteration leaves the gasometer with more gas than it had, every
machine the loop reaches has at most `params.gas`, and a run that returns
reports at most `params.gas`. -/
theorem exec_gas_conservation (hE : E.ReturnsAtMostGiven)
    (hfit : E.schedule.callValueTransferGas < 2 ^ 64) (sha3 : Bytes → H256)
    (params : ActionParams) {code : Bytes} (hcode : params.code = some code) {gas : Cost}
    (hgas : fromU256 params.gas = .ok gas) (s : σ) :
    (∀ (g : Gasometer Cost) (req : InstructionRequirements Cost), g.charge req = .err .outOfGas ∨
      ∃ g', g.charge req = .ok g' ∧
        CostType.value g'.currentGas + CostType.value req.gasCost = CostType.value g.currentGas) ∧
    (∀ m m', Reach (execStep E sha3 params code (findJumpDestinations code)) (Machine.initial gas s) m →
      execStep E sha3 params code (findJumpDestinations code) m = .ok (.inl m') →
      CostType.value m'.gasometer.currentGas ≤ CostType.value m.gasometer.currentGas) ∧
    (∀ m, Reach (execStep E sha3 params code (findJumpDestinations code)) (Machine.initial gas s) m →
      CostType.value m.gasometer.currentGas ≤ params.gas.toNat) ∧
    (∀ fuel r, exec E Cost sha3 fuel params s = some (.ok r) → r.1.gasLeft.toNat ≤ params.gas.toNat) := by
  have hstep : ∀ m m' : Machine Cost σ, execStep E sha3 params code (findJumpDestinations code) m = .ok (.inl m') →
      CostType.value m'.gasometer.currentGas ≤ CostType.value m.gasometer.currentGas :=
    fun m m' h => gasOf_execStep_le E hE hfit sha3 params code _ h
  -- the run invariant: the loop starts with `params.gas` and never gains gas
  have hreach : ∀ m, Reach (execStep E sha3 params code (findJumpDestinations code))
      (Machine.initial gas s) m → CostType.value m.gasometer.currentGas ≤ params.gas.toNat := by
    intro m hm
    refine hm.rec_inv ?_ fun u u' _ hu hst => (hstep u u' hst).trans hu
    exact (LawfulCostType.value_fromU256 hgas).le
  refine ⟨charge_outOfGas_or_exact, fun m m' _ h => hstep m m' h, hreach, ?_⟩
  intro fuel r h
  simp only [exec, hcode, hgas] at h
  -- the run left the loop by an iteration that returned `r`
  obtain ⟨t, ht, hl⟩ := iterate_eq_some h
  rcases hl with ⟨x, hx, hr⟩ | ⟨e, -, hr⟩ | ⟨m, -, hr⟩
  · cases hr
    exact (gasOf_execStep_le E hE hfit sha3 params code _ hx).trans (hreach t ht)
  · cases hr
  · cases hr

theorem Ext.inert_returnsAtMostGiven : Ext.inert.ReturnsAtMostGiven where
  create _ _ _ _ _ h := by simp [Ext.inert, ContractCreateResult.gasLeft?] at h
  call _ _ _ _ _ _ _ _ _ _ h := by simp [Ext.inert, MessageCallResult.gasLeft?] at h

/-- A message call that runs `PUSH1 1; STOP` with 100 gas. -/
def ActionParams.pushOneStop : ActionParams :=
  ⟨0, 0, 0, 0, 0, 100, 0, .transfer 0, some [0x60, 0x01, 0x00], none, .none⟩

theorem exec_gas_conservation_pushOneStop :
    (∀ (g : Gasometer Usize) (req : InstructionRequirements Usize), g.charge req = .err .outOfGas ∨
      ∃ g', g.charge req = .ok g' ∧
        CostType.value g'.currentGas + CostType.value req.gasCost = CostType.value g.currentGas) ∧
    (∀ m m', Reach (execStep Ext.inert (fun _ => 0) ActionParams.pushOneStop [0x60, 0x01, 0x00]
          (findJumpDestinations [0x60, 0x01, 0x00])) (Machine.initial (100 : Usize) ()) m →
        execStep Ext.inert (fun _ => 0) ActionParams.pushOneStop [0x60, 0x01, 0x00]
          (findJumpDestinations [0x60, 0x01, 0x00]) m = .ok (.inl m') →
        CostType.value m'.gasometer.currentGas ≤ CostType.value m.gasometer.currentGas) ∧
    (∀ m, Reach (execStep Ext.inert (fun _ => 0) ActionParams.pushOneStop [0x60, 0x01, 0x00]
          (findJumpDestinations [0x60, 0x01, 0x00])) (Machine.initial (100 : Usize) ()) m →
        CostType.value m.gasometer.currentGas ≤ ActionParams.pushOneStop.gas.toNat) ∧
    (∀ fuel r, exec Ext.inert Usize (fun _ => 0) fuel ActionParams.pushOneStop () = some (.ok r) →
        r.1.gasLeft.toNat ≤ ActionParams.pushOneStop.gas.toNat) :=
  exec_gas_conservation Ext.inert Ext.inert_returnsAtMostGiven (by decide) (fun _ => 0)
    ActionParams.pushOneStop rfl (by decide) ()

end Cita
