import Cita.Executor.Executive

/-!
# Message calls and their checkpoints (`Executive::call`, `Executive::create`)

`call` and `create` take a checkpoint of the state before they change it,
and each way out after it should pop that checkpoint. `enact_result`
reverts to it after a failed run of code and discards it after a
successful one; the builtin and code-less paths do one of the two
themselves. Code runs with externalities whose message calls are the
executives one level deeper (`Executive::from_parent`), so a run of code
keeps the height of the checkpoint stack when the calls it makes do.

The state is a parameter `CallState`, whose reads of the tries return
`trie::Result`. Its instance `CallState.ofState` runs the operations of
`State` over a database that may lack some nodes. What runs code (the
interpreter and the native contracts) and the builtins are the parameter
`CallEnv`. Substates, tracers and output buffers are left out; no
checkpoint depends on them.

When the reads succeed, `call` and `create` keep the height of the stack
at every depth of nesting (`executives_keep`). Three reads, though, sit
between the checkpoint and any pop, behind a `?`: `transfer_balance` in
`call`, and `balance` and `sub_balance` in `create`. When one of them
fails, the function returns the error with its checkpoint still on the
stack, and the assertion of `State::commit` then fails.
-/

namespace Cita

namespace Executor

/-- Code of `Executive` on a state `σ`: an `evm::Error` keeps the changes
made before it, and a panic stops everything. -/
abbrev CallM (σ α : Type) := ExceptT Error (StateT σ (Outcome Empty)) α

/-- A computation that may panic but does not touch the state. -/
def CallM.panicking {σ α : Type} (o : Outcome Empty α) : CallM σ α :=
  ExceptT.lift (StateT.lift o)

/-- A result returned as it came: `Ok` or the error. -/
def CallM.ofResult {σ α : Type} : Except Error α → CallM σ α
  | .ok a => pure a
  | .error e => throw e

theorem CallM.moves_ofResult {σ α : Type} {μ : σ → Nat} (r : Except Error α) :
    Moves μ (CallM.ofResult r : CallM σ α) id := by
  cases r with
  | ok a => exact (movesOk_pure a).moves
  | error e => exact moves_throw e

/-- The state operations of `call` and `create`, on a state whose
checkpoint stack has height `depth`. The reads return `trie::Result`,
whose error `?` turns into `Error.internal`. -/
structure CallState (σ : Type) where
  depth : σ → Nat
  checkpoint : CallM σ Unit
  discardCheckpoint : CallM σ Unit
  revertToCheckpoint : CallM σ Unit
  existsAndHasCodeOrNonce : Address → CallM σ Bool
  balance : Address → CallM σ U256
  subBalance : Address → U256 → CallM σ Unit
  transferBalance : Address → Address → U256 → CallM σ Unit
  newContract : Address → U256 → U256 → CallM σ Unit

/-- The message calls that code makes through its externalities. -/
structure Nested (σ : Type) where
  call : ActionParams → CallM σ FinalizationResult
  create : ActionParams → CallM σ FinalizationResult

/-- Code run with externalities whose message calls are the given ones: the
interpreter (`exec_vm`) or a native contract, each with `finalize(ext)`. -/
abbrev CodeRun (σ : Type) := Nested σ → ActionParams → CallM σ FinalizationResult

/-- `Builtin`: the price of an input, the output, and the blocks it is
active at. -/
structure Builtin where
  cost : Bytes → U256
  execute : Bytes → Bytes
  isActive : Nat → Bool

/-- What `call` and `create` read besides the state: the native contracts
(`native_factory.new_contract`), the builtins of the engine, the
interpreter, `payment_required()` and the block number. -/
structure CallEnv (σ : Type) where
  nativeContract : Address → Option (CodeRun σ)
  builtin : Address → Option Builtin
  execVm : CodeRun σ
  paymentRequired : Bool
  number : Nat

/-- The message calls past the deepest executive, which the interpreter does
not make: they fail and change nothing. -/
def Nested.refuse {σ : Type} : Nested σ :=
  ⟨fun _ => throw .outOfGas, fun _ => throw .outOfGas⟩

namespace CallState

variable {σ : Type} (S : CallState σ)

open CallM

/-- `enact_result`: the changes of a run are reverted to the checkpoint
when it failed, short of an internal error, or asks not to apply them;
otherwise the checkpoint is discarded. -/
def enactResult : Except Error FinalizationResult → CallM σ Unit
  | .error .outOfGas | .error (.badJumpDestination _) | .error (.badInstruction _)
  | .error (.stackUnderflow ..) | .error (.outOfStack ..) | .error .mutableCallInStaticContext
  | .error .outOfBounds | .error .reverted => S.revertToCheckpoint
  | .ok result => if result.applyState then S.discardCheckpoint else S.revertToCheckpoint
  | .error (.internal _) => S.discardCheckpoint

/-- A run of code, settled by `enact_result` and returned. -/
def runEnacted (run : CallM σ FinalizationResult) : CallM σ FinalizationResult := do
  let res ← ExceptT.lift run.run
  S.enactResult res
  ofResult res

/-- The value transfer of `call`: at first, transfer value to destination. -/
def transferValue (env : CallEnv σ) (params : ActionParams) : CallM σ Unit :=
  match env.paymentRequired, params.value with
  | true, .transfer val => S.transferBalance params.sender params.address val
  | _, _ => pure ()

/-- The builtin path of `call`: its price drawn from the gas, or all the
gas drained. -/
def callBuiltin (env : CallEnv σ) (builtin : Builtin) (params : ActionParams) :
    CallM σ FinalizationResult :=
  if !builtin.isActive env.number then
    panicking (.panic "Consensus failure: engine implementation prematurely enabled built-in at ")
  else
    let data := params.data.getD []
    let cost := builtin.cost data
    if cost ≤ params.gas then do
      let output := builtin.execute data
      S.discardCheckpoint
      pure ⟨params.gas - cost, ⟨output, 0, output.length⟩, true⟩
    else do
      -- just drain the whole gas
      S.revertToCheckpoint
      throw .outOfGas

/-- `call` after its checkpoint and transfer: a native contract that the gas
covers, a builtin, code, or a basic transaction. -/
def callCode (env : CallEnv σ) (ext : Nested σ) (params : ActionParams) :
    CallM σ FinalizationResult :=
  match (if 100 ≤ params.gas then env.nativeContract params.codeAddress else none) with
  | some contract => S.runEnacted (contract ext params)
  | none =>
    match env.builtin params.codeAddress with
    | some builtin => S.callBuiltin env builtin params
    | none =>
      if params.code.isSome then S.runEnacted (env.execVm ext params)
      else do
        -- otherwise it's just a basic transaction
        S.discardCheckpoint
        pure ⟨params.gas, .empty, true⟩

/-- `Executive::call`: the message calls of its code go to `nested`, at the
static flag of its frame. -/
def call (env : CallEnv σ) (nested : Bool → Nested σ) (staticFlag : Bool) (params : ActionParams) :
    CallM σ FinalizationResult :=
  if (params.callType = .staticCall ∨ (params.callType = .call ∧ staticFlag)) ∧
      0 < params.value.value then
    throw .mutableCallInStaticContext
  else do
    -- backup used in case of running out of gas
    S.checkpoint
    S.transferValue env params
    S.callCode env (nested (staticFlag || params.callType == .staticCall)) params

/-- The new contract of `create`: it gets the value the sender pays and what
its address held. -/
def fundContract (env : CallEnv σ) (params : ActionParams) (prevBal : U256) : CallM σ Unit :=
  match env.paymentRequired, params.value with
  | true, .transfer val => do
      S.subBalance params.sender val
      let balance ← panicking (uintAdd val prevBal)
      S.newContract params.address balance 0
  | _, _ => S.newContract params.address prevBal 0

/-- `Executive::create`. -/
def create (env : CallEnv σ) (nested : Bool → Nested σ) (staticFlag : Bool) (params : ActionParams) :
    CallM σ FinalizationResult := do
  let taken ← S.existsAndHasCodeOrNonce params.address
  if taken then throw .outOfGas
  else if params.callType = .staticCall ∨ staticFlag then throw .mutableCallInStaticContext
  else do
    -- backup used in case of running out of gas
    S.checkpoint
    let prevBal ← S.balance params.address
    S.fundContract env params prevBal
    S.runEnacted (env.execVm (nested (staticFlag || params.callType == .staticCall)) params)

/-- The executives `n` levels above the deepest, by their static flag: the
message calls of their code go to the executives one level down. -/
def executives (env : CallEnv σ) : Nat → Bool → Nested σ
  | 0, _ => Nested.refuse
  | n + 1, staticFlag =>
      ⟨S.call env (executives env n) staticFlag, S.create env (executives env n) staticFlag⟩

/-! ## The height of the checkpoint stack -/

/-- The checkpoint operations push and pop, and the other operations keep
the height, whether they return a value or an error. -/
structure Lawful : Prop where
  checkpoint : MovesOk S.depth S.checkpoint (· + 1)
  discardCheckpoint : MovesOk S.depth S.discardCheckpoint (· - 1)
  revertToCheckpoint : MovesOk S.depth S.revertToCheckpoint (· - 1)
  existsAndHasCodeOrNonce : ∀ a, Moves S.depth (S.existsAndHasCodeOrNonce a) id
  balance : ∀ a, Moves S.depth (S.balance a) id
  subBalance : ∀ a v, Moves S.depth (S.subBalance a v) id
  transferBalance : ∀ a b v, Moves S.depth (S.transferBalance a b v) id
  newContract : ∀ a balance nonceOffset, MovesOk S.depth (S.newContract a balance nonceOffset) id

/-- The reads that `call` and `create` make after their checkpoint succeed. -/
structure Total : Prop where
  balance : ∀ a, MovesOk S.depth (S.balance a) id
  subBalance : ∀ a v, MovesOk S.depth (S.subBalance a v) id
  transferBalance : ∀ a b v, MovesOk S.depth (S.transferBalance a b v) id

/-- Message calls that keep the height of the stack. -/
def Keeps (nested : Nested σ) : Prop :=
  ∀ p, Moves S.depth (nested.call p) id ∧ Moves S.depth (nested.create p) id

/-- Code that keeps the height of the stack when its message calls do. -/
def RunKeeps (run : CodeRun σ) : Prop :=
  ∀ nested, S.Keeps nested → ∀ p, Moves S.depth (run nested p) id

/-- Every code that `call` and `create` may run keeps the height. -/
structure EnvKeeps (env : CallEnv σ) : Prop where
  execVm : S.RunKeeps env.execVm
  nativeContract : ∀ a run, env.nativeContract a = some run → S.RunKeeps run

variable {S}

theorem enactResult_movesOk (hS : S.Lawful) (r : Except Error FinalizationResult) :
    MovesOk S.depth (S.enactResult r) (· - 1) := by
  cases r with
  | error e => cases e <;> first | exact hS.revertToCheckpoint | exact hS.discardCheckpoint
  | ok result =>
    show MovesOk S.depth (if result.applyState then _ else _) _
    split
    · exact hS.discardCheckpoint
    · exact hS.revertToCheckpoint

/-- A run of code that keeps the height, settled by `enact_result`, pops. -/
theorem runEnacted_moves (hS : S.Lawful) {run : CallM σ FinalizationResult}
    (hrun : Moves S.depth run id) : Moves S.depth (S.runEnacted run) (· - 1) := by
  unfold runEnacted
  exact moves_bind_ok (movesOk_lift_run hrun) fun res =>
    moves_bind_ok (enactResult_movesOk hS res) fun _ => moves_ofResult res

theorem transferValue_movesOk (hT : S.Total) (env : CallEnv σ) (params : ActionParams) :
    MovesOk S.depth (S.transferValue env params) id := by
  unfold transferValue
  split
  · exact hT.transferBalance _ _ _
  · exact movesOk_pure ()

theorem callBuiltin_moves (hS : S.Lawful) (env : CallEnv σ) (builtin : Builtin)
    (params : ActionParams) : Moves S.depth (S.callBuiltin env builtin params) (· - 1) := by
  unfold callBuiltin
  split
  · exact moves_lift_panic _
  · dsimp only
    split
    · exact moves_bind_ok hS.discardCheckpoint fun _ => (movesOk_pure _).moves
    · exact moves_bind_ok hS.revertToCheckpoint fun _ => moves_throw _

/-- Each path of `call` after its transfer pops the checkpoint. -/
theorem callCode_moves (hS : S.Lawful) {env : CallEnv σ} (henv : S.EnvKeeps env)
    {ext : Nested σ} (hext : S.Keeps ext) (params : ActionParams) :
    Moves S.depth (S.callCode env ext params) (· - 1) := by
  unfold callCode
  split
  · rename_i contract hc
    have hnative : env.nativeContract params.codeAddress = some contract := by
      split at hc <;> simp_all
    exact runEnacted_moves hS (henv.nativeContract _ _ hnative ext hext params)
  · split
    · exact callBuiltin_moves hS env _ params
    · split
      · exact runEnacted_moves hS (henv.execVm ext hext params)
      · exact moves_bind_ok hS.discardCheckpoint fun _ => (movesOk_pure _).moves

theorem call_keeps (hS : S.Lawful) (hT : S.Total) {env : CallEnv σ} (henv : S.EnvKeeps env)
    {nested : Bool → Nested σ} (hnested : ∀ b, S.Keeps (nested b)) (staticFlag : Bool)
    (params : ActionParams) : Moves S.depth (S.call env nested staticFlag params) id := by
  unfold call
  refine moves_ite (fun _ => moves_throw _) fun _ => ?_
  -- the checkpoint pushes, the transfer keeps, and every path after it pops
  refine moves_congr (moves_bind_ok hS.checkpoint fun _ =>
    moves_bind_ok (transferValue_movesOk hT env params) fun _ =>
      callCode_moves hS henv (hnested _) params) fun n => ?_
  show n + 1 - 1 = n
  omega

theorem fundContract_movesOk (hS : S.Lawful) (hT : S.Total) (env : CallEnv σ)
    (params : ActionParams) (prevBal : U256) :
    MovesOk S.depth (S.fundContract env params prevBal) id := by
  unfold fundContract
  split
  · exact movesOk_bind (hT.subBalance _ _) fun _ =>
      movesOk_bind (movesOk_lift_lift _) fun _ => hS.newContract _ _ _
  · exact hS.newContract _ _ _

theorem create_keeps (hS : S.Lawful) (hT : S.Total) {env : CallEnv σ} (henv : S.EnvKeeps env)
    {nested : Bool → Nested σ} (hnested : ∀ b, S.Keeps (nested b)) (staticFlag : Bool)
    (params : ActionParams) : Moves S.depth (S.create env nested staticFlag params) id := by
  unfold create
  refine moves_bind (hS.existsAndHasCodeOrNonce _) fun _ => ?_
  refine moves_ite (fun _ => moves_throw _) fun _ => moves_ite (fun _ => moves_throw _) fun _ => ?_
  refine moves_congr (moves_bind_ok hS.checkpoint fun _ =>
    moves_bind_ok (hT.balance _) fun prevBal =>
      moves_bind_ok (fundContract_movesOk hS hT env params prevBal) fun _ =>
        runEnacted_moves hS (henv.execVm _ (hnested _) params)) fun n => ?_
  show n + 1 - 1 = n
  omega

/-- When every read succeeds, `call` and `create` keep the height of the
checkpoint stack at every depth of nesting. -/
theorem executives_keep (hS : S.Lawful) (hT : S.Total) {env : CallEnv σ} (henv : S.EnvKeeps env) :
    ∀ n staticFlag, S.Keeps (S.executives env n staticFlag)
  | 0, _ => fun _ => ⟨moves_throw _, moves_throw _⟩
  | n + 1, staticFlag => fun params =>
      ⟨call_keeps hS hT henv (executives_keep hS hT henv n) staticFlag params,
        create_keeps hS hT henv (executives_keep hS hT henv n) staticFlag params⟩

end CallState

/-! ## The state of the executor -/

open StateRun CallState

/-- The read of the account trie for `a`: it fails when the database lacks
the node of an account that the cache does not hold. -/
def loadCheck (missing : Address → Bool) (a : Address) : StateRun Error Unit := do
  let s ← get
  if missing a && (s.cache a).isNone then
    throw (.internal "Internal error: Database missing expected key")

/-- The operations of `State` over a database that lacks the nodes of the
accounts `missing` names. -/
def CallState.ofState (missing : Address → Bool) : CallState State where
  depth s := s.checkpoints.length
  checkpoint := update fun s => pure s.checkpoint
  discardCheckpoint := update fun s => pure s.discardCheckpoint
  revertToCheckpoint := update fun s => pure s.revertToCheckpoint
  existsAndHasCodeOrNonce a := do
    loadCheck missing a
    query (·.existsAndHasCodeOrNonce a)
  balance a := do
    loadCheck missing a
    query (·.balance a)
  subBalance a v := do
    loadCheck missing a
    update (·.subBalance a v)
  transferBalance a b v := do
    loadCheck missing a
    update (·.subBalance a v)
    loadCheck missing b
    update (·.addBalance b v)
  newContract a balance nonceOffset := update (·.newContract a balance nonceOffset)

namespace CallState

/-- The height of the checkpoint stack of a `State`. -/
abbrev height (s : State) : Nat := s.checkpoints.length

theorem movesOk_update {f : State → Outcome Empty State} {g : Nat → Nat}
    (h : ∀ s s', f s = .ok s' → height s' = g (height s)) :
    MovesOk height (update f : StateRun Error Unit) g := by
  intro s r s' hx
  rw [update, ExceptT.run_lift, StateT.run_map, ← bind_pure_comp] at hx
  obtain ⟨⟨u, s₁⟩, hrun, hr⟩ := Outcome.bind_eq_ok.mp hx
  change (f s >>= fun s' => pure ((), s')) = _ at hrun
  obtain ⟨s₂, hf, hs⟩ := Outcome.bind_eq_ok.mp hrun
  cases hs
  cases hr
  exact ⟨⟨(), rfl⟩, h s _ hf⟩

theorem movesOk_query {α : Type} {f : State → α × State} (h : ∀ s, height (f s).2 = height s) :
    MovesOk height (query f : StateRun Error α) id := by
  intro s r s' hx
  rw [query, ExceptT.run_lift, StateT.run_map, ← bind_pure_comp] at hx
  obtain ⟨⟨a, s₁⟩, hrun, hr⟩ := Outcome.bind_eq_ok.mp hx
  have hfs : f s = (a, s₁) := Outcome.ok.inj hrun
  cases hr
  refine ⟨⟨a, rfl⟩, ?_⟩
  rw [← h s, hfs]
  rfl

theorem moves_loadCheck (missing : Address → Bool) (a : Address) :
    Moves height (loadCheck missing a) id := by
  intro s r s' hx
  simp only [loadCheck, ExceptT.run_bind] at hx
  change (if (missing a && (s.cache a).isNone) = true then _ else _ :
    StateT State (Outcome Empty) _).run s = _ at hx
  split at hx <;> cases hx <;> rfl

/-- Over a complete database the read succeeds. -/
theorem movesOk_loadCheck (a : Address) : MovesOk height (loadCheck (fun _ => false) a) id := by
  intro s r s' hx
  -- the check is false whatever the cache holds, so the run is `get` and `pure ()`
  change Outcome.ok (Except.ok (), s) = Outcome.ok (r, s') at hx
  cases hx
  exact ⟨⟨(), rfl⟩, rfl⟩

/-- Over any database, the checkpoints move as `call` and `create` expect. -/
theorem ofState_lawful (missing : Address → Bool) : (ofState missing).Lawful where
  checkpoint := movesOk_update fun s _ h => by cases h; rfl
  discardCheckpoint := movesOk_update fun s _ h => by cases h; exact State.length_discardCheckpoint s
  revertToCheckpoint := movesOk_update fun s _ h => by cases h; exact State.length_revertToCheckpoint s
  existsAndHasCodeOrNonce a := moves_bind (moves_loadCheck missing a) fun _ =>
    (movesOk_query fun s => State.length_ensureCached s a _).moves
  balance a := moves_bind (moves_loadCheck missing a) fun _ =>
    (movesOk_query fun s => State.length_ensureCached s a _).moves
  subBalance a _ := moves_bind (moves_loadCheck missing a) fun _ =>
    (movesOk_update fun _ _ h => State.length_of_subBalance_eq_ok h).moves
  transferBalance a b _ :=
    moves_bind (moves_loadCheck missing a) fun _ =>
      moves_bind (movesOk_update fun _ _ h => State.length_of_subBalance_eq_ok h).moves fun _ =>
        moves_bind (moves_loadCheck missing b) fun _ =>
          (movesOk_update fun _ _ h => State.length_of_addBalance_eq_ok h).moves
  newContract _ _ _ := movesOk_update fun _ _ h => State.length_of_newContract_eq_ok h

/-- Over a complete database, the reads after a checkpoint return. -/
theorem ofState_total : (ofState fun _ => false).Total where
  balance a := movesOk_bind (movesOk_loadCheck a) fun _ =>
    movesOk_query fun s => State.length_ensureCached s a _
  subBalance a _ := movesOk_bind (movesOk_loadCheck a) fun _ =>
    (movesOk_update fun _ _ h => State.length_of_subBalance_eq_ok h : MovesOk height _ id)
  transferBalance a b _ :=
    movesOk_bind (movesOk_loadCheck a) fun _ =>
      movesOk_bind (movesOk_update fun _ _ h => State.length_of_subBalance_eq_ok h :
          MovesOk height _ id) fun _ =>
        movesOk_bind (movesOk_loadCheck b) fun _ =>
          (movesOk_update fun _ _ h => State.length_of_addBalance_eq_ok h : MovesOk height _ id)

end CallState

/-- A database that lacks the node of account 2. -/
def lacksTwo (a : Address) : Bool := a == 2

/-- No native contracts or builtins, and code that stops at once. -/
def CallEnv.stopping : CallEnv State :=
  ⟨fun _ => none, fun _ => none, fun _ params => pure ⟨params.gas, .empty, true⟩, true, 0⟩

/-- A call from account 1 to account 2 that sends 10. -/
def ActionParams.oneToTwo : ActionParams :=
  ⟨2, 0, 2, 1, 1, 1000, 1, .transfer 10, none, some [], .call⟩

/-- A transfer that fails after the checkpoint: `sub_balance` of account 1
loads it and takes the 10, `add_balance` of account 2 then misses its node,
and the `?` returns the error with the checkpoint open. -/
theorem call_transfer_error_keeps_checkpoint :
    ((fun p : Except Error FinalizationResult × State =>
        (p.1.map fun _ => (), p.2.checkpoints.length, (p.2.balance 1).1)) <$>
      ((ofState lacksTwo).call CallEnv.stopping ((ofState lacksTwo).executives CallEnv.stopping 1)
          false ActionParams.oneToTwo).run.run (State.fromExisting Backend.funded 0)) =
      .ok (.error (.internal "Internal error: Database missing expected key"), 1, 990) ∧
    ∀ rootOf keys,
      (((ofState lacksTwo).call CallEnv.stopping ((ofState lacksTwo).executives CallEnv.stopping 1)
          false ActionParams.oneToTwo).run.run (State.fromExisting Backend.funded 0) >>= fun p =>
        (fun _ => ()) <$> (p.2.commit rootOf keys : Outcome Empty State)) =
        .panic "assertion failed: self.checkpoints.borrow().is_empty()" := by
  constructor
  · decide +kernel
  · intro rootOf keys
    rfl

end Executor

end Cita
