import AnconEvm.App.Reachable
import AnconEvm.Evm.EndBlock
/-
  A block's transactions and the block bloom they leave.

  Tendermint delivers a block's transactions one after another through baseapp's runTx in
  DeliverTx mode (`DeliverTxs`).  The EVM module's end blocker then emits the bloom they left in
  the transient store (`Evm/EndBlock.lean`), which eth_getLogs filters heights by
  (`Rpc/Filters.lean`); a block starts with no bloom, since the commit before it empties the
  transient stores.

  1. The Ethereum ante handler writes no transient key but the refund counter
     (`EthAnteHandler_transientKept`); the Cosmos SDK code, a parameter, is asked to write none
     (`CosmosEnv.WritesNoTransient`).  So the block bloom moves in the messages only.
  2. A delivered transaction ORs into the block bloom the bloom of the logs of every EVM response
     it commits, and nothing when a message fails (`runTx_deliver_blockBloom`); over a block the
     bloom is the OR of all of them (`blockBloomOf_DeliverTxs`).
  3. With go-ethereum's LogsBloom that OR is the bloom of all the block's logs
     (`blockBloomOf_DeliverTxs_LogsBloom`), which EndBlock emits for the backend to read back
     (`App/Chain.lean`).
-/

namespace AnconEvm

open Evm Filters Buffered

/-! ## The ante handler writes no transient key but the refund counter -/

namespace Evm.Keeper

theorem DeductFees_transientKept {acc : Account} {fee : Int} {fees : String} {k k' : Keeper}
    (h : DeductFees acc fee fees k = .ok k') : k.StackOnly k' ∧ TransientKept [] k.view k'.view := by
  unfold DeductFees at h
  split_ifs at h
  split at h
  · cases h
  · rename_i k₁ hcall
    cases h
    have hstack := stackOnly_call
      (Bank.SendCoinsFromAccountToModule k.ModuleAddress acc.address FeeCollectorName fee.toNat) k
    rw [hcall] at hstack
    exact ⟨hstack, transientKept_of_call (SendCoinsFromAccountToModule_keepsTransient _ _ _ _) hcall⟩

theorem DeductTxCostsFromUserBalance_transientKept {env : Env} {mode : ExecMode}
    {msgEthTx : MsgEthereumTx} {txData : Transaction} {denom : String} {homestead istanbul : Bool}
    {k k' : Keeper} {fees : String}
    (h : k.DeductTxCostsFromUserBalance env mode msgEthTx txData denom homestead istanbul =
      .ok (fees, k')) :
    k.StackOnly k' ∧ TransientKept [] k.view k'.view := by
  unfold DeductTxCostsFromUserBalance at h
  dsimp only at h
  split at h
  · -- the intrinsic gas, then its check, then the deduction
    split at h
    · simp only [pure_bind] at h
      split at h
      · cases h
      · split at h
        · cases h
        · rename_i k₁ hdeduct
          cases h
          exact DeductFees_transientKept hdeduct
    · cases h
  · cases h

end Evm.Keeper

namespace Ante

variable {env : Env} {cosmos : CosmosEnv} {mode : ExecMode} {tx : SdkTx} {k k' : Keeper}

/-- The account check stores missing sender accounts only. -/
theorem EthAccountVerification_transientKept {msgs : List Msg}
    (h : EthAccountVerification mode msgs k = .ok k') : TransientKept [] k.view k'.view := by
  unfold EthAccountVerification at h
  split at h
  · cases h
    exact TransientKept.refl _ _
  · obtain ⟨r, hr, h⟩ := Except.bind_eq_ok h
    cases h
    -- the invariant of the loop over the messages
    refine Except.forIn_invariant (fun b => TransientKept [] k.view b.view)
      (TransientKept.refl _ _) ?_ hr
    clear hr
    rintro ⟨msg, i⟩ - b res hkept hbody
    dsimp only at hbody
    split at hbody
    · split at hbody
      · split at hbody
        · cases hbody
        · split at hbody
          · split at hbody
            · cases hbody
            · cases hbody
              exact hkept.trans (Keeper.transientKept_call (SetAccount_keepsTransient _) b)
          · split at hbody
            · cases hbody
            · cases hbody
              exact hkept
      · cases hbody
    · cases hbody

/-- The gas consumption of one message resets the refund counter and moves the fee. -/
theorem EthGasConsume_transientKept {msgEthTx : MsgEthereumTx}
    (h : EthGasConsume env mode [.ethereumTx msgEthTx] k = .ok k') :
    k.StackOnly k' ∧ TransientKept [KeyPrefixTransientRefund] k.view k'.view := by
  simp only [EthGasConsume, List.zipIdx_cons, List.zipIdx_nil, List.forIn_cons, List.forIn_nil] at h
  obtain ⟨st, hst, h⟩ := Except.bind_eq_ok h
  cases h
  obtain ⟨x, hx, hstep⟩ := Except.bind_eq_ok hst
  clear hst
  split at hx
  · cases hx
  · rename_i fees k₁ hdeduct
    cases hx
    cases hstep
    have hreset_stack := Keeper.stackOnly_call
      (StoreM.Set (.transient KeyPrefixTransientRefund) (Uint64ToBigEndian 0)) k
    obtain ⟨hstack, hkept⟩ := Keeper.DeductTxCostsFromUserBalance_transientKept hdeduct
    refine ⟨(hreset_stack.trans hstack).trans (Keeper.stackOnly_emit _ _), ?_⟩
    -- the fee events change no state
    show TransientKept _ k.view (k₁.ctxStack.emit _).view
    rw [ContextStack.view_emit]
    exact (Keeper.transientKept_setCounter KeyPrefixTransientRefund 0 k).trans
      (hkept.mono (List.nil_subset _))

/-- **The Ethereum ante handler writes no transient key but the refund counter**, and pushes no
    context. -/
theorem EthAnteHandler_transientKept (h : EthAnteHandler env cosmos mode tx k = .ok k') :
    k.StackOnly k' ∧ TransientKept [KeyPrefixTransientRefund] k.view k'.view := by
  obtain ⟨msgEthTx, sender, k₁, k₂, -, -, h₁, -, h₃, h₄⟩ := EthAnteHandler_eq_ok h
  have hstack₁ := (EthAccountVerification_eq_ok h₁).1
  have hkept₁ := (EthAccountVerification_transientKept h₁).mono (List.nil_subset [KeyPrefixTransientRefund])
  obtain ⟨hstack₂, hkept₂⟩ := EthGasConsume_transientKept h₃
  rcases EthIncrementSenderSequence_single h₄ with ⟨-, rfl⟩ | ⟨-, sender', acc, -, -, hstack₃, hview⟩
  · exact ⟨hstack₁.trans hstack₂, hkept₁.trans hkept₂⟩
  · -- the incremented account is no transient key
    refine ⟨(hstack₁.trans hstack₂).trans hstack₃, (hkept₁.trans hkept₂).trans ?_⟩
    rw [hview]
    exact transientKept_set_of_ne _ _ _ fun _ => by simp

/-- The Ethereum ante chain keeps every property of the block state that reads no refund counter. -/
theorem ethAnteKeeps_of_readsOutside {P : MultiStore → Prop}
    (hP : ReadsOutside [KeyPrefixTransientRefund] P) : EthAnteKeeps P := by
  intro env cosmos mode tx k k' s hs h
  obtain ⟨hstack, hkept⟩ := EthAnteHandler_transientKept h
  -- on a fresh context the handler writes straight into the block state
  rw [← hstack.view_eq_store rfl]
  exact hP _ _ hkept hs

end Ante

/-- The Cosmos SDK code the app runs writes no transient key of the EVM module: the decorators of
    a plain Cosmos transaction and the other modules' handlers. -/
structure CosmosEnv.WritesNoTransient (cosmos : CosmosEnv) : Prop where
  ante : ∀ mode tx, KeepsTransient [] (cosmos.CosmosAnteHandler mode tx)
  handler : ∀ typeUrl, KeepsTransient [] (cosmos.OtherHandler typeUrl)

theorem CosmosEnv.WritesNoTransient.keeps {cosmos : CosmosEnv} (h : cosmos.WritesNoTransient)
    {P : MultiStore → Prop} (hP : ReadsOutside [] P) : cosmos.Keeps P where
  ante mode tx := fun s _ d hs hx => hP _ _ (h.ante mode tx s _ d hx) hs
  handler typeUrl := fun s _ d hs hx => hP _ _ (h.handler typeUrl s _ d hx) hs

/-- The Cosmos SDK code of the runs: the fee deduction writes balances and an account only. -/
theorem BaseApp.runCosmosEnv_writesNoTransient : BaseApp.runCosmosEnv.WritesNoTransient := by
  have hkeeps : ∀ T, BaseApp.runCosmosEnv.Keeps (TransientKept [] T) := fun T =>
    BaseApp.runCosmosEnv_keeps
      (fun _ => (SendCoinsFromAccountToModule_keepsTransient _ _ _ _).preserves T)
      fun acc => (SetAccount_keepsTransient acc).preserves T
  exact ⟨fun mode tx => keepsTransient_of_preserves fun T => (hkeeps T).ante mode tx,
    fun typeUrl => keepsTransient_of_preserves fun T => (hkeeps T).handler typeUrl⟩

/-! ## A block's bloom -/

namespace BaseApp

/-- The bloom a transaction's EVM responses add to the block bloom: the OR of their logs'. -/
def resultsBloom (env : Env) : List (Option MsgEthereumTxResponse) → Nat
  | [] => 0
  | none :: rest => resultsBloom env rest
  | some res :: rest => responseBloom env (.ok res) ||| resultsBloom env rest

/-- The bloom a delivered transaction adds: its responses' when its messages ran, none when one
    failed. -/
def txBloom (env : Env) : Except String (List (Option MsgEthereumTxResponse)) → Nat
  | .ok results => resultsBloom env results
  | .error _ => 0

/-- The DeliverTx calls of a block: its transactions run one after another through runTx in
    DeliverTx mode, each on the block state the one before left; their results and the last
    state. -/
def DeliverTxs (env : Env) (cosmos : CosmosEnv) (k : Keeper) :
    List SdkTx → MultiStore →
      List (Except String (List (Option MsgEthereumTxResponse))) × MultiStore
  | [], s => ([], s)
  | tx :: txs, s =>
    let r := runTx env cosmos .deliver tx k s
    let rest := DeliverTxs env cosmos k txs r.2
    (r.1 :: rest.1, rest.2)

/-- The bloom a block's transactions add: the OR of theirs. -/
def blockTxsBloom (env : Env) (results : List (Except String (List (Option MsgEthereumTxResponse)))) :
    Nat :=
  results.foldr (fun r acc => txBloom env r ||| acc) 0

section

variable {env : Env} {cosmos : CosmosEnv} {k : Keeper}
  (hcosmos : cosmos.WritesNoTransient) (hhooks : ∀ hooks ∈ k.hooks, hooks.WritesNoTransient)
include hcosmos hhooks

/-- The messages of a transaction OR their responses' blooms into the bloom of the state they
    run on. -/
theorem runMsgsFrom_blockBloom {i : Nat} {msgs : List Msg} {s s' : MultiStore}
    {results : List (Option MsgEthereumTxResponse)}
    (h : runMsgsFrom env cosmos k i msgs s = .ok (results, s')) :
    blockBloomOf k.heightBz s' = blockBloomOf k.heightBz s ||| resultsBloom env results := by
  induction msgs generalizing i s results with
  | nil =>
    cases h
    exact (Nat.or_zero _).symm
  | cons msg rest ih =>
    cases msg with
    | ethereumTx msgEthTx =>
      unfold runMsgsFrom at h
      split at h
      · cases h
      · cases h
      · rename_i res k₁ hk₁
        obtain ⟨⟨results', s₁⟩, hrest, hret⟩ := Except.bind_eq_ok h
        cases hret
        -- the message commits its response's bloom, the rest theirs
        rw [ih hrest, EthereumTx_blockBloom hhooks hk₁, Nat.or_assoc]
        rfl
    | other typeUrl =>
      unfold runMsgsFrom at h
      split at h
      · cases h
      · rename_i s₁ hs₁
        obtain ⟨⟨results', s₂⟩, hrest, hret⟩ := Except.bind_eq_ok h
        cases hret
        have hkeeps := (hcosmos.keeps (readsOutside_blockBloom (by simp) k.heightBz
          (blockBloomOf k.heightBz s))).handler typeUrl
        rw [ih hrest, hkeeps.exec rfl hs₁]
        rfl

/-- **A delivered transaction ORs into the block bloom the blooms of the responses it commits**:
    the ante handler adds nothing, a failed message drops the others' writes, and a transaction
    whose messages all ran commits their blooms. -/
theorem runTx_deliver_blockBloom {tx : SdkTx} {s : MultiStore} :
    blockBloomOf k.heightBz (runTx env cosmos .deliver tx k s).2 =
      blockBloomOf k.heightBz s ||| txBloom env (runTx env cosmos .deliver tx k s).1 := by
  unfold runTx
  split
  · exact (Nat.or_zero _).symm
  split
  · exact (Nat.or_zero _).symm
  rename_i anteKeeper hanteKeeper
  -- the ante handler leaves the bloom
  have hante : blockBloomOf k.heightBz anteKeeper.ctxStack.initialCtx.store =
      blockBloomOf k.heightBz s :=
    Ante.NewAnteHandler_inv (P := fun s' => blockBloomOf k.heightBz s' = blockBloomOf k.heightBz s)
      (Ante.ethAnteKeeps_of_readsOutside (readsOutside_blockBloom (by decide) _ _))
      (hcosmos.keeps (readsOutside_blockBloom (by simp) _ _)) rfl hanteKeeper
  dsimp only
  split
  · rw [hante]
    exact (Nat.or_zero _).symm
  · rename_i results s' hmsgs
    -- DeliverTx commits what the messages wrote
    unfold runMsgs at hmsgs
    rw [if_neg (by decide)] at hmsgs
    rw [if_pos rfl, runMsgsFrom_blockBloom hcosmos hhooks hmsgs, hante]
    rfl

/-- **Over a block the bloom is the OR of the blooms its transactions committed.** -/
theorem blockBloomOf_DeliverTxs (txs : List SdkTx) (s : MultiStore) :
    blockBloomOf k.heightBz (DeliverTxs env cosmos k txs s).2 =
      blockBloomOf k.heightBz s ||| blockTxsBloom env (DeliverTxs env cosmos k txs s).1 := by
  induction txs generalizing s with
  | nil => exact (Nat.or_zero _).symm
  | cons tx txs ih =>
    show blockBloomOf k.heightBz (DeliverTxs env cosmos k txs (runTx env cosmos .deliver tx k s).2).2 =
      blockBloomOf k.heightBz s ||| (txBloom env (runTx env cosmos .deliver tx k s).1 |||
        blockTxsBloom env (DeliverTxs env cosmos k txs (runTx env cosmos .deliver tx k s).2).1)
    rw [ih, runTx_deliver_blockBloom hcosmos hhooks, Nat.or_assoc]

end

end BaseApp

/-! ## The bloom of a block's logs -/

/-- Recording two runs of logs merges their blooms. -/
theorem Filters.LogsBloom_append (Keccak256 : Bytes → Hash) (logs logs' : List EthLog) :
    LogsBloom Keccak256 (logs ++ logs') = Bloom.or (LogsBloom Keccak256 logs) (LogsBloom Keccak256 logs') := by
  rw [LogsBloom, List.flatMap_append, List.map_append, Bloom.addAll_empty_append]
  rfl

theorem Filters.LogsBloom_nil (Keccak256 : Bytes → Hash) : LogsBloom Keccak256 [] = Bloom.empty := rfl

namespace BaseApp

/-- The logs of the EVM responses a delivered transaction committed. -/
def txLogs : Except String (List (Option MsgEthereumTxResponse)) → List Log
  | .ok results => results.flatMap fun r => (r.map (·.Logs)).getD []
  | .error _ => []

/-- The logs of a block: those its transactions committed, in order. -/
def blockLogs (results : List (Except String (List (Option MsgEthereumTxResponse)))) : List Log :=
  results.flatMap txLogs

section Geth

/- The go-ethereum of the chain computes LogsBloom as go-ethereum does, with Keccak-256 as its
   hash: the bloom of the logs' addresses and topics. -/
variable {env : Env} {Keccak256 : Bytes → Hash}
  (hgeth : ∀ logs, env.LogsBloom logs = Bloom.Bytes (LogsBloom Keccak256 (logs.map Log.ToEthereum)))
include hgeth

theorem responseBloom_eq_LogsBloom (res : MsgEthereumTxResponse) :
    responseBloom env (.ok res) =
      BigEndian.decode (Bloom.Bytes (LogsBloom Keccak256 (res.Logs.map Log.ToEthereum))) := by
  show (if res.Logs.length > 0 then BigEndian.decode (env.LogsBloom res.Logs) else 0) = _
  split
  · rw [hgeth]
  · -- a response without logs adds the empty bloom
    rename_i hnone
    have hnil : res.Logs = [] := List.eq_nil_of_length_eq_zero (by omega)
    rw [hnil, List.map_nil, LogsBloom_nil, decode_Bytes_empty]

theorem resultsBloom_eq_LogsBloom (results : List (Option MsgEthereumTxResponse)) :
    resultsBloom env results =
      BigEndian.decode (Bloom.Bytes (LogsBloom Keccak256 ((txLogs (.ok results)).map Log.ToEthereum))) := by
  induction results with
  | nil =>
    show 0 = BigEndian.decode (Bloom.Bytes (LogsBloom Keccak256 []))
    rw [LogsBloom_nil, decode_Bytes_empty]
  | cons r results ih =>
    have hlogs : txLogs (.ok (r :: results)) = (r.map (·.Logs)).getD [] ++ txLogs (.ok results) :=
      List.flatMap_cons
    rw [hlogs, List.map_append, LogsBloom_append, decode_Bytes_or, ← ih]
    cases r with
    | none =>
      show resultsBloom env results = BigEndian.decode (Bloom.Bytes (LogsBloom Keccak256 [])) ||| _
      rw [LogsBloom_nil, decode_Bytes_empty, Nat.zero_or]
    | some res =>
      show responseBloom env (.ok res) ||| resultsBloom env results = _
      rw [responseBloom_eq_LogsBloom hgeth]
      rfl

/-- **With go-ethereum's LogsBloom, what a block's transactions OR in is the bloom of all the
    block's logs.** -/
theorem blockTxsBloom_eq_LogsBloom (results : List (Except String (List (Option MsgEthereumTxResponse)))) :
    blockTxsBloom env results =
      BigEndian.decode (Bloom.Bytes (LogsBloom Keccak256 ((blockLogs results).map Log.ToEthereum))) := by
  induction results with
  | nil =>
    show 0 = BigEndian.decode (Bloom.Bytes (LogsBloom Keccak256 []))
    rw [LogsBloom_nil, decode_Bytes_empty]
  | cons r results ih =>
    have hlogs : blockLogs (r :: results) = txLogs r ++ blockLogs results := List.flatMap_cons
    show txBloom env r ||| blockTxsBloom env results = _
    rw [hlogs, List.map_append, LogsBloom_append, decode_Bytes_or, ← ih]
    cases r with
    | error err =>
      show 0 ||| _ = BigEndian.decode (Bloom.Bytes (LogsBloom Keccak256 [])) ||| _
      rw [LogsBloom_nil, decode_Bytes_empty]
    | ok results' => rw [← resultsBloom_eq_LogsBloom hgeth]; rfl

end Geth

/-- **After a block's transactions the transient store holds the bloom of all the block's
    logs**, when the block started without bloom, with go-ethereum's LogsBloom, and Cosmos SDK
    code and hooks that write no transient key. -/
theorem blockBloomOf_DeliverTxs_LogsBloom {env : Env} {cosmos : CosmosEnv} {k : Keeper}
    {Keccak256 : Bytes → Hash}
    (hgeth : ∀ logs, env.LogsBloom logs = Bloom.Bytes (LogsBloom Keccak256 (logs.map Log.ToEthereum)))
    (hcosmos : cosmos.WritesNoTransient) (hhooks : ∀ hooks ∈ k.hooks, hooks.WritesNoTransient)
    {txs : List SdkTx} {s₀ s : MultiStore}
    {results : List (Except String (List (Option MsgEthereumTxResponse)))}
    (hfresh : blockBloomOf k.heightBz s₀ = 0) (hblock : DeliverTxs env cosmos k txs s₀ = (results, s)) :
    blockBloomOf k.heightBz s =
      BigEndian.decode (Bloom.Bytes (LogsBloom Keccak256 ((blockLogs results).map Log.ToEthereum))) := by
  have hrun : blockBloomOf k.heightBz (DeliverTxs env cosmos k txs s₀).2 =
      blockBloomOf k.heightBz s₀ ||| blockTxsBloom env (DeliverTxs env cosmos k txs s₀).1 :=
    blockBloomOf_DeliverTxs hcosmos hhooks txs s₀
  rw [hblock, hfresh, Nat.zero_or] at hrun
  rw [hrun, blockTxsBloom_eq_LogsBloom hgeth]

end BaseApp

end AnconEvm
