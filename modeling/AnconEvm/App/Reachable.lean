import AnconEvm.App.BaseApp
import AnconEvm.App.AnteSafety
import AnconEvm.Evm.Invariant
/-
  What holds of every state the chain reaches.

  A block state is reached from a genesis state by transactions run one after another through
  `runTx`, in any mode (`Reachable`).  An invariant of the store is kept by every such run
  (`runTx_inv`) when each part of the transaction path keeps it: the Ethereum ante chain
  (`EthAnteKeeps`), the store code of the EVM (`StoreCode.Keeps`, `Evm/Invariant.lean`), and the
  code the model leaves as parameters, as the SDK's keepers do: the Cosmos decorators and the
  other modules' handlers (`CosmosEnv.Keeps`) and the EVM hooks (`EvmHooks.Keeps`).

  Two invariants hold at every reachable state: accounts stored under their own address
  (`Reachable.keyed`), and with it the supply equal to the sum of the balances, x/bank's
  total-supply invariant (`Reachable.valid`).  So the ante handler's guarantees, proved for keyed
  stores, hold at every reachable state; in particular CheckTx refuses a second copy of an
  Ethereum call it accepted (`runTx_check_call_replay_refused`).
-/

namespace AnconEvm

/-- The Cosmos SDK code the app runs keeps `P`: the decorator chain of a plain Cosmos transaction
    and the handlers of the other modules' messages. -/
structure CosmosEnv.Keeps (P : MultiStore → Prop) (cosmos : CosmosEnv) : Prop where
  ante : ∀ mode tx, Buffered.Preserves P (cosmos.CosmosAnteHandler mode tx)
  handler : ∀ typeUrl, Buffered.Preserves P (cosmos.OtherHandler typeUrl)

namespace Ante

open Evm

/-- The Ethereum ante chain, run on a fresh context over a block state that satisfies `P`, writes
    back a block state that satisfies `P`. -/
def EthAnteKeeps (P : MultiStore → Prop) : Prop :=
  ∀ (env : Env) (cosmos : CosmosEnv) (mode : ExecMode) (tx : SdkTx) (k k' : Keeper) (s : MultiStore),
    P s → EthAnteHandler env cosmos mode tx (k.WithContext ⟨s, []⟩) = .ok k' →
      P k'.ctxStack.initialCtx.store

section

variable {env : Env} {cosmos : CosmosEnv} {mode : ExecMode} {tx : SdkTx} {k k' : Keeper}
  {s : MultiStore}

/-- On a handler's fresh context the Ethereum chain writes straight into the block state: the
    context has no cached context and the chain pushes none. -/
theorem EthAnteHandler_store (hs : s.AccountsKeyed)
    (h : EthAnteHandler env cosmos mode tx (k.WithContext ⟨s, []⟩) = .ok k') :
    k'.ctxStack.initialCtx.store = k'.view := by
  have hfresh : (k.WithContext ⟨s, []⟩).view.AccountsKeyed := hs
  exact ((EthAnteHandler_stackOnly hfresh h).view_eq_store rfl).symm

theorem ethAnteKeeps_keyed : EthAnteKeeps MultiStore.AccountsKeyed := by
  intro env cosmos mode tx k k' s hs h
  have hfresh : (k.WithContext ⟨s, []⟩).view.AccountsKeyed := hs
  rw [EthAnteHandler_store hs h]
  exact EthAnteHandler_keyed hfresh h

theorem ethAnteKeeps_valid : EthAnteKeeps Bank.Valid := by
  intro env cosmos mode tx k k' s hs h
  have hfresh : Bank.Valid (k.WithContext ⟨s, []⟩).view := hs
  rw [EthAnteHandler_store hs.keyed h]
  exact EthAnteHandler_valid hfresh h

/-- **The ante handler keeps the invariant of the block state**, on either route. -/
theorem NewAnteHandler_inv {P : MultiStore → Prop} (hante : EthAnteKeeps P)
    (hcosmos : cosmos.Keeps P) (hs : P s)
    (h : NewAnteHandler env cosmos mode tx (k.WithContext ⟨s, []⟩) = .ok k') :
    P k'.ctxStack.initialCtx.store := by
  unfold NewAnteHandler at h
  split at h
  · split at h
    · exact hante env cosmos mode tx k k' s hs h
    · cases h
  · -- a plain Cosmos transaction: one call of the SDK's decorators
    split at h
    · cases h
    · rename_i k₁ hcall
      cases h
      have hfresh : (k.WithContext ⟨s, []⟩).Inv P := Keeper.Inv.WithContext hs k
      have hk₁ := hfresh.call (hcosmos.ante mode tx)
      rw [hcall] at hk₁
      exact hk₁.store

/-- **No replay through the ante handler**: outside ReCheckTx, an Ethereum-routed call the ante
    handler accepted on a block state is refused on the state it wrote back. -/
theorem NewAnteHandler_call_replay_refused (hmode : mode.IsReCheckTx = false)
    (hext : tx.ExtensionOptions.head? = some ExtensionOptionsEthereumTx) (hs : s.AccountsKeyed)
    (hcall : ∀ msgEthTx, Msg.ethereumTx msgEthTx ∈ tx.Msgs → msgEthTx.Data.To ≠ none)
    (h : NewAnteHandler env cosmos mode tx (k.WithContext ⟨s, []⟩) = .ok k') :
    ∃ err, NewAnteHandler env cosmos mode tx (k.WithContext ⟨k'.ctxStack.initialCtx.store, []⟩) =
      .error err := by
  obtain ⟨rest, hrest⟩ : ∃ rest, tx.ExtensionOptions = ExtensionOptionsEthereumTx :: rest := by
    cases hopts : tx.ExtensionOptions with
    | nil =>
      rw [hopts] at hext
      cases hext
    | cons o rest =>
      rw [hopts, List.head?_cons, Option.some_inj] at hext
      exact ⟨rest, by rw [hext]⟩
  -- both runs take the Ethereum chain
  unfold NewAnteHandler at h ⊢
  rw [hrest] at h ⊢
  simp only [if_true] at h ⊢
  -- the fresh context over the written-back store shows the state the chain left
  have hview : (k.WithContext ⟨k'.ctxStack.initialCtx.store, []⟩).view = k'.view :=
    EthAnteHandler_store hs h
  have hfresh : (k.WithContext ⟨s, []⟩).view.AccountsKeyed := hs
  exact EthAnteHandler_call_replay_refused hmode hfresh hcall h hview rfl

end

end Ante

namespace BaseApp

open Evm Ante

section

variable {P : MultiStore → Prop} {env : Env} {cosmos : CosmosEnv} {k : Keeper}
  (hP : StoreCode.Keeps P) (hcosmos : cosmos.Keeps P) (hhooks : ∀ hooks ∈ k.hooks, hooks.Keeps P)
include hP hcosmos hhooks

/-- **The messages keep the invariant of the block state**: each MsgEthereumTx commits a store
    that satisfies it, and each other module's handler keeps it. -/
theorem runMsgsFrom_inv {i : Nat} {msgs : List Msg} {s s' : MultiStore}
    {results : List (Option MsgEthereumTxResponse)} (hs : P s)
    (h : runMsgsFrom env cosmos k i msgs s = .ok (results, s')) : P s' := by
  induction msgs generalizing i s results with
  | nil =>
    cases h
    exact hs
  | cons msg rest ih =>
    cases msg with
    | ethereumTx msgEthTx =>
      unfold runMsgsFrom at h
      split at h
      · cases h
      · cases h
      · rename_i res k₁ hk₁
        obtain ⟨⟨results', s₁⟩, hrest, hret⟩ := Except.bind_eq_ok h
        cases hret
        exact ih (EthereumTx_inv hP hs hhooks hk₁).store hrest
    | other typeUrl =>
      unfold runMsgsFrom at h
      split at h
      · cases h
      · rename_i s₁ hs₁
        obtain ⟨⟨results', s₂⟩, hrest, hret⟩ := Except.bind_eq_ok h
        cases hret
        exact ih ((hcosmos.handler typeUrl).exec hs hs₁) hrest

/-- **Every transaction keeps the invariant of the block state**, in every mode and whatever its
    outcome. -/
theorem runTx_inv (hante : EthAnteKeeps P) {mode : ExecMode} {tx : SdkTx} {s : MultiStore}
    (hs : P s) : P (runTx env cosmos mode tx k s).2 := by
  unfold runTx
  split
  · exact hs
  split
  · exact hs
  rename_i anteKeeper hanteKeeper
  have hanteStore := NewAnteHandler_inv hante hcosmos hs hanteKeeper
  dsimp only
  split
  · exact hanteStore
  · rename_i results s' hmsgs
    split
    · -- DeliverTx keeps what the messages wrote
      unfold runMsgs at hmsgs
      split at hmsgs
      · cases hmsgs
        exact hanteStore
      · exact runMsgsFrom_inv hP hcosmos hhooks hanteStore hmsgs
    · exact hanteStore

end

/-- The block states the chain reaches from the genesis state `s₀`, by transactions run one after
    another through `runTx`, in any mode. -/
inductive Reachable (env : Env) (cosmos : CosmosEnv) (k : Keeper) (s₀ : MultiStore) :
    MultiStore → Prop
  | init : Reachable env cosmos k s₀ s₀
  | runTx {s : MultiStore} (mode : ExecMode) (tx : SdkTx) :
      Reachable env cosmos k s₀ s → Reachable env cosmos k s₀ (runTx env cosmos mode tx k s).2

section

variable {env : Env} {cosmos : CosmosEnv} {k : Keeper} {s₀ s : MultiStore}

/-- **An invariant of every reachable state**, from the genesis state and each transaction. -/
theorem Reachable.inv {P : MultiStore → Prop} (hP : StoreCode.Keeps P) (hante : EthAnteKeeps P)
    (hcosmos : cosmos.Keeps P) (hhooks : ∀ hooks ∈ k.hooks, hooks.Keeps P) (h₀ : P s₀)
    (h : Reachable env cosmos k s₀ s) : P s := by
  induction h with
  | init => exact h₀
  | runTx mode tx _ ih => exact runTx_inv hP hcosmos hhooks hante ih

/-- **Every reachable state keeps accounts keyed.** -/
theorem Reachable.keyed (hcosmos : cosmos.Keeps MultiStore.AccountsKeyed)
    (hhooks : ∀ hooks ∈ k.hooks, hooks.Keeps MultiStore.AccountsKeyed) (h₀ : s₀.AccountsKeyed)
    (h : Reachable env cosmos k s₀ s) : s.AccountsKeyed :=
  h.inv StoreCode.keeps_keyed ethAnteKeeps_keyed hcosmos hhooks h₀

/-- The Cosmos decorators of the runs (`runCosmosEnv`) keep every invariant that their fee
    deduction and their account update keep. -/
theorem runCosmosEnv_keeps {P : MultiStore → Prop}
    (hsend : ∀ amt, Buffered.Preserves P
      (Bank.SendCoinsFromAccountToModule runModuleAddress runSender FeeCollectorName amt))
    (hset : ∀ acc, Buffered.Preserves P (Auth.SetAccount acc)) : runCosmosEnv.Keeps P where
  ante mode tx := by
    have hget : Buffered.Preserves P (Auth.GetAccount runSender) :=
      Buffered.Preserves.bind Buffered.Preserves.read fun _ => Buffered.Preserves.pure _
    unfold runCosmosEnv
    dsimp only
    -- the fee when it is positive, then the sequence bump, which the do block repeats
    split
    · refine Buffered.Preserves.bind (hsend _) fun _ => Buffered.Preserves.bind hget fun acc => ?_
      split
      · exact hset _
      · exact Buffered.Preserves.fail _
    · refine Buffered.Preserves.bind hget fun acc => ?_
      split
      · exact hset _
      · exact Buffered.Preserves.fail _
  handler _ := Buffered.Preserves.pure ()

theorem accountsKeyed_empty : MultiStore.AccountsKeyed ∅ := by
  intro addr acc h
  simp [MultiStore.Account?] at h

/-- The store of the runs holds one account, under its own address. -/
theorem accountsKeyed_runStore (fees : Nat) : (runStore fees).AccountsKeyed := by
  unfold runStore
  rw [mul_smul, mul_smul]
  exact MultiStore.accountsKeyed_set_account ⟨runSender, 0, .eth EmptyCodeHash.Hex⟩
    (MultiStore.accountsKeyed_set_of_ne _ (fun _ => by simp)
      (MultiStore.accountsKeyed_set_of_ne _ (fun _ => by simp) accountsKeyed_empty))

/-- **At every reachable state the supply is the sum of the balances**, and accounts are keyed,
    when the genesis state and the SDK's code keep both. -/
theorem Reachable.valid (hcosmos : cosmos.Keeps Bank.Valid)
    (hhooks : ∀ hooks ∈ k.hooks, hooks.Keeps Bank.Valid) (h₀ : Bank.Valid s₀)
    (h : Reachable env cosmos k s₀ s) : Bank.Valid s :=
  h.inv StoreCode.keeps_valid ethAnteKeeps_valid hcosmos hhooks h₀

/-- The store of the runs with `amt` coins minted to the caller: valid, its one balance the
    supply. -/
theorem valid_runStore_funded (amt : Nat) :
    Bank.Valid ((KV.Delta.set (.balance runSender) (.amount amt) *
      KV.Delta.set .supply (.amount amt) :
      MultiDelta) • runStore 0) := by
  rw [mul_smul]
  refine ⟨MultiStore.accountsKeyed_set_of_ne _ (fun _ => by simp)
    (MultiStore.accountsKeyed_set_of_ne _ (fun _ => by simp) (accountsKeyed_runStore 0)), ?_⟩
  -- the caller holds every coin; the fee collector's balance and the account write add none
  have hbalance : ∀ a : Address, ((KV.Delta.set (.balance runSender) (.amount amt) : MultiDelta) •
      (KV.Delta.set .supply (.amount amt) : MultiDelta) • runStore 0).Amount (.balance a) =
        if runSender = a then amt else 0 := by
    intro a
    have hempty : (∅ : MultiStore).Amount (.balance a) = 0 := by simp [MultiStore.Amount]
    simp only [runStore, mul_smul, MultiStore.Amount_smul_set_amount, MultiKey.balance.injEq,
      MultiStore.Amount_smul_set_of_ne _ _ (show MultiKey.account runSender ≠ .balance a by simp),
      reduceCtorEq, if_false, hempty, ite_self]
  unfold Bank.Conserved
  rw [Finset.sum_congr rfl fun a _ => hbalance a, Finset.sum_ite_eq, if_pos (Finset.mem_univ _)]
  simp

/-- A funded Ethereum-routed call, delivered on a valid store: it runs, the caller pays, and the
    state it leaves is valid. -/
theorem reachable_call_valid :
    let call : MsgEthereumTx := ⟨signedCall, ""⟩
    let tx : SdkTx := ⟨[.ethereumTx call], [Ante.ExtensionOptionsEthereumTx], "", 0, 100000, 100000⟩
    let s₀ : MultiStore :=
      (KV.Delta.set (.balance runSender) (.amount 200000) * KV.Delta.set .supply (.amount 200000) :
        MultiDelta) • runStore 0
    let k := runKeeper ∅ none TracerJSON
    (runTx runEnv runCosmosEnv .deliver tx k s₀).1.toBool = true ∧
      (runTx runEnv runCosmosEnv .deliver tx k s₀).2.Amount (.balance runSender) < 200000 ∧
      Bank.Valid (runTx runEnv runCosmosEnv .deliver tx k s₀).2 := by
  intro call tx s₀ k
  have hran : (runTx runEnv runCosmosEnv .deliver tx k s₀).1.toBool = true ∧
      (runTx runEnv runCosmosEnv .deliver tx k s₀).2.Amount (.balance runSender) < 200000 := by
    decide +kernel
  exact ⟨hran.1, hran.2, Reachable.valid
    (runCosmosEnv_keeps (fun _ => Bank.SendCoinsFromAccountToModule_valid _ _ _ _) Bank.SetAccount_valid)
    (fun _ h => absurd h (Option.not_mem_none _)) (valid_runStore_funded 200000)
    (.runTx .deliver _ .init)⟩

/-- CheckTx on a transaction the handlers accept: no message runs, and the state is the one the
    ante handler wrote back. -/
theorem runTx_check_of_ante {tx : SdkTx} {k' : Keeper}
    (hval : validateBasicTxMsgs cosmos tx.Msgs = .ok ())
    (hante : NewAnteHandler env cosmos .check tx (k.WithContext ⟨s, []⟩) = .ok k') :
    runTx env cosmos .check tx k s = (.ok [], k'.ctxStack.initialCtx.store) := by
  simp only [runTx, hval, hante, runMsgs]
  simp

/-- **CheckTx refuses a replayed call**: at every reachable state, an Ethereum-routed call that
    CheckTx accepted is refused by CheckTx on the state it left. -/
theorem runTx_check_call_replay_refused (hcosmos : cosmos.Keeps MultiStore.AccountsKeyed)
    (hhooks : ∀ hooks ∈ k.hooks, hooks.Keeps MultiStore.AccountsKeyed) (h₀ : s₀.AccountsKeyed)
    {tx : SdkTx} {results : List (Option MsgEthereumTxResponse)}
    (hreach : Reachable env cosmos k s₀ s)
    (hext : tx.ExtensionOptions.head? = some ExtensionOptionsEthereumTx)
    (hcall : ∀ msgEthTx, Msg.ethereumTx msgEthTx ∈ tx.Msgs → msgEthTx.Data.To ≠ none)
    (h : (runTx env cosmos .check tx k s).1 = .ok results) :
    ∃ err, (runTx env cosmos .check tx k (runTx env cosmos .check tx k s).2).1 = .error err := by
  have hs := hreach.keyed hcosmos hhooks h₀
  -- the first run passed the message checks and the ante handler
  cases hval : validateBasicTxMsgs cosmos tx.Msgs with
  | error err =>
    simp only [runTx, hval] at h
    cases h
  | ok u =>
    cases hante : NewAnteHandler env cosmos .check tx (k.WithContext ⟨s, []⟩) with
    | error err =>
      simp only [runTx, hval, hante] at h
      cases h
    | ok k' =>
      rw [runTx_check_of_ante hval hante]
      obtain ⟨err, herr⟩ := NewAnteHandler_call_replay_refused rfl hext hs hcall hante
      exact ⟨err, by simp only [runTx, hval, herr]⟩

/-- A funded sender's call, checked twice from the store of the runs. -/
theorem runTx_check_call_replay_refused_funded :
    let call : MsgEthereumTx := ⟨signedCall, ""⟩
    let tx : SdkTx := ⟨[.ethereumTx call], [ExtensionOptionsEthereumTx], "", 0, 100000, 100000⟩
    let s₀ : MultiStore :=
      (KV.Delta.set (.balance runSender) (.amount 200000) * KV.Delta.set .supply (.amount 200000) :
        MultiDelta) • runStore 0
    let k := runKeeper ∅ none TracerJSON
    ∃ err, (runTx runEnv runCosmosEnv .check tx k (runTx runEnv runCosmosEnv .check tx k s₀).2).1 =
      .error err := by
  intro call tx s₀ k
  have hs₀ : s₀.AccountsKeyed := (valid_runStore_funded 200000).keyed
  have hcheck : (runTx runEnv runCosmosEnv .check tx k s₀).1 = .ok [] := by decide +kernel
  have hcall : ∀ msgEthTx, Msg.ethereumTx msgEthTx ∈ tx.Msgs → msgEthTx.Data.To ≠ none := by
    intro msgEthTx hmem
    rw [List.mem_singleton] at hmem
    cases hmem
    simp [call, signedCall]
  exact runTx_check_call_replay_refused
    (runCosmosEnv_keeps (fun _ => Bank.SendCoinsFromAccountToModule_keyed _ _ _ _) Bank.SetAccount_keyed)
    (fun _ h => absurd h (Option.not_mem_none _)) hs₀ .init rfl hcall hcheck

end

end BaseApp

end AnconEvm
