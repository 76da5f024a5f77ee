import AnconEvm.Evm.Snapshots
import AnconEvm.Evm.MsgServer
/-
  Invariants of the store, kept through every StateDB call and every transaction.

  An invariant `P` of the multistore that all the store code StateDB calls run keeps
  (`StoreCode.Keeps P`) is kept by the keeper as a whole.  The keeper reads through a context
  stack, so `P` is asked of the journal the stack implements: of the view through the top context
  and of every view a snapshot saved (`Keeper.Inv`).  A call writes the top view with such code
  (`Writes`); a snapshot, a revert and a commit only move views around (`Journal.All`).  So `P`
  holds after every StateDB call and every run of them, and after ApplyMessage, ApplyTransaction
  and EthereumTx.  Hook code is the one parameter that writes the store: the transaction theorems
  ask it to keep `P` (`EvmHooks.Keeps`).

  Two invariants are instances: accounts stored under their own address
  (`MultiStore.AccountsKeyed`, which the ante handler's guarantees need), and with it x/bank's
  total-supply invariant (`Bank.Valid`).
-/

namespace AnconEvm.Evm

open Buffered

/-! ## The store code keeps the two invariants -/

theorem StoreCode.keeps_keyed : StoreCode.Keeps MultiStore.AccountsKeyed := by
  intro α x hx
  cases hx with
  | write hkey v =>
    exact Preserves.write fun _ hs =>
      MultiStore.accountsKeyed_set_of_ne v (MultiKey.InEvmStores.ne_account hkey) hs
  | delete hkey =>
    exact Preserves.write fun _ hs =>
      MultiStore.accountsKeyed_delete_of_ne (MultiKey.InEvmStores.ne_account hkey) hs
  | SetAccount acc => exact Bank.SetAccount_keyed acc
  | SendCoinsFromModuleToAccount ModuleAddress senderModule recipientAddr amt =>
    exact Bank.SendCoinsFromModuleToAccount_keyed ModuleAddress senderModule recipientAddr amt
  | SendCoinsFromAccountToModule ModuleAddress senderAddr recipientModule amt =>
    exact Bank.SendCoinsFromAccountToModule_keyed ModuleAddress senderAddr recipientModule amt
  | MintCoins ModuleAddress moduleName amt => exact Bank.MintCoins_keyed ModuleAddress moduleName amt
  | BurnCoins ModuleAddress moduleName amt => exact Bank.BurnCoins_keyed ModuleAddress moduleName amt

theorem StoreCode.keeps_valid : StoreCode.Keeps Bank.Valid := by
  intro α x hx
  cases hx with
  | write hkey v => exact Preserves.write fun _ hs => Bank.valid_set_of_InEvmStores hkey v hs
  | delete hkey => exact Preserves.write fun _ hs => Bank.valid_delete_of_InEvmStores hkey hs
  | SetAccount acc => exact Bank.SetAccount_valid acc
  | SendCoinsFromModuleToAccount ModuleAddress senderModule recipientAddr amt =>
    exact Bank.SendCoinsFromModuleToAccount_valid ModuleAddress senderModule recipientAddr amt
  | SendCoinsFromAccountToModule ModuleAddress senderAddr recipientModule amt =>
    exact Bank.SendCoinsFromAccountToModule_valid ModuleAddress senderAddr recipientModule amt
  | MintCoins ModuleAddress moduleName amt => exact Bank.MintCoins_valid ModuleAddress moduleName amt
  | BurnCoins ModuleAddress moduleName amt => exact Bank.BurnCoins_valid ModuleAddress moduleName amt

/-! ## The keeper's journal keeps an invariant -/

/-- The hook code keeps `P`. -/
def EvmHooks.Keeps (P : MultiStore → Prop) (hooks : EvmHooks) : Prop :=
  ∀ txHash logs, Preserves P (hooks.PostTxProcessing txHash logs)

namespace Keeper

variable {P : MultiStore → Prop}

/-- `P` holds of the view through every context of the keeper. -/
def Inv (P : MultiStore → Prop) (k : Keeper) : Prop := k.journal.All P

theorem hooks_call {α : Type} (x : StoreM α) (k : Keeper) : (k.call x).2.hooks = k.hooks := by
  unfold Keeper.call
  split <;> rfl

/-- Such steps change the context stack and the state error only. -/
theorem Writes.hooks {k k' : Keeper} (h : Writes k k') : k'.hooks = k.hooks := by
  induction h with
  | refl k => rfl
  | call hx k => exact hooks_call _ k
  | stateErr k e => rfl
  | trans _ _ ih₁₂ ih₂₃ => exact ih₂₃.trans ih₁₂

/-- Store code that keeps `P`, run through the top context. -/
theorem Inv.call {α : Type} {x : StoreM α} {k : Keeper} (hk : k.Inv P) (hx : Preserves P x) :
    (k.call x).2.Inv P := by
  unfold Keeper.call
  split
  · exact hk
  · rename_i a d hxd
    show (k.ctxStack.write d).journal.All P
    rw [ContextStack.journal_write]
    exact hk.write fun hcur => hx k.view a d hcur hxd

theorem Inv.Snapshot {k : Keeper} (hk : k.Inv P) : k.Snapshot.2.Inv P := by
  cases herr : k.stateErr with
  | none =>
    unfold Inv
    rw [journal_Snapshot herr]
    exact hk.snapshot
  | some e =>
    -- under a state error no context is pushed
    have hset : k.HasStateError = true := by simp [HasStateError, herr]
    simp only [Keeper.Snapshot, hset, if_true]
    exact hk

theorem hooks_Snapshot (k : Keeper) : k.Snapshot.2.hooks = k.hooks := by
  unfold Keeper.Snapshot
  split <;> rfl

/-- ApplyTransaction's scope: a snapshot when hooks are set, none otherwise. -/
theorem Inv.snapshot_if {k : Keeper} (hk : k.Inv P) (c : Bool) :
    (if c then k.Snapshot else (0, k)).2.Inv P ∧ (if c then k.Snapshot else (0, k)).2.hooks = k.hooks := by
  cases c
  · exact ⟨hk, rfl⟩
  · exact ⟨hk.Snapshot, hooks_Snapshot k⟩

theorem Inv.RevertToSnapshot {k k' : Keeper} {target : Int} (hk : k.Inv P)
    (h : k.RevertToSnapshot target = .ok k') : k'.Inv P := by
  cases herr : k.stateErr with
  | none =>
    obtain ⟨-, hrev⟩ := journal_RevertToSnapshot herr h
    exact hk.revert hrev
  | some e =>
    have hset : k.HasStateError = true := by simp [HasStateError, herr]
    simp only [Keeper.RevertToSnapshot, hset, if_true] at h
    cases h
    exact hk

theorem hooks_RevertToSnapshot {k k' : Keeper} {target : Int} (h : k.RevertToSnapshot target = .ok k') :
    k'.hooks = k.hooks := by
  unfold Keeper.RevertToSnapshot at h
  split at h
  · cases h
    rfl
  · obtain ⟨cs, -, hk'⟩ := Except.bind_eq_ok h
    cases hk'
    rfl

theorem Inv.CommitCachedContexts {k : Keeper} (hk : k.Inv P) : k.CommitCachedContexts.Inv P := by
  show k.ctxStack.Commit.journal.All P
  rw [ContextStack.journal_Commit]
  exact Journal.All.commit hk

/-- A handler's fresh context over a state: its journal keeps that state only. -/
theorem Inv.WithContext {ctx : Context MultiStore Event} (hs : P ctx.store) (k : Keeper) :
    (k.WithContext ctx).Inv P := by
  show P ctx.store ∧ ∀ s ∈ ([] : List MultiStore), P s
  exact ⟨hs, fun _ hs' => absurd hs' List.not_mem_nil⟩

/-- What a transaction commits lands in the initial context's store, the journal's committed
    state. -/
theorem Inv.store {k : Keeper} (hk : k.Inv P) : P k.ctxStack.initialCtx.store := by
  rw [← ContextStack.committed_journal]
  exact Journal.All.committed hk

/-- The hooks, when set, run their code through the top context. -/
theorem Inv.PostTxProcessing {k : Keeper} (hk : k.Inv P) (hhooks : ∀ hooks ∈ k.hooks, hooks.Keeps P)
    (txHash : Hash) (logs : List Log) :
    (k.PostTxProcessing txHash logs).2.Inv P ∧ (k.PostTxProcessing txHash logs).2.hooks = k.hooks := by
  unfold Keeper.PostTxProcessing
  split
  · exact ⟨hk, rfl⟩
  · rename_i hooks hsome
    exact ⟨hk.call (hhooks hooks hsome txHash logs), hooks_call _ k⟩

/-- **Such steps keep the invariant** when the store code they run keeps it. -/
theorem Inv.of_writes (hP : StoreCode.Keeps P) {k k' : Keeper} (hk : k.Inv P) (h : Writes k k') :
    k'.Inv P := by
  induction h with
  | refl k => exact hk
  | call hx k => exact hk.call (hP hx)
  -- the state error is no part of the journal
  | stateErr k e => exact hk
  | trans _ _ ih₁₂ ih₂₃ => exact ih₂₃ (ih₁₂ hk)

end Keeper

/-! ## Runs of StateDB calls -/

open Keeper

section

variable {P : MultiStore → Prop} (hP : StoreCode.Keeps P)
include hP

/-- **Every StateDB call keeps the invariant**, and leaves the hooks. -/
theorem Op.exec_inv {Keccak256 : Bytes → Hash} {op : Op} {k k' : Keeper} (hk : k.Inv P)
    (h : op.exec Keccak256 k = .ok k') : k'.Inv P ∧ k'.hooks = k.hooks := by
  rcases Op.exec_cases h with ⟨-, hw⟩ | ⟨-, rfl⟩ | ⟨target, -, hrev⟩
  · exact ⟨hk.of_writes hP hw, hw.hooks⟩
  · exact ⟨hk.Snapshot, hooks_Snapshot k⟩
  · exact ⟨hk.RevertToSnapshot hrev, hooks_RevertToSnapshot hrev⟩

/-- **Every run of StateDB calls keeps the invariant.** -/
theorem Op.run_inv {Keccak256 : Bytes → Hash} {ops : List Op} {k k' : Keeper} (hk : k.Inv P)
    (h : Op.run Keccak256 ops k = .ok k') : k'.Inv P ∧ k'.hooks = k.hooks := by
  induction ops generalizing k with
  | nil =>
    cases h
    exact ⟨hk, rfl⟩
  | cons op ops ih =>
    obtain ⟨k₁, hop, hrest⟩ := Except.bind_eq_ok h
    obtain ⟨hk₁, hhooks₁⟩ := Op.exec_inv hP hk hop
    obtain ⟨hk', hhooks'⟩ := ih hk₁ hrest
    exact ⟨hk', hhooks'.trans hhooks₁⟩

end

/-! ## Applying a message -/

namespace Keeper

theorem writes_ClearStateError (k : Keeper) : Writes k k.ClearStateError := Writes.stateErr k none

theorem writes_PrepareAccessList (sender : Address) (dest : Option Address) (precompiles : List Address)
    (txAccesses : List (Address × List Hash)) (k : Keeper) :
    Writes k (k.PrepareAccessList sender dest precompiles txAccesses) := by
  unfold PrepareAccessList
  split
  · exact Writes.refl k
  -- each tuple of the tx access list: its address, then its slots
  have htuples : ∀ k₁ : Keeper, Writes k₁ (txAccesses.foldl (fun k tuple =>
      tuple.2.foldl (fun k key => k.AddSlotToAccessList tuple.1 key) (k.AddAddressToAccessList tuple.1)) k₁) := by
    intro k₁
    apply writes_foldl
    intro k₂ tuple
    exact (writes_AddAddressToAccessList tuple.1 k₂).trans
      (writes_foldl _ (fun k₃ key => writes_AddSlotToAccessList tuple.1 key k₃) tuple.2 _)
  have hprecompiles : ∀ k₁ : Keeper,
      Writes k₁ (precompiles.foldl (fun k addr => k.AddAddressToAccessList addr) k₁) := by
    intro k₁
    apply writes_foldl
    intro k₂ addr
    exact writes_AddAddressToAccessList addr k₂
  have hsender := writes_AddAddressToAccessList sender k
  cases dest with
  | none =>
    dsimp only
    exact hsender.trans ((hprecompiles _).trans (htuples _))
  | some d =>
    dsimp only
    exact (hsender.trans (writes_AddAddressToAccessList d _)).trans ((hprecompiles _).trans (htuples _))

end Keeper

theorem writes_RefundGas {msg : Message} {leftoverGas refundQuotient : UInt64} {k k' : Keeper}
    {r : Except String UInt64} (h : RefundGas msg leftoverGas refundQuotient k = .ok (r, k')) :
    Writes k k' := by
  unfold RefundGas at h
  split at h
  · cases h
    exact Writes.refl k
  obtain ⟨refund, -, h⟩ := Except.bind_eq_ok h
  dsimp only at h
  split at h
  · cases h
    exact Writes.refl k
  split at h
  · cases h
    exact Writes.refl k
  split at h
  · cases h
    exact Writes.refl k
  -- the refund itself: one bank send, from the fee collector
  have hsend := StoreCode.SendCoinsFromModuleToAccount k.ModuleAddress FeeCollectorName msg.From
    ((leftoverGas + refund).toNat * msg.GasPrice : Int).toNat
  split at h
  · rename_i hcall
    cases h
    exact writes_of_call hsend hcall
  · rename_i hcall
    cases h
    exact writes_of_call hsend hcall

/-- **Applying a message keeps the invariant**: the access list, the EVM's calls and the refund
    all keep it. -/
theorem ApplyMessage_inv {P : MultiStore → Prop} (hP : StoreCode.Keeps P) {env : Env}
    {coinbase : Address} {msg : Message} {query : Bool} {k k' : Keeper}
    {r : Except String MsgEthereumTxResponse} (hk : k.Inv P)
    (h : ApplyMessage env coinbase msg query k = .ok (r, k')) : k'.Inv P ∧ k'.hooks = k.hooks := by
  unfold ApplyMessage at h
  split at h
  · cases h
    exact ⟨hk.of_writes hP (writes_ClearStateError k), rfl⟩
  split at h
  · cases h
    exact ⟨hk.of_writes hP (writes_ClearStateError k), rfl⟩
  have haccess : Writes k (if env.IsBerlin k.BlockHeight then
      k.PrepareAccessList msg.From msg.To (env.ActivePrecompiles k.BlockHeight) msg.AccessList
    else k) := by
    split
    · exact writes_PrepareAccessList _ _ _ _ k
    · exact Writes.refl k
  obtain ⟨k₂, hrun, h⟩ := Except.bind_eq_ok h
  obtain ⟨hk₂, hhooks₂⟩ := Op.run_inv hP (hk.of_writes hP haccess) hrun
  -- the refund, paid or (for a query) only counted; then the state error is cleared
  have hrefund : Writes k₂ k' := by
    dsimp only at h
    split at h
    · obtain ⟨refund, -, h⟩ := Except.bind_eq_ok h
      rw [pure_bind] at h
      split at h <;> (cases h; exact writes_ClearStateError _)
    · obtain ⟨⟨leftoverGas, k₃⟩, hk₃, h⟩ := Except.bind_eq_ok h
      have hw := writes_RefundGas hk₃
      split at h <;> (cases h; exact hw.trans (writes_ClearStateError _))
  exact ⟨hk₂.of_writes hP hrefund, hrefund.hooks.trans (hhooks₂.trans haccess.hooks)⟩

/-! ## Applying a transaction -/

namespace Keeper

theorem writes_SetTxHashTransient (hash : Hash) (k : Keeper) : Writes k (k.SetTxHashTransient hash) :=
  Writes.call (StoreCode.Set rfl _) k

theorem writes_IncreaseTxIndexTransient {k k' : Keeper} (h : k.IncreaseTxIndexTransient = .ok k') :
    Writes k k' := by
  unfold IncreaseTxIndexTransient at h
  obtain ⟨txIndex, -, hset⟩ := Except.bind_eq_ok h
  cases hset
  exact writes_setCounter _ _ k

theorem writes_recordLogs (env : Env) (logs : List Log) (res : MsgEthereumTxResponse) (k : Keeper) :
    Writes k (k.recordLogs env logs res).2 := by
  unfold recordLogs
  split
  · exact Writes.call (StoreCode.Set rfl _) k
  · exact Writes.refl k

/-- The hooks, and the revert when they fail, keep the invariant. -/
theorem Inv.postProcess {P : MultiStore → Prop} {revision : Nat} {txHash : Hash} {logs : List Log}
    {res res' : MsgEthereumTxResponse} {k k' : Keeper} (hk : k.Inv P)
    (hhooks : ∀ hooks ∈ k.hooks, hooks.Keeps P)
    (h : k.postProcess revision txHash logs res = .ok (res', k')) : k'.Inv P := by
  unfold Keeper.postProcess at h
  split at h
  · cases h
    exact hk
  have hpost := (hk.PostTxProcessing hhooks txHash logs).1
  split at h
  · rename_i k₁ hk₁
    rw [hk₁] at hpost
    cases h
    exact hpost
  · rename_i k₁ hk₁
    rw [hk₁] at hpost
    obtain ⟨k₂, hrev, hret⟩ := Except.bind_eq_ok h
    cases hret
    exact hpost.RevertToSnapshot hrev

end Keeper

/-- **Applying a transaction keeps the invariant**, for hooks that keep it: the tx hash, the
    snapshot, the message, the tx index, the hooks with their revert, the bloom and the commit
    each keep it. -/
theorem ApplyTransaction_inv {P : MultiStore → Prop} (hP : StoreCode.Keeps P) {env : Env}
    {tx : Transaction} {k k' : Keeper} {r : Except String MsgEthereumTxResponse} (hk : k.Inv P)
    (hhooks : ∀ hooks ∈ k.hooks, hooks.Keeps P)
    (h : ApplyTransaction env tx k = .ok (r, k')) : k'.Inv P := by
  have cleared : ∀ {k₁ : Keeper}, k₁.Inv P → k₁.ClearStateError.Inv P :=
    fun hk₁ => hk₁.of_writes hP (writes_ClearStateError _)
  unfold ApplyTransaction at h
  dsimp only at h
  split at h
  · cases h
    exact cleared hk
  split at h
  · cases h
    exact cleared hk
  split at h
  · cases h
    exact cleared hk
  · cases h
    exact cleared hk
  obtain ⟨_, -, h⟩ := Except.bind_eq_ok h
  have hw₁ := writes_SetTxHashTransient (env.TxHash tx) k
  split at h
  · obtain ⟨_, hthrow, -⟩ := Except.bind_eq_ok h
    cases hthrow
  -- the snapshot opens the scope of the message and the hooks
  obtain ⟨hk₂, hhooks₂⟩ :=
    (hk.of_writes hP hw₁).snapshot_if (k.SetTxHashTransient (env.TxHash tx)).hooks.isSome
  obtain ⟨⟨r₃, k₃⟩, happly, h⟩ := Except.bind_eq_ok h
  obtain ⟨hk₃, hhooks₃⟩ := ApplyMessage_inv hP hk₂ happly
  cases r₃ with
  | error err =>
    cases h
    exact cleared hk₃
  | ok res₃ =>
    obtain ⟨k₄, hinc, h⟩ := Except.bind_eq_ok h
    obtain ⟨⟨res, k₅⟩, hpost, h⟩ := Except.bind_eq_ok h
    cases h
    have hw₄ := writes_IncreaseTxIndexTransient hinc
    have hhooks₄ : ∀ hooks ∈ k₄.hooks, hooks.Keeps P := by
      rw [hw₄.hooks, hhooks₃, hhooks₂, hw₁.hooks]
      exact hhooks
    have hk₅ := (hk₃.of_writes hP hw₄).postProcess hhooks₄ hpost
    exact cleared ((hk₅.of_writes hP (writes_recordLogs _ _ _ _)).CommitCachedContexts)

/-- **An Ethereum transaction keeps the invariant** of the block state, for hooks that keep it:
    the message server runs it on a fresh context over that state. -/
theorem EthereumTx_inv {P : MultiStore → Prop} (hP : StoreCode.Keeps P) {env : Env}
    {ctx : Context MultiStore Event} {msg : MsgEthereumTx} {k k' : Keeper}
    {r : Except String MsgEthereumTxResponse} (hs : P ctx.store)
    (hhooks : ∀ hooks ∈ k.hooks, hooks.Keeps P) (h : EthereumTx env ctx msg k = .ok (r, k')) :
    k'.Inv P := by
  unfold EthereumTx at h
  obtain ⟨⟨r₁, k₁⟩, happly, h⟩ := Except.bind_eq_ok h
  have hk₁ := ApplyTransaction_inv hP (Inv.WithContext hs k) hhooks happly
  cases r₁ with
  | error err =>
    cases h
    exact hk₁
  | ok res =>
    cases h
    exact hk₁

end AnconEvm.Evm
