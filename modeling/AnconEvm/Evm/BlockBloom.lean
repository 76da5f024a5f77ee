import AnconEvm.Evm.Transient
/-
  The block bloom (x/evm/keeper/keeper.go GetBlockBloomTransient and SetBlockBloomTransient,
  x/evm/keeper/state_transition.go ApplyTransaction): the OR of the blooms of the logs of the
  block's transactions, kept in the transient store under the block height.

    1. A message changes the keeper's context stack and state error only (`Keeper.SameConfig`,
       `ApplyMessage_sameConfig`), so the height that names the bloom's key stays.
    2. A message writes transient keys under its calls' prefixes and the access list's only
       (`messageWrites`); a property of the views that reads none of them is kept by every message
       (`ApplyMessage_inv_of_readsOutside`), the bloom among them.
    3. ApplyTransaction ORs into the bloom the bloom of the logs its response reports, and nothing
       else, whatever the outcome (`ApplyTransaction_blockBloom`); through the message server, the
       committed block state's bloom grows by the same (`EthereumTx_blockBloom`).
-/

namespace AnconEvm.Evm

open Keeper

/-! ## What a message keeps of the keeper -/

/-- `k'` is `k` with another context stack and state error: the parameters, the block, the tracer,
    the hooks and the module accounts are the same. -/
def Keeper.SameConfig (k k' : Keeper) : Prop :=
  k' = { k with ctxStack := k'.ctxStack, stateErr := k'.stateErr }

namespace Keeper.SameConfig

variable {k₁ k₂ k₃ : Keeper}

theorem refl (k : Keeper) : SameConfig k k := rfl

theorem trans (h₁₂ : SameConfig k₁ k₂) (h₂₃ : SameConfig k₂ k₃) : SameConfig k₁ k₃ := by
  unfold SameConfig at *
  rw [h₂₃, h₁₂]

theorem BlockHeight (h : SameConfig k₁ k₂) : k₂.BlockHeight = k₁.BlockHeight := by
  rw [h]

theorem heightBz (h : SameConfig k₁ k₂) : k₂.heightBz = k₁.heightBz := by
  unfold Keeper.heightBz
  rw [h.BlockHeight]

theorem hooks (h : SameConfig k₁ k₂) : k₂.hooks = k₁.hooks := by
  rw [h]

end Keeper.SameConfig

theorem sameConfig_call {α : Type} (x : StoreM α) (k : Keeper) : SameConfig k (k.call x).2 := by
  unfold Keeper.call
  split <;> rfl

theorem sameConfig_ClearStateError (k : Keeper) : SameConfig k k.ClearStateError := rfl

theorem sameConfig_CommitCachedContexts (k : Keeper) : SameConfig k k.CommitCachedContexts := rfl

theorem Keeper.Writes.sameConfig {k k' : Keeper} (h : Writes k k') : SameConfig k k' := by
  induction h with
  | refl k => exact SameConfig.refl k
  | call hx k => exact sameConfig_call _ k
  | stateErr k e => rfl
  | trans _ _ ih₁₂ ih₂₃ => exact ih₁₂.trans ih₂₃

theorem sameConfig_Snapshot (k : Keeper) : SameConfig k k.Snapshot.2 := by
  unfold Keeper.Snapshot
  split <;> rfl

/-- ApplyTransaction's scope: a snapshot when hooks are set, none otherwise. -/
theorem sameConfig_snapshot_if (k : Keeper) (c : Bool) :
    SameConfig k (if c then k.Snapshot else (0, k)).2 := by
  cases c
  · exact SameConfig.refl k
  · exact sameConfig_Snapshot k

theorem sameConfig_RevertToSnapshot {k k' : Keeper} {target : Int} (h : k.RevertToSnapshot target = .ok k') :
    SameConfig k k' := by
  unfold Keeper.RevertToSnapshot at h
  split at h
  · cases h
    rfl
  · obtain ⟨cs, -, hk'⟩ := Except.bind_eq_ok h
    cases hk'
    rfl

theorem Op.sameConfig_exec {Keccak256 : Bytes → Hash} {op : Op} {k k' : Keeper}
    (h : op.exec Keccak256 k = .ok k') : SameConfig k k' := by
  rcases Op.exec_cases h with ⟨-, hw⟩ | ⟨rfl, rfl⟩ | ⟨target, rfl, hrev⟩
  · exact hw.sameConfig
  · exact sameConfig_Snapshot _
  · exact sameConfig_RevertToSnapshot hrev

theorem Op.sameConfig_run {Keccak256 : Bytes → Hash} {ops : List Op} {k k' : Keeper}
    (h : Op.run Keccak256 ops k = .ok k') : SameConfig k k' := by
  induction ops generalizing k with
  | nil =>
    cases h
    exact SameConfig.refl _
  | cons op ops ih =>
    obtain ⟨k₁, hop, hrest⟩ := Except.bind_eq_ok h
    exact (Op.sameConfig_exec hop).trans (ih hrest)

/-- Applying a message changes the context stack and the state error only. -/
theorem ApplyMessage_sameConfig {env : Env} {coinbase : Address} {msg : Message} {query : Bool}
    {k k' : Keeper} {r : Except String MsgEthereumTxResponse}
    (h : ApplyMessage env coinbase msg query k = .ok (r, k')) : SameConfig k k' := by
  rcases ApplyMessage_cases h with ⟨e, -, rfl⟩ | ⟨ops, k₁, k₂, hrun, hw, -, rfl⟩
  · exact sameConfig_ClearStateError k
  · exact (writes_preparedKeeper env msg k).sameConfig.trans
      ((Op.sameConfig_run hrun).trans (hw.trans (writes_ClearStateError k₂)).sameConfig)

theorem sameConfig_postProcess {revision : Nat} {txHash : Hash} {logs : List Log}
    {res res' : MsgEthereumTxResponse} {k k' : Keeper}
    (h : k.postProcess revision txHash logs res = .ok (res', k')) : SameConfig k k' := by
  unfold Keeper.postProcess at h
  split at h
  · cases h
    exact SameConfig.refl k
  -- the hooks run through the top context, and a failure reverts the snapshot
  have hcall : SameConfig k (k.PostTxProcessing txHash logs).2 := by
    unfold Keeper.PostTxProcessing
    split
    · exact SameConfig.refl k
    · exact sameConfig_call _ k
  split at h
  · rename_i k₁ hk₁
    rw [hk₁] at hcall
    cases h
    exact hcall
  · rename_i k₁ hk₁
    rw [hk₁] at hcall
    obtain ⟨k₂, hrev, hret⟩ := Except.bind_eq_ok h
    cases hret
    exact hcall.trans (sameConfig_RevertToSnapshot hrev)

/-! ## What a message writes in the transient store -/

/-- The prefixes of the transient keys a message writes: its calls' and the access list's. -/
def messageWrites : List Bytes :=
  [KeyPrefixTransientRefund, KeyPrefixTransientSuicided, KeyPrefixTransientAccessListAddress,
    KeyPrefixTransientAccessListSlot, KeyPrefixTransientLogSize, KeyPrefixTransientTxLogs]

theorem Op.transientWrites_subset_messageWrites (op : Op) : op.transientWrites ⊆ messageWrites := by
  cases op <;> (dsimp only [Op.transientWrites]; decide)

theorem transientKept_foldl {ps : List Bytes} {β : Type} {step : Keeper → β → Keeper}
    (hstep : ∀ k b, TransientKept ps k.view (step k b).view) (l : List β) (k : Keeper) :
    TransientKept ps k.view (l.foldl step k).view := by
  induction l generalizing k with
  | nil => exact TransientKept.refl _ _
  | cons b l ih => exact (hstep k b).trans (ih (step k b))

/-- PrepareAccessList writes the keys of the access list only. -/
theorem transientKept_PrepareAccessList (sender : Address) (dest : Option Address)
    (precompiles : List Address) (txAccesses : List (Address × List Hash)) (k : Keeper) :
    TransientKept [KeyPrefixTransientAccessListAddress, KeyPrefixTransientAccessListSlot] k.view
      (k.PrepareAccessList sender dest precompiles txAccesses).view := by
  have hadd : ∀ (k : Keeper) (addr : Address),
      TransientKept [KeyPrefixTransientAccessListAddress, KeyPrefixTransientAccessListSlot] k.view
        (k.AddAddressToAccessList addr).view :=
    fun k addr => (transientKept_AddAddressToAccessList addr k).mono (by simp)
  have htuple : ∀ (k : Keeper) (tuple : Address × List Hash),
      TransientKept [KeyPrefixTransientAccessListAddress, KeyPrefixTransientAccessListSlot] k.view
        (tuple.2.foldl (fun k key => k.AddSlotToAccessList tuple.1 key)
          (k.AddAddressToAccessList tuple.1)).view :=
    fun k tuple => (hadd k tuple.1).trans
      (transientKept_foldl (fun k key => transientKept_AddSlotToAccessList tuple.1 key k) tuple.2 _)
  unfold PrepareAccessList
  split
  · exact TransientKept.refl _ _
  -- the sender, the destination when there is one, the precompiles, then the tuples
  refine (hadd k sender).trans ?_
  cases dest with
  | none =>
    exact (transientKept_foldl (fun k addr => hadd k addr) precompiles _).trans
      (transientKept_foldl htuple txAccesses _)
  | some d =>
    exact (hadd _ d).trans ((transientKept_foldl (fun k addr => hadd k addr) precompiles _).trans
      (transientKept_foldl htuple txAccesses _))

theorem transientKept_preparedKeeper (env : Env) (msg : Message) (k : Keeper) :
    TransientKept [KeyPrefixTransientAccessListAddress, KeyPrefixTransientAccessListSlot] k.view
      (preparedKeeper env msg k).view := by
  unfold preparedKeeper
  split
  · exact transientKept_PrepareAccessList _ _ _ _ k
  · exact TransientKept.refl _ _

/-- **What every message keeps**: a property of the views that reads no transient key a message
    writes holds after ApplyMessage of every view a snapshot saved, when it did before. -/
theorem ApplyMessage_inv_of_readsOutside {P : MultiStore → Prop} (hP : ReadsOutside messageWrites P)
    {env : Env} {coinbase : Address} {msg : Message} {query : Bool} {k k' : Keeper}
    {r : Except String MsgEthereumTxResponse} (hk : k.Inv P)
    (h : ApplyMessage env coinbase msg query k = .ok (r, k')) : k'.Inv P := by
  rcases ApplyMessage_cases h with ⟨e, -, rfl⟩ | ⟨ops, k₁, k₂, hrun, hw, hkept, rfl⟩
  · exact hk
  -- the access list, the EVM's calls, then the refund through the bank
  have hprep : (preparedKeeper env msg k).Inv P :=
    hk.of_transientKept hP (writes_preparedKeeper env msg k).journalWrite
      ((transientKept_preparedKeeper env msg k).mono (by decide))
  have hk₁ := Op.run_inv_of_readsOutside hP (fun op _ => op.transientWrites_subset_messageWrites) hprep hrun
  exact hk₁.of_transientKept hP hw.journalWrite (hkept.mono (List.nil_subset _))

/-! ## The logs of a response -/

/-- A message's response reports no log: ApplyTransaction fills them in. -/
theorem ApplyMessage_Logs {env : Env} {coinbase : Address} {msg : Message} {query : Bool}
    {k k' : Keeper} {res : MsgEthereumTxResponse}
    (h : ApplyMessage env coinbase msg query k = .ok (.ok res, k')) : res.Logs = [] := by
  unfold ApplyMessage at h
  split at h
  · cases h
  split at h
  · cases h
  obtain ⟨k₁, -, h⟩ := Except.bind_eq_ok h
  dsimp only at h
  -- a query counts the refund, a transaction pays it; both responses are built without logs
  split at h
  · obtain ⟨refund, -, h⟩ := Except.bind_eq_ok h
    rw [pure_bind] at h
    split at h <;> cases h
    rfl
  · obtain ⟨⟨leftoverGas, k₂⟩, -, h⟩ := Except.bind_eq_ok h
    split at h <;> cases h
    rfl

theorem postProcess_Logs {revision : Nat} {txHash : Hash} {logs : List Log}
    {res res' : MsgEthereumTxResponse} {k k' : Keeper}
    (h : k.postProcess revision txHash logs res = .ok (res', k')) : res'.Logs = res.Logs := by
  unfold Keeper.postProcess at h
  split at h
  · cases h
    rfl
  split at h
  · cases h
    rfl
  · obtain ⟨k₂, -, hret⟩ := Except.bind_eq_ok h
    cases hret
    rfl

theorem Logs_recordLogs (env : Env) (logs : List Log) (res : MsgEthereumTxResponse) (k : Keeper) :
    (k.recordLogs env logs res).1.Logs = if logs.length > 0 then logs else res.Logs := by
  unfold recordLogs
  split <;> rfl

/-! ## The block bloom -/

/-- The block bloom a view holds under the key of a height, as GetBlockBloomTransient reads it. -/
def blockBloomOf (heightBz : Bytes) (s : MultiStore) : Nat :=
  let bz := s.Get (.transient (KeyPrefixTransientBloom ++ heightBz))
  if bz.length = 0 then 0 else BigEndian.decode bz

theorem GetBlockBloomTransient_eq (k : Keeper) :
    k.GetBlockBloomTransient = blockBloomOf k.heightBz k.view := rfl

/-- The bloom ApplyTransaction ORs into the block bloom for a response: the bloom of the logs it
    reports, none for a response without logs or for an error. -/
def responseBloom (env : Env) : Except String MsgEthereumTxResponse → Nat
  | .ok res => if res.Logs.length > 0 then BigEndian.decode (env.LogsBloom res.Logs) else 0
  | .error _ => 0

/-- The bloom is read from its own key only. -/
theorem blockBloomOf_of_kept {ps : List Bytes} {s s' : MultiStore} (h : TransientKept ps s s')
    (hps : ∀ p ∈ ps, ¬ p <+: KeyPrefixTransientBloom ∧ ¬ KeyPrefixTransientBloom <+: p)
    (heightBz : Bytes) : blockBloomOf heightBz s' = blockBloomOf heightBz s := by
  have hget : s'.Get (.transient (KeyPrefixTransientBloom ++ heightBz)) =
      s.Get (.transient (KeyPrefixTransientBloom ++ heightBz)) := by
    unfold MultiStore.Get
    rw [h.getElem?_append hps heightBz]
  unfold blockBloomOf
  rw [hget]

theorem readsOutside_blockBloom {ps : List Bytes}
    (hps : ∀ p ∈ ps, ¬ p <+: KeyPrefixTransientBloom ∧ ¬ KeyPrefixTransientBloom <+: p)
    (heightBz : Bytes) (b : Nat) : ReadsOutside ps (fun s => blockBloomOf heightBz s = b) :=
  fun _ _ hkept hs => (blockBloomOf_of_kept hkept hps heightBz).trans hs

/-- SetBlockBloomTransient reads back, zero included. -/
theorem GetBlockBloomTransient_SetBlockBloomTransient (bloom : Nat) (k : Keeper) :
    (k.SetBlockBloomTransient bloom).GetBlockBloomTransient = bloom := by
  have hheight : (k.SetBlockBloomTransient bloom).heightBz = k.heightBz := (sameConfig_call _ k).heightBz
  rw [GetBlockBloomTransient_eq, hheight, SetBlockBloomTransient, StoreM.Set, view_call_write]
  unfold blockBloomOf
  rw [MultiStore.Get_smul_set_bytes, if_pos rfl]
  -- zero is stored as no bytes, which read back as zero
  by_cases h0 : bloom = 0
  · subst h0
    rfl
  · have hne : (bigBytes (bloom : Int)).length ≠ 0 := by
      simpa [List.length_eq_zero_iff] using h0
    dsimp only
    rw [if_neg hne]
    simp [bigBytes]

theorem GetBlockBloomTransient_recordLogs (env : Env) (logs : List Log) (res : MsgEthereumTxResponse)
    (k : Keeper) : (k.recordLogs env logs res).2.GetBlockBloomTransient =
      k.GetBlockBloomTransient ||| if logs.length > 0 then BigEndian.decode (env.LogsBloom logs) else 0 := by
  unfold recordLogs
  split
  · rw [GetBlockBloomTransient_SetBlockBloomTransient]
  · rw [Nat.or_zero]

/-- The committed block state holds the bloom of the view. -/
theorem GetBlockBloomTransient_CommitCachedContexts (k : Keeper) :
    k.CommitCachedContexts.GetBlockBloomTransient = k.GetBlockBloomTransient := by
  rw [GetBlockBloomTransient_eq, GetBlockBloomTransient_eq, ← journal_current, ← journal_current]
  show blockBloomOf k.heightBz k.ctxStack.Commit.journal.current = _
  rw [ContextStack.journal_Commit, Journal.commit_current]
  rfl

/-- A transaction that commits leaves no snapshot open. -/
theorem saved_CommitCachedContexts (k : Keeper) : k.CommitCachedContexts.journal.saved = [] := by
  show k.ctxStack.Commit.journal.saved = []
  rw [ContextStack.journal_Commit, Journal.commit_saved]

/-! ## A transaction's bloom -/

/-- The bloom of the response that the log step records, for a message that reported none. -/
theorem responseBloom_recordLogs (env : Env) (logs : List Log) {res : MsgEthereumTxResponse}
    (hres : res.Logs = []) (k : Keeper) :
    responseBloom env (.ok (k.recordLogs env logs res).1) =
      if logs.length > 0 then BigEndian.decode (env.LogsBloom logs) else 0 := by
  simp only [responseBloom, Logs_recordLogs]
  by_cases hl : logs.length > 0
  · simp only [hl, ↓reduceIte]
  · simp only [hl, hres, ↓reduceIte, List.length_nil, gt_iff_lt, Nat.lt_irrefl]

/-- **ApplyTransaction ORs its response's logs bloom into the block bloom**, and writes nothing else
    under the bloom key of the block, whatever the outcome: every view a snapshot saved holds the
    bloom the keeper read, ORed with the bloom of the logs the response reports.  For hooks that
    write no transient key, on a keeper whose views all hold the bloom it reads; the height stays. -/
theorem ApplyTransaction_blockBloom {env : Env} {tx : Transaction} {k k' : Keeper}
    {r : Except String MsgEthereumTxResponse} (hhooks : ∀ hooks ∈ k.hooks, hooks.WritesNoTransient)
    (hk : k.Inv (fun s => blockBloomOf k.heightBz s = k.GetBlockBloomTransient))
    (h : ApplyTransaction env tx k = .ok (r, k')) :
    SameConfig k k' ∧
      k'.Inv (fun s => blockBloomOf k.heightBz s = k.GetBlockBloomTransient ||| responseBloom env r) := by
  unfold ApplyTransaction at h
  dsimp only at h
  -- the refusals before the message clear the state error only
  have hrefused : ∀ err, (k.ClearStateError).Inv
      (fun s => blockBloomOf k.heightBz s = k.GetBlockBloomTransient ||| responseBloom env (.error err)) := by
    intro err
    show k.Inv _
    simpa [responseBloom] using hk
  split at h
  · cases h
    exact ⟨sameConfig_ClearStateError k, hrefused _⟩
  split at h
  · cases h
    exact ⟨sameConfig_ClearStateError k, hrefused _⟩
  split at h
  · cases h
    exact ⟨sameConfig_ClearStateError k, hrefused _⟩
  · cases h
    exact ⟨sameConfig_ClearStateError k, hrefused _⟩
  obtain ⟨_, -, h⟩ := Except.bind_eq_ok h
  -- the tx hash, the scope of the hooks and the message leave the bloom key
  have hw₁ := writes_SetTxHashTransient (env.TxHash tx) k
  have hk₁ := hk.of_transientKept (readsOutside_blockBloom (by decide) _ _) hw₁.journalWrite
    (transientKept_SetTxHashTransient _ k)
  split at h
  · obtain ⟨_, hthrow, -⟩ := Except.bind_eq_ok h
    cases hthrow
  obtain ⟨hk₂, -⟩ := hk₁.snapshot_if (k.SetTxHashTransient (env.TxHash tx)).hooks.isSome
  obtain ⟨⟨r₃, k₃⟩, happly, h⟩ := Except.bind_eq_ok h
  have hk₃ := ApplyMessage_inv_of_readsOutside (readsOutside_blockBloom (by decide) _ _) hk₂ happly
  have hcfg₃ : SameConfig k k₃ := hw₁.sameConfig.trans
    ((sameConfig_snapshot_if _ _).trans (ApplyMessage_sameConfig happly))
  cases r₃ with
  | error err =>
    cases h
    refine ⟨hcfg₃.trans (sameConfig_ClearStateError k₃), ?_⟩
    show k₃.Inv _
    simpa [responseBloom] using hk₃
  | ok res₃ =>
    obtain ⟨k₄, hinc, h⟩ := Except.bind_eq_ok h
    obtain ⟨⟨res₅, k₅⟩, hpost, h⟩ := Except.bind_eq_ok h
    cases h
    -- the tx index and the hooks leave the bloom key too
    have hw₄ := writes_IncreaseTxIndexTransient hinc
    have hk₄ := hk₃.of_transientKept (readsOutside_blockBloom (by decide) _ _) hw₄.journalWrite
      (transientKept_IncreaseTxIndexTransient hinc)
    have hcfg₄ : SameConfig k k₄ := hcfg₃.trans hw₄.sameConfig
    have hhooks₄ : ∀ hooks ∈ k₄.hooks, hooks.Keeps (fun s => blockBloomOf k.heightBz s = k.GetBlockBloomTransient) := by
      rw [hcfg₄.hooks]
      exact fun hooks hh => (hhooks hooks hh).keeps (readsOutside_blockBloom (by simp) _ _)
    have hk₅ := hk₄.postProcess hhooks₄ hpost
    have hcfg₅ : SameConfig k k₅ := hcfg₄.trans (sameConfig_postProcess hpost)
    have hbloom₅ : k₅.GetBlockBloomTransient = k.GetBlockBloomTransient := by
      rw [GetBlockBloomTransient_eq, hcfg₅.heightBz]
      exact hk₅.view
    -- the log step ORs the logs bloom in, and the commit keeps the view
    let logs := k₄.GetTxLogsTransient (env.TxHash tx)
    have hcfg' := (hcfg₅.trans (writes_recordLogs env logs res₅ k₅).sameConfig).trans
      ((sameConfig_CommitCachedContexts _).trans (sameConfig_ClearStateError _))
    refine ⟨hcfg', Keeper.inv_of_saved_nil (saved_CommitCachedContexts _) ?_⟩
    show blockBloomOf k.heightBz (k₅.recordLogs env logs res₅).2.CommitCachedContexts.ClearStateError.view = _
    rw [← hcfg'.heightBz, ← GetBlockBloomTransient_eq]
    show (k₅.recordLogs env logs res₅).2.CommitCachedContexts.GetBlockBloomTransient = _
    rw [GetBlockBloomTransient_CommitCachedContexts, GetBlockBloomTransient_recordLogs, hbloom₅,
      responseBloom_recordLogs env logs ((postProcess_Logs hpost).trans (ApplyMessage_Logs happly : res₃.Logs = []))]

/-- A response through the message server reports the logs ApplyTransaction's did. -/
theorem responseBloom_EthereumTx (env : Env) (r : Except String MsgEthereumTxResponse) :
    responseBloom env (match r with
      | .error err => .error ("failed to apply transaction: " ++ err)
      | .ok res => .ok res) = responseBloom env r := by
  cases r <;> rfl

/-- **The committed block state's bloom grows by the response's logs bloom**: an Ethereum
    transaction the message server runs on a block state commits a state whose bloom, under the
    keeper's block height, is the block state's ORed with the bloom of the logs the response reports,
    for hooks that write no transient key. -/
theorem EthereumTx_blockBloom {env : Env} {ctx : Context MultiStore Event} {msg : MsgEthereumTx}
    {k k' : Keeper} {r : Except String MsgEthereumTxResponse}
    (hhooks : ∀ hooks ∈ k.hooks, hooks.WritesNoTransient) (h : EthereumTx env ctx msg k = .ok (r, k')) :
    blockBloomOf k.heightBz k'.ctxStack.initialCtx.store =
      blockBloomOf k.heightBz ctx.store ||| responseBloom env r := by
  unfold EthereumTx at h
  obtain ⟨⟨r₁, k₁⟩, happly, h⟩ := Except.bind_eq_ok h
  -- a fresh stack over the block state
  have hk₀ : (k.WithContext ctx).Inv
      (fun s => blockBloomOf k.heightBz s = blockBloomOf k.heightBz ctx.store) :=
    Keeper.Inv.WithContext (P := fun s => blockBloomOf k.heightBz s = blockBloomOf k.heightBz ctx.store) rfl k
  obtain ⟨-, hk₁⟩ := ApplyTransaction_blockBloom (k := k.WithContext ctx) hhooks hk₀ happly
  rw [← responseBloom_EthereumTx env r₁] at hk₁
  cases r₁ with
  | error err =>
    cases h
    exact hk₁.store
  | ok res =>
    cases h
    exact hk₁.store

/-- A call that emits one log, run by the message server on a block state without bloom: the
    block's bloom becomes the bloom of a log of 0x4000 without topics. -/
example :
    let ctx : Context MultiStore Event := ⟨runStore 100000, []⟩
    let msg : MsgEthereumTx := ⟨signedCall, ""⟩
    let k := runKeeper ∅ none TracerJSON
    (EthereumTx runEnv ctx msg k).map (fun r => blockBloomOf k.heightBz r.2.ctxStack.initialCtx.store) =
      .ok (BigEndian.decode (runEnv.LogsBloom [⟨0x4000, [], [], 0, 0, 0, 0, 0, false⟩])) := by
  decide +kernel

end AnconEvm.Evm
