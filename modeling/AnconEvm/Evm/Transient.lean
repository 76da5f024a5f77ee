import AnconEvm.Evm.Setters
import AnconEvm.Evm.TxLogs
import AnconEvm.Evm.GasRefund
/-
  What the StateDB calls write in the transient store, and the parts of the state kept there that
  follow go-ethereum's journal.

  The transient store holds, each under a one-byte prefix, what the EVM module keeps for the
  block and the transaction outside the EVM store: the suicide marks, the block bloom, the tx
  index, the refund counter, the access list, the tx hash, the log count and the logs.  Each
  StateDB call writes under a few of these prefixes only (`Op.transientWrites`), and balances move
  through x/bank, which writes no transient key (`Op.transientKept_exec`).

  go-ethereum journals the refund counter, the access list and the suicide flags, so that a revert
  undoes them.  The keeper keeps them in the transient store, which the context stack caches like
  every other store.  `Op.run_component` says, for any part of the view whose change each call
  describes, that a run ending without a state error performs the journal run of that part alone:
  the calls' writes to it, their snapshots and their reverts.  The refund counter is one instance
  (`Op.run_refund`); the access list is the other (`Evm/AccessList.lean`).
-/

namespace AnconEvm.Evm

open Buffered

/-! ## Transient keys a step keeps -/

/-- `s'` holds what `s` holds under every transient key that none of the prefixes `ps` starts. -/
def TransientKept (ps : List Bytes) (s s' : MultiStore) : Prop :=
  ∀ t : Bytes, (∀ p ∈ ps, ¬ p <+: t) → s'[MultiKey.transient t]? = s[MultiKey.transient t]?

namespace TransientKept

variable {ps ps' : List Bytes} {s₁ s₂ s₃ : MultiStore}

theorem refl (ps : List Bytes) (s : MultiStore) : TransientKept ps s s := fun _ _ => rfl

theorem trans (h₁₂ : TransientKept ps s₁ s₂) (h₂₃ : TransientKept ps s₂ s₃) :
    TransientKept ps s₁ s₃ :=
  fun t ht => (h₂₃ t ht).trans (h₁₂ t ht)

theorem mono (h : TransientKept ps s₁ s₂) (hps : ps ⊆ ps') : TransientKept ps' s₁ s₂ :=
  fun t ht => h t fun p hp => ht p (hps hp)

/-- **Keys under a prefix that none of `ps` overlaps are kept.**  Two prefixes of one key are
    prefixes of each other, so a written prefix that starts `pre ++ x` would overlap `pre`. -/
theorem getElem?_append (h : TransientKept ps s₁ s₂) {pre : Bytes}
    (hpre : ∀ p ∈ ps, ¬ p <+: pre ∧ ¬ pre <+: p) (x : Bytes) :
    s₂[MultiKey.transient (pre ++ x)]? = s₁[MultiKey.transient (pre ++ x)]? := by
  refine h _ fun p hp hpx => ?_
  rcases List.prefix_or_prefix_of_prefix hpx (List.prefix_append pre x) with hp' | hp'
  · exact (hpre p hp).1 hp'
  · exact (hpre p hp).2 hp'

end TransientKept

/-- A write outside the transient store. -/
theorem transientKept_set_of_ne {key : MultiKey} (ps : List Bytes) (v : MultiValue) (s : MultiStore)
    (h : ∀ t, key ≠ .transient t) : TransientKept ps s ((KV.Delta.set key v : MultiDelta) • s) :=
  fun t _ => by rw [getElem?_set_smul, if_neg (h t)]

theorem transientKept_delete_of_ne {key : MultiKey} (ps : List Bytes) (s : MultiStore)
    (h : ∀ t, key ≠ .transient t) : TransientKept ps s ((KV.Delta.delete key : MultiDelta) • s) :=
  fun t _ => by rw [KV.Delta.getElem?_smul, KV.Delta.writes_delete, if_neg (h t)]; rfl

/-- A write of a transient key under one of the prefixes. -/
theorem transientKept_set_transient {ps : List Bytes} {p t : Bytes} (hp : p ∈ ps) (hpt : p <+: t)
    (v : MultiValue) (s : MultiStore) :
    TransientKept ps s ((KV.Delta.set (.transient t) v : MultiDelta) • s) := by
  intro t' ht'
  rw [getElem?_set_smul, if_neg]
  rintro ⟨⟩
  exact ht' p hp hpt

/-- Store code that writes no transient key outside `ps`, on whatever store it runs. -/
def KeepsTransient {α : Type} (ps : List Bytes) (x : StoreM α) : Prop :=
  ∀ s a d, x s = .ok (a, d) → TransientKept ps s (d • s)

/-- Code that keeps the transient keys keeps every store's agreement with them. -/
theorem KeepsTransient.preserves {α : Type} {ps : List Bytes} {x : StoreM α}
    (h : KeepsTransient ps x) (T : MultiStore) : Preserves (TransientKept ps T) x :=
  fun s _ d hT hx => hT.trans (h s _ d hx)

theorem keepsTransient_of_preserves {α : Type} {ps : List Bytes} {x : StoreM α}
    (h : ∀ T, Preserves (TransientKept ps T) x) : KeepsTransient ps x :=
  fun s _ d hx => h s s _ d (TransientKept.refl ps s) hx

/-! ## x/auth and x/bank write no transient key -/

section Bank

variable (ModuleAddress : String → Address)

theorem transientKept_set_balance (addr : Address) (n : Nat) (s : MultiStore) :
    TransientKept [] s ((KV.Delta.set (.balance addr) (.amount n) : MultiDelta) • s) :=
  transientKept_set_of_ne [] _ s fun _ => by simp

theorem transientKept_set_supply (n : Nat) (s : MultiStore) :
    TransientKept [] s ((KV.Delta.set .supply (.amount n) : MultiDelta) • s) :=
  transientKept_set_of_ne [] _ s fun _ => by simp

theorem transientKept_set_account (addr : Address) (acc : Account) (s : MultiStore) :
    TransientKept [] s ((KV.Delta.set (.account addr) (.account acc) : MultiDelta) • s) :=
  transientKept_set_of_ne [] _ s fun _ => by simp

theorem SetAccount_keepsTransient (acc : Account) : KeepsTransient [] (Auth.SetAccount acc) := by
  intro s _ d h
  cases h
  exact transientKept_set_account _ _ s

theorem GetModuleAccount_transientKept {name : String} {s : MultiStore} {acc : Account}
    {d : MultiDelta} (h : Auth.GetModuleAccount ModuleAddress name s = .ok (acc, d)) :
    TransientKept [] s (d • s) := by
  rcases Auth.GetModuleAccount_eq_ok ModuleAddress h with ⟨-, hs⟩ | ⟨-, -, hs⟩
  · rw [hs]
    exact TransientKept.refl _ s
  · rw [hs]
    exact transientKept_set_account _ _ s

theorem SendCoins_keepsTransient (fromAddr toAddr : Address) (amt : Nat) :
    KeepsTransient [] (Bank.SendCoins fromAddr toAddr amt) := by
  intro s _ d h
  obtain ⟨-, -, hd⟩ := Bank.SendCoins_store h
  rw [hd]
  -- two balance writes, then the recipient's new account if it had none
  split
  · exact (transientKept_set_balance fromAddr _ s).trans (transientKept_set_balance toAddr _ _)
  · exact ((transientKept_set_balance fromAddr _ s).trans (transientKept_set_balance toAddr _ _)).trans
      (transientKept_set_account _ _ _)

theorem SendCoinsFromModuleToAccount_keepsTransient (senderModule : String) (recipientAddr : Address)
    (amt : Nat) :
    KeepsTransient [] (Bank.SendCoinsFromModuleToAccount ModuleAddress senderModule recipientAddr amt) := by
  intro s _ d h
  exact SendCoins_keepsTransient _ _ _ s () d (Bank.SendCoinsFromModuleToAccount_send ModuleAddress h).2

theorem SendCoinsFromAccountToModule_keepsTransient (senderAddr : Address) (recipientModule : String)
    (amt : Nat) :
    KeepsTransient [] (Bank.SendCoinsFromAccountToModule ModuleAddress senderAddr recipientModule amt) := by
  intro s _ d h
  unfold Bank.SendCoinsFromAccountToModule at h
  obtain ⟨acc, d₁, d₂, h₁, h₂, rfl⟩ := Buffered.bind_eq_ok h
  rw [mul_smul]
  exact (GetModuleAccount_transientKept ModuleAddress h₁).trans
    (SendCoins_keepsTransient _ _ _ _ () d₂ h₂)

theorem MintCoins_keepsTransient (moduleName : String) (amt : Nat) :
    KeepsTransient [] (Bank.MintCoins ModuleAddress moduleName amt) := by
  intro s _ d h
  obtain ⟨-, -, acc, d₁, h₁, hd⟩ := Bank.MintCoins_store ModuleAddress h
  rw [hd]
  exact ((GetModuleAccount_transientKept ModuleAddress h₁).trans (transientKept_set_balance _ _ _)).trans
    (transientKept_set_supply _ _)

theorem BurnCoins_keepsTransient (moduleName : String) (amt : Nat) :
    KeepsTransient [] (Bank.BurnCoins ModuleAddress moduleName amt) := by
  intro s _ d h
  obtain ⟨-, -, acc, d₁, h₁, -, hd⟩ := Bank.BurnCoins_store ModuleAddress h
  rw [hd]
  exact ((GetModuleAccount_transientKept ModuleAddress h₁).trans (transientKept_set_balance _ _ _)).trans
    (transientKept_set_supply _ _)

end Bank

/-! ## What each StateDB call writes in the transient store -/

namespace Keeper

variable {ps : List Bytes}

theorem transientKept_call {α : Type} {x : StoreM α} (hx : KeepsTransient ps x) (k : Keeper) :
    TransientKept ps k.view (k.call x).2.view := by
  unfold call
  split
  · exact TransientKept.refl _ _
  · rename_i a d hxd
    rw [view_write]
    exact hx _ a d hxd

theorem transientKept_of_call {α : Type} {x : StoreM α} {k k' : Keeper} {r : Except String α}
    (hx : KeepsTransient ps x) (h : k.call x = (r, k')) : TransientKept ps k.view k'.view := by
  have hkept := transientKept_call hx k
  rw [h] at hkept
  exact hkept

/-- A write of a key of the EVM store. -/
theorem transientKept_call_evm (key : Bytes) (bz : Bytes) (k : Keeper) :
    TransientKept [] k.view (k.call (StoreM.Set (.evm key) bz)).2.view ∧
      TransientKept [] k.view (k.call (StoreM.Delete (.evm key))).2.view := by
  refine ⟨transientKept_call (fun s _ d h => ?_) k, transientKept_call (fun s _ d h => ?_) k⟩
  · cases h
    exact transientKept_set_of_ne [] _ s fun _ => by simp
  · cases h
    exact transientKept_delete_of_ne [] s fun _ => by simp

/-- A write of a transient key under one of the prefixes. -/
theorem transientKept_call_transient {p t : Bytes} (hp : p ∈ ps) (hpt : p <+: t) (v : MultiValue)
    (k : Keeper) :
    TransientKept ps k.view (k.call (Buffered.write (KV.Delta.set (.transient t) v) : StoreM Unit)).2.view := by
  rw [view_call_write]
  exact transientKept_set_transient hp hpt v k.view

theorem transientKept_setCounter (key : Bytes) (value : UInt64) (k : Keeper) :
    TransientKept [key] k.view (setCounter key value k).view :=
  transientKept_call_transient List.mem_cons_self (List.prefix_refl key) _ k

theorem transientKept_ResetAccount (addr : Address) (k : Keeper) :
    TransientKept [] k.view (k.ResetAccount addr).view := by
  have hcode : TransientKept [] k.view (k.DeleteCode addr).view := by
    unfold DeleteCode
    dsimp only
    split
    · exact TransientKept.refl _ _
    · exact (transientKept_call_evm _ [] k).2
  have hslots : ∀ (slots : List (Hash × Hash)) (k₁ : Keeper),
      TransientKept [] k₁.view (slots.foldl (fun k kv => k.DeleteState addr kv.1) k₁).view := by
    intro slots
    induction slots with
    | nil => exact fun k₁ => TransientKept.refl _ _
    | cons kv slots ih => exact fun k₁ => (transientKept_call_evm _ [] k₁).2.trans (ih _)
  unfold ResetAccount DeleteAccountStorage
  refine hcode.trans ?_
  split
  · exact TransientKept.refl _ _
  · exact hslots _ _

theorem transientKept_CreateAccount (addr : Address) (k : Keeper) :
    TransientKept [] k.view (k.CreateAccount addr).view := by
  unfold CreateAccount
  split
  · exact TransientKept.refl _ _
  have hreset : TransientKept [] k.view
      (if (k.view.Account? addr).isSome then k.ResetAccount addr else k).view := by
    split
    · exact transientKept_ResetAccount addr k
    · exact TransientKept.refl _ _
  exact hreset.trans (transientKept_call (SetAccount_keepsTransient _) _)

theorem transientKept_AddBalance (addr : Address) (amount : Int) (k : Keeper) :
    TransientKept [] k.view (k.AddBalance addr amount).view := by
  unfold AddBalance
  split
  · exact TransientKept.refl _ _
  split
  · exact TransientKept.refl _ _
  have hmint := MintCoins_keepsTransient k.ModuleAddress ModuleName amount.toNat
  split
  · -- the state error is no part of the view
    rename_i h₁
    exact (transientKept_of_call hmint h₁ :)
  · rename_i k₁ h₁
    have hsend := SendCoinsFromModuleToAccount_keepsTransient k₁.ModuleAddress ModuleName addr
      amount.toNat
    split
    · rename_i h₂
      exact ((transientKept_of_call hmint h₁).trans (transientKept_of_call hsend h₂) :)
    · rename_i h₂
      exact (transientKept_of_call hmint h₁).trans (transientKept_of_call hsend h₂)

theorem transientKept_SubBalance (addr : Address) (amount : Int) (k : Keeper) :
    TransientKept [] k.view (k.SubBalance addr amount).view := by
  unfold SubBalance
  split
  · exact TransientKept.refl _ _
  split
  · exact TransientKept.refl _ _
  have hsend := SendCoinsFromAccountToModule_keepsTransient k.ModuleAddress addr ModuleName
    amount.toNat
  split
  · rename_i h₁
    exact transientKept_of_call hsend h₁
  · rename_i k₁ h₁
    have hburn := BurnCoins_keepsTransient k₁.ModuleAddress ModuleName amount.toNat
    split
    · rename_i h₂
      exact ((transientKept_of_call hsend h₁).trans (transientKept_of_call hburn h₂) :)
    · rename_i h₂
      exact (transientKept_of_call hsend h₁).trans (transientKept_of_call hburn h₂)

theorem transientKept_SetNonce (addr : Address) (nonce : UInt64) (k : Keeper) :
    TransientKept [] k.view (k.SetNonce addr nonce).view := by
  unfold SetNonce
  split
  · exact TransientKept.refl _ _
  · exact transientKept_call (SetAccount_keepsTransient _) k

theorem transientKept_SetCode (Keccak256 : Bytes → Hash) (addr : Address) (code : Bytes)
    (k : Keeper) : TransientKept [] k.view (k.SetCode Keccak256 addr code).view := by
  unfold SetCode
  split
  · exact TransientKept.refl _ _
  have hset : ∀ (acc : Account) (k₁ : Keeper),
      TransientKept [] k₁.view (k₁.call (Auth.SetAccount acc)).2.view :=
    fun acc k₁ => transientKept_call (SetAccount_keepsTransient acc) k₁
  -- the account is read, or created by a first call; then the code is stored under it
  cases hacc : k.view.Account? addr with
  | some acc =>
    simp only
    split
    · split
      · exact (hset _ k).trans (transientKept_call_evm _ code _).2
      · exact (hset _ k).trans (transientKept_call_evm _ code _).1
    · exact TransientKept.refl _ _
  | none =>
    simp only
    split
    · split
      · exact (hset _ k).trans ((hset _ _).trans (transientKept_call_evm _ code _).2)
      · exact (hset _ k).trans ((hset _ _).trans (transientKept_call_evm _ code _).1)
    · exact hset _ k

theorem transientKept_SetState (addr : Address) (key value : Hash) (k : Keeper) :
    TransientKept [] k.view (k.SetState addr key value).view := by
  unfold SetState
  split
  · exact TransientKept.refl _ _
  split
  · exact (transientKept_call_evm _ [] k).2
  · exact (transientKept_call_evm _ _ k).1

theorem transientKept_ClearBalance (addr : Address) (k : Keeper) :
    TransientKept [] k.view (k.ClearBalance addr).2.view := by
  unfold ClearBalance
  dsimp only
  have hsend := SendCoinsFromAccountToModule_keepsTransient k.ModuleAddress addr ModuleName
    (k.view.Amount (.balance addr))
  split
  · split
    · rename_i h₁
      exact transientKept_of_call hsend h₁
    · rename_i k₁ h₁
      have hburn := BurnCoins_keepsTransient k₁.ModuleAddress ModuleName (k.view.Amount (.balance addr))
      split
      · rename_i h₂
        exact (transientKept_of_call hsend h₁).trans (transientKept_of_call hburn h₂)
      · rename_i h₂
        exact (transientKept_of_call hsend h₁).trans (transientKept_of_call hburn h₂)
  · exact TransientKept.refl _ _

/-- Suicide clears the balance through the bank and marks the address. -/
theorem transientKept_Suicide (addr : Address) (k : Keeper) :
    TransientKept [KeyPrefixTransientSuicided] k.view (k.Suicide addr).2.view := by
  unfold Suicide
  split
  · exact TransientKept.refl _ _
  split
  · exact TransientKept.refl _ _
  have hclear : TransientKept [KeyPrefixTransientSuicided] k.view (k.ClearBalance addr).2.view :=
    (transientKept_ClearBalance addr k).mono (List.nil_subset _)
  split
  · rename_i h
    rw [h] at hclear
    exact hclear
  · rename_i h
    rw [h] at hclear
    exact hclear.trans (transientKept_call_transient List.mem_cons_self (List.prefix_append _ _) _ _)

theorem transientKept_AddAddressToAccessList (addr : Address) (k : Keeper) :
    TransientKept [KeyPrefixTransientAccessListAddress] k.view (k.AddAddressToAccessList addr).view := by
  unfold AddAddressToAccessList
  split
  · exact TransientKept.refl _ _
  split
  · exact TransientKept.refl _ _
  · exact transientKept_call_transient List.mem_cons_self (List.prefix_append _ _) _ k

theorem transientKept_AddSlotToAccessList (addr : Address) (slot : Hash) (k : Keeper) :
    TransientKept [KeyPrefixTransientAccessListAddress, KeyPrefixTransientAccessListSlot] k.view
      (k.AddSlotToAccessList addr slot).view := by
  unfold AddSlotToAccessList
  split
  · exact TransientKept.refl _ _
  have haddr : TransientKept [KeyPrefixTransientAccessListAddress, KeyPrefixTransientAccessListSlot]
      k.view (k.AddAddressToAccessList addr).view :=
    (transientKept_AddAddressToAccessList addr k).mono (List.cons_subset_cons _ (List.nil_subset _))
  dsimp only
  split
  · exact haddr
  · exact haddr.trans (transientKept_call_transient (List.mem_cons_of_mem _ List.mem_cons_self)
      (List.prefix_append _ _) _ _)

theorem transientKept_AddRefund {gas : UInt64} {k k' : Keeper} (h : k.AddRefund gas = .ok k') :
    TransientKept [KeyPrefixTransientRefund] k.view k'.view := by
  unfold AddRefund at h
  split at h
  · cases h
    exact TransientKept.refl _ _
  · obtain ⟨refund, -, hset⟩ := Except.bind_eq_ok h
    cases hset
    exact transientKept_setCounter _ _ k

theorem transientKept_SubRefund {gas : UInt64} {k k' : Keeper} (h : k.SubRefund gas = .ok k') :
    TransientKept [KeyPrefixTransientRefund] k.view k'.view := by
  unfold SubRefund at h
  split at h
  · cases h
    exact TransientKept.refl _ _
  · obtain ⟨refund, -, hset⟩ := Except.bind_eq_ok h
    split at hset
    · cases hset
    · cases hset
      exact transientKept_setCounter _ _ k

/-- AddLog counts the log and stores it under the logs' prefix. -/
theorem transientKept_AddLog {log : Log} {k k' : Keeper} (h : k.AddLog log = .ok k') :
    TransientKept [KeyPrefixTransientLogSize, KeyPrefixTransientTxLogs] k.view k'.view := by
  unfold AddLog at h
  split at h
  · cases h
    exact TransientKept.refl _ _
  · obtain ⟨txIndex, -, h₁⟩ := Except.bind_eq_ok h
    obtain ⟨logSize, -, h₂⟩ := Except.bind_eq_ok h₁
    obtain ⟨k₁, hk₁, h₃⟩ := Except.bind_eq_ok h₂
    cases h₃
    have hsize : TransientKept [KeyPrefixTransientLogSize, KeyPrefixTransientTxLogs] k.view k₁.view := by
      unfold IncreaseLogSizeTransient at hk₁
      obtain ⟨size, -, hset⟩ := Except.bind_eq_ok hk₁
      cases hset
      exact (transientKept_setCounter _ _ k).mono (List.cons_subset_cons _ (List.nil_subset _))
    exact hsize.trans (transientKept_call_transient (List.mem_cons_of_mem _ List.mem_cons_self)
      (List.prefix_append _ _) _ _)

end Keeper

open Keeper

/-- The prefixes of the transient keys a StateDB call writes. -/
def Op.transientWrites : Op → List Bytes
  | .AddRefund _ => [KeyPrefixTransientRefund]
  | .SubRefund _ => [KeyPrefixTransientRefund]
  | .Suicide _ => [KeyPrefixTransientSuicided]
  | .AddAddressToAccessList _ => [KeyPrefixTransientAccessListAddress]
  | .AddSlotToAccessList _ _ => [KeyPrefixTransientAccessListAddress, KeyPrefixTransientAccessListSlot]
  | .AddLog _ => [KeyPrefixTransientLogSize, KeyPrefixTransientTxLogs]
  | _ => []

/-- **The transient footprint of a call**: a call other than Snapshot and RevertToSnapshot keeps
    every transient key outside the prefixes it names. -/
theorem Op.transientKept_exec {Keccak256 : Bytes → Hash} {op : Op} {k k' : Keeper}
    (h : op.exec Keccak256 k = .ok k') (hw : op.shape = .write id) :
    TransientKept op.transientWrites k.view k'.view := by
  cases op with
  | CreateAccount addr => cases h; exact transientKept_CreateAccount addr k
  | AddBalance addr amount => cases h; exact transientKept_AddBalance addr amount k
  | SubBalance addr amount => cases h; exact transientKept_SubBalance addr amount k
  | SetNonce addr nonce => cases h; exact transientKept_SetNonce addr nonce k
  | SetCode addr code => cases h; exact transientKept_SetCode Keccak256 addr code k
  | AddRefund gas => exact transientKept_AddRefund h
  | SubRefund gas => exact transientKept_SubRefund h
  | SetState addr key value => cases h; exact transientKept_SetState addr key value k
  | Suicide addr => cases h; exact transientKept_Suicide addr k
  | AddAddressToAccessList addr => cases h; exact transientKept_AddAddressToAccessList addr k
  | AddSlotToAccessList addr slot => cases h; exact transientKept_AddSlotToAccessList addr slot k
  | AddLog log => exact transientKept_AddLog h
  | Snapshot => cases hw
  | RevertToSnapshot target => cases hw

/-- A keeper with no open snapshot: a property of its view is one of its journal. -/
theorem Keeper.inv_of_saved_nil {P : MultiStore → Prop} {k : Keeper} (hsaved : k.journal.saved = [])
    (h : P k.view) : k.Inv P :=
  ⟨h, by simp [hsaved]⟩

/-- A property of views that reads no transient key under the prefixes `ps`. -/
def ReadsOutside (ps : List Bytes) (P : MultiStore → Prop) : Prop :=
  ∀ s s', TransientKept ps s s' → P s → P s'

/-- A write of the top view that keeps the transient keys a property reads keeps the property of
    the journal. -/
theorem Keeper.Inv.of_transientKept {ps : List Bytes} {P : MultiStore → Prop} (hP : ReadsOutside ps P)
    {k k' : Keeper} (hk : k.Inv P) (hw : JournalWrite k k') (hkept : TransientKept ps k.view k'.view) :
    k'.Inv P :=
  hk.of_journalWrite hw fun h => hP _ _ hkept h

/-- **What every run keeps**: a property of views that reads no transient key under the prefixes
    the calls write holds of every view a snapshot saved after the run, when it did before;
    reverts and state errors included. -/
theorem Op.run_inv_of_readsOutside {Keccak256 : Bytes → Hash} {ps : List Bytes} {P : MultiStore → Prop}
    (hP : ReadsOutside ps P) {ops : List Op} {k k' : Keeper} (hops : ∀ op ∈ ops, op.transientWrites ⊆ ps)
    (hk : k.Inv P) (h : Op.run Keccak256 ops k = .ok k') : k'.Inv P := by
  induction ops generalizing k with
  | nil =>
    cases h
    exact hk
  | cons op ops ih =>
    obtain ⟨k₁, hop, hrest⟩ := Except.bind_eq_ok h
    refine ih (fun op' hop' => hops op' (List.mem_cons_of_mem op hop')) ?_ hrest
    rcases Op.exec_cases hop with ⟨hshape, hw⟩ | ⟨rfl, rfl⟩ | ⟨target, rfl, hrev⟩
    · exact hk.of_transientKept hP hw.journalWrite
        ((Op.transientKept_exec hop hshape).mono (hops op List.mem_cons_self))
    · exact hk.Snapshot
    · exact hk.RevertToSnapshot hrev

/-- **A run keeps the transient keys its calls do not write**, in the view and in every view a
    snapshot saved, whatever state errors arise on the way. -/
theorem Op.run_transientKept {Keccak256 : Bytes → Hash} {ps : List Bytes} {ops : List Op}
    {k k' : Keeper} (hops : ∀ op ∈ ops, op.transientWrites ⊆ ps) {s₀ : MultiStore}
    (hk : k.Inv (TransientKept ps s₀)) (h : Op.run Keccak256 ops k = .ok k') :
    k'.Inv (TransientKept ps s₀) :=
  -- keeping the keys outside `ps` since `s₀` reads no key under `ps`
  Op.run_inv_of_readsOutside (fun _ _ hkept h₀ => h₀.trans hkept) hops hk h

/-- A refund and an address added, the address under a snapshot that is reverted: every other
    transient key keeps its value of the start. -/
theorem Op.run_transientKept_revert :
    let k := runKeeper (runStore 0) none TracerJSON
    let ops : List Op := [.AddRefund 10, .Snapshot, .AddAddressToAccessList 0x2000, .RevertToSnapshot 0]
    ∃ k', Op.run runEnv.Keccak256 ops k = .ok k' ∧
      k'.Inv (TransientKept [KeyPrefixTransientRefund, KeyPrefixTransientAccessListAddress] k.view) := by
  intro k ops
  obtain ⟨k', hrun, -⟩ := Except.map_eq_ok
    (show (Op.run runEnv.Keccak256 ops k).map Keeper.stateErr = .ok none by decide +kernel)
  exact ⟨k', hrun, Op.run_transientKept (by decide) (Keeper.inv_of_saved_nil rfl (TransientKept.refl _ _)) hrun⟩

/-- Hook code writes no transient key: the transient store of the EVM module is reached through
    its store key, which the module keeps to itself. -/
def EvmHooks.WritesNoTransient (hooks : EvmHooks) : Prop :=
  ∀ txHash logs, KeepsTransient [] (hooks.PostTxProcessing txHash logs)

/-! ## Applying a message -/

/-- The refund of the unused gas moves coins through the bank only. -/
theorem transientKept_RefundGas {msg : Message} {leftoverGas refundQuotient : UInt64} {k k' : Keeper}
    {r : Except String UInt64} (h : RefundGas msg leftoverGas refundQuotient k = .ok (r, k')) :
    TransientKept [] k.view k'.view := by
  unfold RefundGas at h
  split at h
  · cases h
    exact TransientKept.refl _ _
  obtain ⟨refund, -, h⟩ := Except.bind_eq_ok h
  dsimp only at h
  split at h
  · cases h
    exact TransientKept.refl _ _
  split at h
  · cases h
    exact TransientKept.refl _ _
  split at h
  · cases h
    exact TransientKept.refl _ _
  have hsend := SendCoinsFromModuleToAccount_keepsTransient k.ModuleAddress FeeCollectorName msg.From
    ((leftoverGas + refund).toNat * msg.GasPrice : Int).toNat
  split at h
  · rename_i hcall
    cases h
    exact transientKept_of_call hsend hcall
  · rename_i hcall
    cases h
    exact transientKept_of_call hsend hcall

theorem writes_preparedKeeper (env : Env) (msg : Message) (k : Keeper) :
    Writes k (preparedKeeper env msg k) := by
  unfold preparedKeeper
  split
  · exact writes_PrepareAccessList _ _ _ _ k
  · exact Writes.refl k

/-- **The shape of ApplyMessage**: it returns an error at once, or it runs the EVM's calls on the
    prepared keeper, refunds the unused gas through the bank (a transaction) or counts it only (a
    query), and clears the state error. -/
theorem ApplyMessage_cases {env : Env} {coinbase : Address} {msg : Message} {query : Bool}
    {k k' : Keeper} {r : Except String MsgEthereumTxResponse}
    (h : ApplyMessage env coinbase msg query k = .ok (r, k')) :
    (∃ e, r = .error e ∧ k' = k.ClearStateError) ∨
      ∃ ops k₁ k₂, Op.run env.Keccak256 ops (preparedKeeper env msg k) = .ok k₁ ∧ Writes k₁ k₂ ∧
        TransientKept [] k₁.view k₂.view ∧ k' = k₂.ClearStateError := by
  unfold ApplyMessage at h
  split at h
  · cases h
    exact .inl ⟨_, rfl, rfl⟩
  split at h
  · cases h
    exact .inl ⟨_, rfl, rfl⟩
  obtain ⟨k₁, hrun, h⟩ := Except.bind_eq_ok h
  dsimp only at h
  split at h
  · -- a query counts the refund and pays nothing
    obtain ⟨refund, -, h⟩ := Except.bind_eq_ok h
    rw [pure_bind] at h
    have hk' : k' = k₁.ClearStateError := by split at h <;> (cases h; rfl)
    exact .inr ⟨_, k₁, k₁, hrun, Writes.refl k₁, TransientKept.refl _ _, hk'⟩
  · obtain ⟨⟨leftoverGas, k₂⟩, hk₂, h⟩ := Except.bind_eq_ok h
    have hk' : k' = k₂.ClearStateError := by split at h <;> (cases h; rfl)
    exact .inr ⟨_, k₁, k₂, hrun, writes_RefundGas hk₂, transientKept_RefundGas hk₂, hk'⟩

/-- Applying a message leaves the hooks. -/
theorem ApplyMessage_hooks {env : Env} {coinbase : Address} {msg : Message} {query : Bool}
    {k k' : Keeper} {r : Except String MsgEthereumTxResponse}
    (h : ApplyMessage env coinbase msg query k = .ok (r, k')) : k'.hooks = k.hooks :=
  (ApplyMessage_inv (P := fun _ => True) (fun _ _ _ _ _ _ => trivial) ⟨trivial, fun _ _ => trivial⟩ h).2

/-! ## Applying a transaction

  Around the message ApplyTransaction writes the tx hash, the tx index and the block bloom, and the
  hooks write no transient key.  A property of the views that reads none of those three and that
  every message keeps is kept by every transaction (`ApplyTransaction_inv_of`). -/

theorem transientKept_SetTxHashTransient (hash : Hash) (k : Keeper) :
    TransientKept [KeyPrefixTransientTxHash] k.view (k.SetTxHashTransient hash).view :=
  transientKept_call_transient List.mem_cons_self (List.prefix_refl _) _ k

theorem transientKept_IncreaseTxIndexTransient {k k' : Keeper} (h : k.IncreaseTxIndexTransient = .ok k') :
    TransientKept [KeyPrefixTransientTxIndex] k.view k'.view := by
  unfold IncreaseTxIndexTransient at h
  obtain ⟨txIndex, -, hset⟩ := Except.bind_eq_ok h
  cases hset
  exact transientKept_setCounter _ _ k

theorem transientKept_recordLogs (env : Env) (logs : List Log) (res : MsgEthereumTxResponse) (k : Keeper) :
    TransientKept [KeyPrefixTransientBloom] k.view (k.recordLogs env logs res).2.view := by
  unfold recordLogs
  split
  · exact transientKept_call_transient List.mem_cons_self (List.prefix_append _ _) _ k
  · exact TransientKept.refl _ _

/-- Hook code that writes no transient key keeps every property of the transient store. -/
theorem EvmHooks.WritesNoTransient.keeps {hooks : EvmHooks} (h : hooks.WritesNoTransient)
    {P : MultiStore → Prop} (hP : ReadsOutside [] P) : hooks.Keeps P :=
  fun txHash logs s _ d hs hx => hP _ _ (h txHash logs s _ d hx) hs

section Transaction

variable {P : MultiStore → Prop}
  (hread : ReadsOutside [KeyPrefixTransientTxHash, KeyPrefixTransientTxIndex, KeyPrefixTransientBloom] P)
include hread

theorem ReadsOutside.of_subset {ps : List Bytes}
    (hps : ps ⊆ [KeyPrefixTransientTxHash, KeyPrefixTransientTxIndex, KeyPrefixTransientBloom]) :
    ReadsOutside ps P :=
  fun s s' hkept => hread s s' (hkept.mono hps)

/-- **What ApplyTransaction does after the message keeps the property**: the tx index, the hooks
    and their revert, the bloom, the commit. -/
theorem Keeper.Inv.afterMessage {env : Env} {revision : Nat} {txHash : Hash} {logs : List Log}
    {res res' : MsgEthereumTxResponse} {k₃ k₄ k₅ : Keeper} (hk₃ : k₃.Inv P)
    (hhooks : ∀ hooks ∈ k₃.hooks, hooks.WritesNoTransient) (hinc : k₃.IncreaseTxIndexTransient = .ok k₄)
    (hpost : k₄.postProcess revision txHash logs res = .ok (res', k₅)) :
    ((k₅.recordLogs env logs res').2.CommitCachedContexts.ClearStateError).Inv P := by
  have hw₄ := writes_IncreaseTxIndexTransient hinc
  have hk₄ := hk₃.of_transientKept (ReadsOutside.of_subset hread (by simp)) hw₄.journalWrite
    (transientKept_IncreaseTxIndexTransient hinc)
  have hhooks₄ : ∀ hooks ∈ k₄.hooks, hooks.Keeps P := by
    rw [hw₄.hooks]
    exact fun hooks hh => (hhooks hooks hh).keeps (ReadsOutside.of_subset hread (List.nil_subset _))
  have hk₅ := hk₄.postProcess hhooks₄ hpost
  have hk₆ : (k₅.recordLogs env logs res').2.Inv P :=
    hk₅.of_transientKept (ReadsOutside.of_subset hread (by simp))
      (writes_recordLogs env logs res' k₅).journalWrite (transientKept_recordLogs env logs res' k₅)
  -- the state error is no part of the journal
  exact hk₆.CommitCachedContexts

/-- **A transaction keeps what its message keeps**, of a property that reads neither the tx hash,
    the tx index nor the block bloom, for hooks that write no transient key. -/
theorem ApplyTransaction_inv_of {env : Env} {tx : Transaction} {k k' : Keeper}
    {r : Except String MsgEthereumTxResponse}
    (hmsg : ∀ {coinbase : Address} {msg : Message} {k₁ k₂ : Keeper} {r₁ : Except String MsgEthereumTxResponse},
      k₁.Inv P → ApplyMessage env coinbase msg false k₁ = .ok (r₁, k₂) → k₂.Inv P)
    (hhooks : ∀ hooks ∈ k.hooks, hooks.WritesNoTransient) (hk : k.Inv P)
    (h : ApplyTransaction env tx k = .ok (r, k')) : k'.Inv P := by
  unfold ApplyTransaction at h
  dsimp only at h
  -- the refusals before the message clear the state error only
  split at h
  · cases h
    exact hk
  split at h
  · cases h
    exact hk
  split at h
  · cases h
    exact hk
  · cases h
    exact hk
  obtain ⟨_, -, h⟩ := Except.bind_eq_ok h
  have hw₁ := writes_SetTxHashTransient (env.TxHash tx) k
  have hk₁ := hk.of_transientKept (ReadsOutside.of_subset hread (by simp)) hw₁.journalWrite
    (transientKept_SetTxHashTransient _ k)
  split at h
  · obtain ⟨_, hthrow, -⟩ := Except.bind_eq_ok h
    cases hthrow
  obtain ⟨hk₂, hhooks₂⟩ := hk₁.snapshot_if (k.SetTxHashTransient (env.TxHash tx)).hooks.isSome
  obtain ⟨⟨r₃, k₃⟩, happly, h⟩ := Except.bind_eq_ok h
  have hk₃ := hmsg hk₂ happly
  cases r₃ with
  | error err =>
    cases h
    exact hk₃
  | ok res₃ =>
    obtain ⟨k₄, hinc, h⟩ := Except.bind_eq_ok h
    obtain ⟨⟨res, k₅⟩, hpost, h⟩ := Except.bind_eq_ok h
    cases h
    have hhooks₃ : ∀ hooks ∈ k₃.hooks, hooks.WritesNoTransient := by
      rw [ApplyMessage_hooks happly, hhooks₂, hw₁.hooks]
      exact hhooks
    exact hk₃.afterMessage hread hhooks₃ hinc hpost

end Transaction

/-! ## Parts of the view that follow the journal

  A part of the view (`g`) whose change each call other than Snapshot and RevertToSnapshot
  determines (`Op.StepsComponent`) is journaled on its own: a run that ends without a state error
  performs, on the parts of the views of the context stack, the journal run whose writes are the
  calls' own changes (`Op.onComponent`). -/

/-- The journal operation a StateDB call performs on a part of the view, given the change
    `step op` each call other than Snapshot and RevertToSnapshot makes to it. -/
def Op.onComponent {σ : Type} (step : Op → σ → σ) : Op → Journal.Op σ
  | .Snapshot => .snapshot
  | .RevertToSnapshot target => .revert target.toNat
  | op => .write (step op)

theorem Op.onComponent_of_shape {σ : Type} {step : Op → σ → σ} {op : Op} (h : op.shape = .write id) :
    op.onComponent step = .write (step op) := by
  cases op <;> first | rfl | cases h

/-- Every call other than Snapshot and RevertToSnapshot that starts and ends without a state
    error changes the part `g` of the view by `step`. -/
def Op.StepsComponent {σ : Type} (Keccak256 : Bytes → Hash) (g : MultiStore → σ)
    (step : Op → σ → σ) : Prop :=
  ∀ op k k', op.shape = .write id → op.exec Keccak256 k = .ok k' → k.stateErr = none →
    k'.stateErr = none → g k'.view = step op (g k.view)

section Component

variable {Keccak256 : Bytes → Hash} {σ : Type} {g : MultiStore → σ} {step : Op → σ → σ}

/-- One call is one journal operation on the part of the view. -/
theorem Op.exec_component (hstep : Op.StepsComponent Keccak256 g step) {op : Op} {k k' : Keeper}
    (h : op.exec Keccak256 k = .ok k') (hk : k.stateErr = none) (hk' : k'.stateErr = none) :
    Journal.exec (op.onComponent step) (k.journal.map g) = some (k'.journal.map g) := by
  rcases Op.exec_cases h with ⟨hshape, hw⟩ | ⟨rfl, rfl⟩ | ⟨target, rfl, hrev⟩
  · obtain ⟨f, hf⟩ := hw.journalWrite
    have hview : f k.view = k'.view := by rw [← journal_current k', hf]; rfl
    have hg : g (f k.journal.current) = step op (g k.journal.current) := by
      rw [journal_current, hview]
      exact hstep op k k' hshape h hk hk'
    rw [Op.onComponent_of_shape hshape, hf, Journal.map_write g hg]
    rfl
  · rw [journal_Snapshot hk, Journal.map_snapshot]
    rfl
  · obtain ⟨-, hrev'⟩ := journal_RevertToSnapshot hk hrev
    show (k.journal.map g).revert target.toNat = _
    rw [← Journal.map_revert, hrev']
    rfl

/-- **A journaled part of the view**: a run of StateDB calls that ends without a state error
    performs, on the part `g` of the views of the context stack, the journal run of the calls' own
    operations. -/
theorem Op.run_component (hstep : Op.StepsComponent Keccak256 g step) {ops : List Op}
    {k k' : Keeper} (h : Op.run Keccak256 ops k = .ok k') (h' : k'.stateErr = none) :
    Journal.run (ops.map (Op.onComponent step)) (k.journal.map g) = some (k'.journal.map g) := by
  induction ops generalizing k with
  | nil =>
    cases h
    rfl
  | cons op ops ih =>
    obtain ⟨k₁, hop, hrest⟩ := Except.bind_eq_ok h
    -- no state error along the way: it would have stayed to the end
    have hk₁ : k₁.stateErr = none := Op.stateErr_of_run hrest h'
    have hk : k.stateErr = none := Op.stateErr_of_exec hop hk₁
    simp only [List.map_cons, Journal.run, Op.exec_component hstep hop hk hk₁, Option.bind_some]
    exact ih hrest

end Component

/-! ## The refund counter -/

/-- The refund counter of a view, as GetRefund reads it: zero when unset, an error when the stored
    bytes are no uint64. -/
def refundCounterOf (s : MultiStore) : Except String UInt64 :=
  let bz := s.Get (.transient KeyPrefixTransientRefund)
  if bz.length = 0 then .ok 0 else BigEndianToUint64 bz

/-- go-ethereum's refund counter under each call: AddRefund adds, SubRefund subtracts (it panics
    below zero), every other call leaves it. -/
def Op.onRefund : Op → Except String UInt64 → Except String UInt64
  | .AddRefund gas => fun r => r.map (· + gas)
  | .SubRefund gas => fun r => r.map (· - gas)
  | _ => id

theorem GetRefund_eq_refundCounterOf {k : Keeper} (hk : k.stateErr = none) : k.GetRefund = refundCounterOf k.view := by
  have hnot : k.HasStateError = false := by simp [HasStateError, hk]
  rw [GetRefund, if_neg (by simp [hnot])]
  rfl

/-- A write of the counter reads back. -/
theorem refundCounterOf_setCounter (value : UInt64) (k : Keeper) :
    refundCounterOf (setCounter KeyPrefixTransientRefund value k).view = .ok value := by
  have hlen : (Uint64ToBigEndian value).length ≠ 0 := by
    rw [Uint64ToBigEndian, BigEndian.length_encodeFixed]
    decide
  simp only [refundCounterOf, view_setCounter, MultiStore.Get_smul_set_bytes, if_true, if_neg hlen]
  exact BigEndianToUint64_Uint64ToBigEndian value

/-- The counter is read from its own key only. -/
theorem refundCounterOf_of_kept {ps : List Bytes} {s s' : MultiStore} (h : TransientKept ps s s')
    (hps : ∀ p ∈ ps, ¬ p <+: KeyPrefixTransientRefund ∧ ¬ KeyPrefixTransientRefund <+: p) :
    refundCounterOf s' = refundCounterOf s := by
  have hkey := h.getElem?_append hps []
  rw [List.append_nil] at hkey
  have hget : s'.Get (.transient KeyPrefixTransientRefund) = s.Get (.transient KeyPrefixTransientRefund) := by
    unfold MultiStore.Get
    rw [hkey]
  unfold refundCounterOf
  rw [hget]

theorem stepsComponent_refund (Keccak256 : Bytes → Hash) :
    Op.StepsComponent Keccak256 refundCounterOf Op.onRefund := by
  intro op k k' hshape h hk _
  have hnot : k.HasStateError = false := by simp [HasStateError, hk]
  cases op
  case AddRefund gas =>
    simp only [Op.exec, AddRefund, hnot, GetRefund_eq_refundCounterOf hk] at h
    obtain ⟨refund, hread, hset⟩ := Except.bind_eq_ok h
    cases hset
    rw [refundCounterOf_setCounter, hread]
    rfl
  case SubRefund gas =>
    simp only [Op.exec, SubRefund, hnot, GetRefund_eq_refundCounterOf hk] at h
    obtain ⟨refund, hread, hset⟩ := Except.bind_eq_ok h
    split at hset
    · cases hset
    · cases hset
      rw [refundCounterOf_setCounter, hread]
      rfl
  -- every other call writes no key of the counter
  all_goals exact refundCounterOf_of_kept (Op.transientKept_exec h hshape) (by dsimp only [Op.transientWrites]; decide)

/-- **The refund counter is journaled**: over every run of StateDB calls that ends without a state
    error, the refund counter of every view of the context stack moves as go-ethereum's journaled
    refund counter does under the run: AddRefund adds, SubRefund subtracts, a snapshot saves it and
    a revert restores it. -/
theorem Op.run_refund {Keccak256 : Bytes → Hash} {ops : List Op} {k k' : Keeper}
    (h : Op.run Keccak256 ops k = .ok k') (h' : k'.stateErr = none) :
    Journal.run (ops.map (Op.onComponent Op.onRefund)) (k.journal.map refundCounterOf) =
      some (k'.journal.map refundCounterOf) :=
  Op.run_component (stepsComponent_refund Keccak256) h h'

/-- A refund of 10, then under a snapshot a deduction of 4 that is reverted, then a refund of 1. -/
theorem Op.run_refund_revert :
    let k := runKeeper (runStore 0) none TracerJSON
    let ops : List Op := [.AddRefund 10, .Snapshot, .SubRefund 4, .RevertToSnapshot 0, .AddRefund 1]
    ∃ k', Op.run runEnv.Keccak256 ops k = .ok k' ∧
      Journal.run (ops.map (Op.onComponent Op.onRefund)) (k.journal.map refundCounterOf) =
        some (k'.journal.map refundCounterOf) := by
  intro k ops
  obtain ⟨k', hrun, herr⟩ := Except.map_eq_ok
    (show (Op.run runEnv.Keccak256 ops k).map Keeper.stateErr = .ok none by decide +kernel)
  exact ⟨k', hrun, Op.run_refund hrun herr⟩

/-- In that run the journal of the counter ends at 11: the revert undid the deduction. -/
example :
    let k := runKeeper (runStore 0) none TracerJSON
    let ops : List Op := [.AddRefund 10, .Snapshot, .SubRefund 4, .RevertToSnapshot 0, .AddRefund 1]
    (Journal.run (ops.map (Op.onComponent Op.onRefund)) (k.journal.map refundCounterOf)).map
      (·.current) = some (.ok 11) := by
  decide +kernel

end AnconEvm.Evm
