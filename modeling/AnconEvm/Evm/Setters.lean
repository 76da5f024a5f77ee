import AnconEvm.Evm.World
/-
  What the StateDB calls do to the codes, the code hashes and the storage slots.

  Most calls leave the EVM store and every account's code hash as they were (`CodeKept`): a
  balance moves through x/bank, which only creates accounts that have no code; the nonce write
  keeps the account's code hash; the refund, the access list, the suicide mark and the logs live
  in the transient store.  Three calls write the EVM store: `SetState` a slot under its slot key,
  `SetCode` a code under its hash together with the account's code hash, and `CreateAccount`,
  which first resets an existing account's code and storage.

  Two facts hold in every state that runs of calls reach from a state where they hold
  (`Op.run_evmInv`): every account's code hash is the hash of its code (`World.CodeHashed`), and
  every key under the storage prefix is a slot key (`SlotsShaped`).  The calls must be those
  go-ethereum makes: it creates an account only where there is no code (`Op.Allowed`).  The reset
  of `CreateAccount` deletes the code under the account's code hash, and other accounts with the
  same code share it; go-ethereum's `Create` refuses an address that has code, and its `Call`
  creates missing accounts only.
-/

namespace AnconEvm.Evm

open Buffered

/-! ## Steps that keep the codes and the code hashes -/

/-- A key of the EVM store that holds a storage slot: an address, then a 32-byte key. -/
def IsSlotKey (key : Bytes) : Prop := ∃ addr slot, key = AddressStoragePrefix addr ++ Hash.Bytes slot

/-- `s'` has the codes of `s` and every address the code hash it had, and a key of the EVM store
    that `s'` holds and `s` did not (with that value) is a slot key. -/
structure CodeKept (s s' : MultiStore) : Prop where
  code : ∀ hash : Hash,
    s'.Get (.evm (KeyPrefixCode ++ hash.Bytes)) = s.Get (.evm (KeyPrefixCode ++ hash.Bytes))
  codeHash : ∀ addr : Address, codeHashOf (s'.Account? addr) = codeHashOf (s.Account? addr)
  slots : ∀ (key : Bytes) (v : MultiValue),
    s'[MultiKey.evm key]? = some v → s[MultiKey.evm key]? = some v ∨ IsSlotKey key

namespace CodeKept

theorem refl (s : MultiStore) : CodeKept s s := ⟨fun _ => rfl, fun _ => rfl, fun _ _ h => .inl h⟩

theorem trans {s₁ s₂ s₃ : MultiStore} (h₁₂ : CodeKept s₁ s₂) (h₂₃ : CodeKept s₂ s₃) :
    CodeKept s₁ s₃ := by
  refine ⟨fun hash => (h₂₃.code hash).trans (h₁₂.code hash),
    fun addr => (h₂₃.codeHash addr).trans (h₁₂.codeHash addr), fun key v h => ?_⟩
  rcases h₂₃.slots key v h with h₂ | hslot
  · exact h₁₂.slots key v h₂
  · exact .inr hslot

end CodeKept

/-- A write outside the EVM store and the accounts: a balance, the supply, a transient key. -/
theorem codeKept_set_of_ne {key : MultiKey} (v : MultiValue) (s : MultiStore)
    (hevm : ∀ bz, key ≠ .evm bz) (hacc : ∀ addr, key ≠ .account addr) :
    CodeKept s ((KV.Delta.set key v : MultiDelta) • s) := by
  refine ⟨fun hash => MultiStore.Get_smul_set_of_ne v s (hevm _),
    fun addr => by rw [MultiStore.Account?_smul_set_of_ne v s (hacc addr)], fun bz v' h => .inl ?_⟩
  rw [KV.Delta.getElem?_smul, KV.Delta.writes_set, if_neg (hevm bz)] at h
  exact h

theorem codeKept_set_balance (addr : Address) (n : Nat) (s : MultiStore) :
    CodeKept s ((KV.Delta.set (.balance addr) (.amount n) : MultiDelta) • s) :=
  codeKept_set_of_ne _ s (fun _ => by simp) (fun _ => by simp)

theorem codeKept_set_supply (n : Nat) (s : MultiStore) :
    CodeKept s ((KV.Delta.set .supply (.amount n) : MultiDelta) • s) :=
  codeKept_set_of_ne _ s (fun _ => by simp) (fun _ => by simp)

theorem codeKept_set_transient (key : Bytes) (v : MultiValue) (s : MultiStore) :
    CodeKept s ((KV.Delta.set (.transient key) v : MultiDelta) • s) :=
  codeKept_set_of_ne _ s (fun _ => by simp) (fun _ => by simp)

/-- An account write that keeps the address's code hash. -/
theorem codeKept_set_account {addr : Address} {acc : Account} (s : MultiStore)
    (h : codeHashOf (some acc) = codeHashOf (s.Account? addr)) :
    CodeKept s ((KV.Delta.set (.account addr) (.account acc) : MultiDelta) • s) := by
  refine ⟨fun hash => MultiStore.Get_smul_set_of_ne _ s (by simp), fun addr' => ?_, fun bz v h' => .inl ?_⟩
  · rw [MultiStore.Account?_smul_set_account]
    split
    · rename_i heq
      subst heq
      exact h
    · rfl
  · rw [KV.Delta.getElem?_smul, KV.Delta.writes_set, if_neg (by simp)] at h'
    exact h'

/-- A slot write: a slot key gets a value. -/
theorem codeKept_set_slot (addr : Address) (key : Hash) (v : MultiValue) (s : MultiStore) :
    CodeKept s ((KV.Delta.set (.evm (AddressStoragePrefix addr ++ key.Bytes)) v : MultiDelta) • s) := by
  refine ⟨fun hash => MultiStore.Get_smul_set_of_ne v s ?_,
    fun a => by rw [MultiStore.Account?_smul_set_of_ne v s (by simp)], fun bz v' h => ?_⟩
  · -- no slot key is a code key
    intro heq
    exact codeKey_ne_slotKey hash addr key (MultiKey.evm.inj heq).symm
  · rw [KV.Delta.getElem?_smul, KV.Delta.writes_set] at h
    split at h
    · rename_i heq
      exact .inr ⟨addr, key, (MultiKey.evm.inj heq).symm⟩
    · exact .inl h

/-- A slot deletion. -/
theorem codeKept_delete_slot (addr : Address) (key : Hash) (s : MultiStore) :
    CodeKept s ((KV.Delta.delete (.evm (AddressStoragePrefix addr ++ key.Bytes)) : MultiDelta) • s) := by
  refine ⟨fun hash => ?_, fun a => by rw [MultiStore.Account?_smul_delete_of_ne s (by simp)],
    fun bz v h => .inl ?_⟩
  · rw [MultiStore.Get_smul_delete, if_neg]
    intro heq
    exact codeKey_ne_slotKey hash addr key (MultiKey.evm.inj heq).symm
  · rw [KV.Delta.getElem?_smul, KV.Delta.writes_delete] at h
    split at h
    · cases h
    · exact h

/-- Store code that keeps the codes, the code hashes and the shape of the EVM store, on whatever
    store it runs. -/
def KeepsCode {α : Type} (x : StoreM α) : Prop := ∀ s a d, x s = .ok (a, d) → CodeKept s (d • s)

/-! ## The bank creates accounts with no code -/

section Bank

variable (ModuleAddress : String → Address)

/-- A new account, with no code, where there was none. -/
theorem codeKept_set_new_account {addr : Address} {acc : Account} {s : MultiStore}
    (hnone : s.Account? addr = none) (hcode : codeHashOf (some acc) = EmptyCodeHash) :
    CodeKept s ((KV.Delta.set (.account addr) (.account acc) : MultiDelta) • s) :=
  codeKept_set_account s (by rw [hcode, hnone]; rfl)

theorem GetModuleAccount_codeKept {name : String} {s : MultiStore} {acc : Account} {d : MultiDelta}
    (h : Auth.GetModuleAccount ModuleAddress name s = .ok (acc, d)) : CodeKept s (d • s) := by
  rcases Auth.GetModuleAccount_eq_ok ModuleAddress h with ⟨-, hs⟩ | ⟨hnone, rfl, hs⟩
  · rw [hs]
    exact CodeKept.refl s
  · -- a module account runs no code
    rw [hs]
    exact codeKept_set_new_account hnone rfl

/-- Two balance writes, then the recipient's new account if it had none. -/
theorem SendCoins_keepsCode (fromAddr toAddr : Address) (amt : Nat) :
    KeepsCode (Bank.SendCoins fromAddr toAddr amt) := by
  intro s _ d h
  obtain ⟨-, -, hd⟩ := Bank.SendCoins_store h
  rw [hd]
  split
  · exact (codeKept_set_balance fromAddr _ s).trans (codeKept_set_balance toAddr _ _)
  · rename_i hto
    refine CodeKept.trans ?_ (codeKept_set_new_account (Option.not_isSome_iff_eq_none.mp hto)
      (codeHashOf_NewAccountWithAddress toAddr))
    exact (codeKept_set_balance fromAddr _ s).trans (codeKept_set_balance toAddr _ _)

theorem SendCoinsFromModuleToAccount_keepsCode (senderModule : String) (recipientAddr : Address)
    (amt : Nat) :
    KeepsCode (Bank.SendCoinsFromModuleToAccount ModuleAddress senderModule recipientAddr amt) := by
  intro s _ d h
  exact SendCoins_keepsCode _ _ _ s () d (Bank.SendCoinsFromModuleToAccount_send ModuleAddress h).2

theorem SendCoinsFromAccountToModule_keepsCode (senderAddr : Address) (recipientModule : String)
    (amt : Nat) :
    KeepsCode (Bank.SendCoinsFromAccountToModule ModuleAddress senderAddr recipientModule amt) := by
  intro s _ d h
  unfold Bank.SendCoinsFromAccountToModule at h
  obtain ⟨acc, d₁, d₂, h₁, h₂, rfl⟩ := Buffered.bind_eq_ok h
  rw [mul_smul]
  exact (GetModuleAccount_codeKept ModuleAddress h₁).trans (SendCoins_keepsCode _ _ _ _ () d₂ h₂)

theorem MintCoins_keepsCode (moduleName : String) (amt : Nat) :
    KeepsCode (Bank.MintCoins ModuleAddress moduleName amt) := by
  intro s _ d h
  obtain ⟨-, -, acc, d₁, h₁, hd⟩ := Bank.MintCoins_store ModuleAddress h
  rw [hd]
  -- the module account, its balance, the supply
  exact ((GetModuleAccount_codeKept ModuleAddress h₁).trans (codeKept_set_balance _ _ _)).trans
    (codeKept_set_supply _ _)

theorem BurnCoins_keepsCode (moduleName : String) (amt : Nat) :
    KeepsCode (Bank.BurnCoins ModuleAddress moduleName amt) := by
  intro s _ d h
  obtain ⟨-, -, acc, d₁, h₁, -, hd⟩ := Bank.BurnCoins_store ModuleAddress h
  rw [hd]
  exact ((GetModuleAccount_codeKept ModuleAddress h₁).trans (codeKept_set_balance _ _ _)).trans
    (codeKept_set_supply _ _)

end Bank

/-! ## The calls that keep the codes and the code hashes -/

namespace Keeper

/-- A write of the store code lands in the top context. -/
theorem view_call_write (δ : MultiDelta) (k : Keeper) :
    (k.call (Buffered.write δ : StoreM Unit)).2.view = δ • k.view :=
  view_write k δ

theorem codeKept_call {α : Type} {x : StoreM α} (hx : KeepsCode x) (k : Keeper) :
    CodeKept k.view (k.call x).2.view := by
  unfold call
  split
  · exact CodeKept.refl _
  · rename_i a d hxd
    rw [view_write]
    exact hx _ a d hxd

theorem codeKept_of_call {α : Type} {x : StoreM α} {k k' : Keeper} {r : Except String α}
    (hx : KeepsCode x) (h : k.call x = (r, k')) : CodeKept k.view k'.view := by
  have hkept := codeKept_call hx k
  rw [h] at hkept
  exact hkept

theorem codeKept_call_transient (key : Bytes) (v : MultiValue) (k : Keeper) :
    CodeKept k.view (k.call (Buffered.write (KV.Delta.set (.transient key) v) : StoreM Unit)).2.view := by
  rw [view_call_write]
  exact codeKept_set_transient key v k.view

theorem codeKept_setCounter (key : Bytes) (value : UInt64) (k : Keeper) :
    CodeKept k.view (setCounter key value k).view :=
  codeKept_call_transient key _ k

theorem codeKept_AddBalance (addr : Address) (amount : Int) (k : Keeper) :
    CodeKept k.view (k.AddBalance addr amount).view := by
  unfold AddBalance
  split
  · exact CodeKept.refl _
  split
  · exact CodeKept.refl _
  have hmint := MintCoins_keepsCode k.ModuleAddress ModuleName amount.toNat
  split
  · -- the state error is no part of the view
    rename_i h₁
    exact (codeKept_of_call hmint h₁ :)
  · rename_i k₁ h₁
    have hsend := SendCoinsFromModuleToAccount_keepsCode k₁.ModuleAddress ModuleName addr amount.toNat
    split
    · rename_i h₂
      exact ((codeKept_of_call hmint h₁).trans (codeKept_of_call hsend h₂) :)
    · rename_i h₂
      exact (codeKept_of_call hmint h₁).trans (codeKept_of_call hsend h₂)

theorem codeKept_SubBalance (addr : Address) (amount : Int) (k : Keeper) :
    CodeKept k.view (k.SubBalance addr amount).view := by
  unfold SubBalance
  split
  · exact CodeKept.refl _
  split
  · exact CodeKept.refl _
  have hsend := SendCoinsFromAccountToModule_keepsCode k.ModuleAddress addr ModuleName amount.toNat
  split
  · rename_i h₁
    exact codeKept_of_call hsend h₁
  · rename_i k₁ h₁
    have hburn := BurnCoins_keepsCode k₁.ModuleAddress ModuleName amount.toNat
    split
    · rename_i h₂
      exact ((codeKept_of_call hsend h₁).trans (codeKept_of_call hburn h₂) :)
    · rename_i h₂
      exact (codeKept_of_call hsend h₁).trans (codeKept_of_call hburn h₂)

/-- The nonce write stores the account with another sequence, under its own address. -/
theorem codeKept_SetNonce {k : Keeper} (hkeyed : k.view.AccountsKeyed) (addr : Address)
    (nonce : UInt64) : CodeKept k.view (k.SetNonce addr nonce).view := by
  unfold SetNonce
  split
  · exact CodeKept.refl _
  · dsimp only
    rw [Auth.SetAccount, view_call_write]
    cases hacc : k.view.Account? addr with
    | none =>
      exact codeKept_set_new_account hacc (codeHashOf_NewAccountWithAddress addr)
    | some acc =>
      apply codeKept_set_account
      rw [Option.getD_some, hkeyed addr acc hacc, hacc]
      rfl

theorem codeKept_ClearBalance (addr : Address) (k : Keeper) :
    CodeKept k.view (k.ClearBalance addr).2.view := by
  unfold ClearBalance
  dsimp only
  have hsend := SendCoinsFromAccountToModule_keepsCode k.ModuleAddress addr ModuleName
    (k.view.Amount (.balance addr))
  split
  · split
    · rename_i h₁
      exact codeKept_of_call hsend h₁
    · rename_i k₁ h₁
      have hburn := BurnCoins_keepsCode k₁.ModuleAddress ModuleName (k.view.Amount (.balance addr))
      split
      · rename_i h₂
        exact (codeKept_of_call hsend h₁).trans (codeKept_of_call hburn h₂)
      · rename_i h₂
        exact (codeKept_of_call hsend h₁).trans (codeKept_of_call hburn h₂)
  · exact CodeKept.refl _

/-- Suicide clears the balance and marks the account in the transient store; the code and the
    storage stay. -/
theorem codeKept_Suicide (addr : Address) (k : Keeper) :
    CodeKept k.view (k.Suicide addr).2.view := by
  unfold Suicide
  split
  · exact CodeKept.refl _
  split
  · exact CodeKept.refl _
  have hclear := codeKept_ClearBalance addr k
  split
  · rename_i h
    rw [h] at hclear
    exact hclear
  · rename_i h
    rw [h] at hclear
    exact hclear.trans (codeKept_call_transient _ _ _)

theorem codeKept_AddAddressToAccessList (addr : Address) (k : Keeper) :
    CodeKept k.view (k.AddAddressToAccessList addr).view := by
  unfold AddAddressToAccessList
  split
  · exact CodeKept.refl _
  split
  · exact CodeKept.refl _
  · exact codeKept_call_transient _ _ k

theorem codeKept_AddSlotToAccessList (addr : Address) (slot : Hash) (k : Keeper) :
    CodeKept k.view (k.AddSlotToAccessList addr slot).view := by
  unfold AddSlotToAccessList
  split
  · exact CodeKept.refl _
  have haddr := codeKept_AddAddressToAccessList addr k
  dsimp only
  split
  · exact haddr
  · exact haddr.trans (codeKept_call_transient _ _ _)

theorem codeKept_AddRefund {gas : UInt64} {k k' : Keeper} (h : k.AddRefund gas = .ok k') :
    CodeKept k.view k'.view := by
  unfold AddRefund at h
  split at h
  · cases h
    exact CodeKept.refl _
  · obtain ⟨refund, -, hset⟩ := Except.bind_eq_ok h
    cases hset
    exact codeKept_setCounter _ _ k

theorem codeKept_SubRefund {gas : UInt64} {k k' : Keeper} (h : k.SubRefund gas = .ok k') :
    CodeKept k.view k'.view := by
  unfold SubRefund at h
  split at h
  · cases h
    exact CodeKept.refl _
  · obtain ⟨refund, -, hset⟩ := Except.bind_eq_ok h
    split at hset
    · cases hset
    · cases hset
      exact codeKept_setCounter _ _ k

theorem codeKept_AddLog {log : Log} {k k' : Keeper} (h : k.AddLog log = .ok k') :
    CodeKept k.view k'.view := by
  unfold AddLog at h
  split at h
  · cases h
    exact CodeKept.refl _
  · obtain ⟨txIndex, -, h₁⟩ := Except.bind_eq_ok h
    obtain ⟨logSize, -, h₂⟩ := Except.bind_eq_ok h₁
    obtain ⟨k₁, hk₁, h₃⟩ := Except.bind_eq_ok h₂
    cases h₃
    -- the log size counter, then the log
    have hsize : CodeKept k.view k₁.view := by
      unfold IncreaseLogSizeTransient at hk₁
      obtain ⟨size, -, hset⟩ := Except.bind_eq_ok hk₁
      cases hset
      exact codeKept_setCounter _ _ k
    exact hsize.trans (codeKept_call_transient _ _ _)

/-- SetState writes or deletes one slot. -/
theorem codeKept_SetState (addr : Address) (key value : Hash) (k : Keeper) :
    CodeKept k.view (k.SetState addr key value).view := by
  unfold SetState
  split
  · exact CodeKept.refl _
  dsimp only
  split
  · rw [StoreM.Delete, view_call_write]
    exact codeKept_delete_slot addr key k.view
  · rw [StoreM.Set, view_call_write]
    exact codeKept_set_slot addr key _ k.view

theorem codeKept_DeleteState (addr : Address) (key : Hash) (k : Keeper) :
    CodeKept k.view (k.DeleteState addr key).view := by
  rw [DeleteState, StoreM.Delete, view_call_write]
  exact codeKept_delete_slot addr key k.view

theorem codeKept_foldl_DeleteState (addr : Address) (slots : List (Hash × Hash)) (k : Keeper) :
    CodeKept k.view (slots.foldl (fun k kv => k.DeleteState addr kv.1) k).view := by
  induction slots generalizing k with
  | nil => exact CodeKept.refl _
  | cons kv slots ih => exact (codeKept_DeleteState addr kv.1 k).trans (ih _)

theorem codeKept_DeleteAccountStorage (addr : Address) (k : Keeper) :
    CodeKept k.view (k.DeleteAccountStorage addr).view := by
  unfold DeleteAccountStorage
  split
  · exact CodeKept.refl _
  · exact codeKept_foldl_DeleteState addr _ k

/-- The code hash GetCodeHash reads, with no state error. -/
theorem GetCodeHash_eq_codeHashOf {k : Keeper} (hk : k.HasStateError = false) (addr : Address) :
    k.GetCodeHash addr = codeHashOf (k.view.Account? addr) := by
  rw [GetCodeHash, if_neg (by simp [hk])]
  cases k.view.Account? addr <;> rfl

/-- **CreateAccount where there is no code**: an existing account keeps nothing of its storage and
    its code hash names no code to delete, and the new account has no code. -/
theorem codeKept_CreateAccount {addr : Address} {k : Keeper}
    (hempty : k.HasStateError = false → k.GetCodeHash addr = EmptyCodeHash) :
    CodeKept k.view (k.CreateAccount addr).view := by
  unfold CreateAccount
  split
  · exact CodeKept.refl _
  rename_i herr
  have hnoerr : k.HasStateError = false := by simpa using herr
  have hhash : k.GetCodeHash addr = EmptyCodeHash := hempty hnoerr
  have hreset : CodeKept k.view
      (if (k.view.Account? addr).isSome then k.ResetAccount addr else k).view := by
    split
    · have hcode : k.DeleteCode addr = k := by
        unfold DeleteCode
        rw [if_pos hhash]
      rw [ResetAccount, hcode]
      exact codeKept_DeleteAccountStorage addr k
    · exact CodeKept.refl _
  dsimp only
  refine hreset.trans ?_
  rw [Auth.SetAccount, view_call_write]
  apply codeKept_set_account
  rw [show (Auth.NewAccountWithAddress addr).address = addr from rfl, hreset.codeHash addr,
    ← GetCodeHash_eq_codeHashOf hnoerr, hhash]
  exact codeHashOf_NewAccountWithAddress addr

end Keeper

/-! ## Every code hash is the hash of its code -/

namespace World

/-- **Every account's code hash is the hash of its code**: of the code its code hash names, and so
    the empty code hash for an account with no code. -/
def CodeHashed (K : Bytes → Hash) (w : World) : Prop :=
  ∀ addr, K (w.codeOf addr) = (w.account addr).codeHash

variable {K : Bytes → Hash} {w : World}

/-- A world with the same codes and the same code hashes. -/
theorem CodeHashed.of_eq {w' : World} (hw : w.CodeHashed K) (hcode : w'.code = w.code)
    (hhash : ∀ addr, (w'.account addr).codeHash = (w.account addr).codeHash) :
    w'.CodeHashed K := by
  intro addr
  show K (w'.code (w'.account addr).codeHash) = (w'.account addr).codeHash
  rw [hcode, hhash]
  exact hw addr

theorem CodeHashed.setStorage (hw : w.CodeHashed K) (addr : Address) (key value : Hash) :
    (w.setStorage addr key value).CodeHashed K := by
  refine hw.of_eq rfl fun a => ?_
  rw [World.setStorage, account_modify]
  split
  · rename_i ha
    rw [ha]
  · rfl

/-- **A code stored under its own hash**, and made an account's, keeps every code hash the hash of
    its code: an account that had that hash had that code. -/
theorem CodeHashed.setCode (hw : w.CodeHashed K) (addr : Address) {hash : Hash} {code : Bytes}
    (hcode : K code = hash) : (w.setCode addr hash code).CodeHashed K := by
  intro a
  unfold World.codeOf World.setCode World.storeCode
  dsimp only
  rw [account_modify, code_modify]
  split
  · -- the account given the code
    rw [Function.update_self]
    exact hcode
  · rw [Function.update_apply]
    split
    · -- another account with that hash
      rename_i hh
      rw [hcode, hh]
    · exact hw a

end World

/-- Every key of the EVM store under the storage prefix is a slot key. -/
def SlotsShaped (s : MultiStore) : Prop :=
  ∀ key v, s[MultiKey.evm key]? = some v → KeyPrefixStorage.isPrefixOf key = true → IsSlotKey key

namespace SlotsShaped

/-- A write outside the storage prefix. -/
theorem set_of_not_storage {s : MultiStore} (hs : SlotsShaped s) {key : MultiKey} (v : MultiValue)
    (hkey : ∀ bz, key = .evm bz → KeyPrefixStorage.isPrefixOf bz = false) :
    SlotsShaped ((KV.Delta.set key v : MultiDelta) • s) := by
  intro bz v' h hpre
  rw [KV.Delta.getElem?_smul, KV.Delta.writes_set] at h
  split at h
  · rename_i heq
    rw [hkey bz heq] at hpre
    cases hpre
  · exact hs bz v' h hpre

/-- A deletion adds no key. -/
theorem delete {s : MultiStore} (hs : SlotsShaped s) (key : MultiKey) :
    SlotsShaped ((KV.Delta.delete key : MultiDelta) • s) := by
  intro bz v h hpre
  rw [KV.Delta.getElem?_smul, KV.Delta.writes_delete] at h
  split at h
  · cases h
  · exact hs bz v h hpre

theorem set_account {s : MultiStore} (hs : SlotsShaped s) (addr : Address) (v : MultiValue) :
    SlotsShaped ((KV.Delta.set (.account addr) v : MultiDelta) • s) :=
  hs.set_of_not_storage v fun _ h => by cases h

/-- A code key is not under the storage prefix. -/
theorem set_code {s : MultiStore} (hs : SlotsShaped s) (hash : Hash) (v : MultiValue) :
    SlotsShaped ((KV.Delta.set (.evm (KeyPrefixCode ++ hash.Bytes)) v : MultiDelta) • s) :=
  hs.set_of_not_storage v fun bz h => by
    cases h
    rfl

end SlotsShaped

/-- **The invariant of the EVM's codes and slots**: every account's code hash is the hash of its
    code, and the storage prefix holds slot keys only. -/
structure EvmInv (K : Bytes → Hash) (s : MultiStore) : Prop where
  codeHashed : (worldOf s).CodeHashed K
  slotsShaped : SlotsShaped s

theorem EvmInv.of_codeKept {K : Bytes → Hash} {s s' : MultiStore} (hs : EvmInv K s)
    (h : CodeKept s s') : EvmInv K s' := by
  refine ⟨hs.codeHashed.of_eq ?_ h.codeHash, fun key v hv hpre => ?_⟩
  · funext hash
    simp only [worldOf, h.code]
  · rcases h.slots key v hv with hold | hslot
    · exact hs.slotsShaped key v hold hpre
    · exact hslot

/-- **The empty store has the invariant**: an address without account has the empty code hash,
    which names no code, the code the empty code hash is the hash of. -/
theorem evmInv_empty {K : Bytes → Hash} (hK : K [] = EmptyCodeHash) : EvmInv K ∅ := by
  refine ⟨fun addr => ?_, fun key v h => ?_⟩
  · have hnone : (∅ : MultiStore).Account? addr = none := by simp [MultiStore.Account?]
    simp [World.codeOf, worldOf, hnone, codeHashOf, hK]
  · simp at h

/-! ## SetCode -/

/-- The code write of SetCode stores the code under the hash; the empty code hash names no code. -/
theorem worldOf_code_write (s : MultiStore) (hash : Hash) (code : Bytes) :
    worldOf ((if code.length = 0 then KV.Delta.delete (.evm (KeyPrefixCode ++ hash.Bytes))
        else KV.Delta.set (.evm (KeyPrefixCode ++ hash.Bytes)) (.bytes code) : MultiDelta) • s) =
      (worldOf s).storeCode hash (if hash = EmptyCodeHash then [] else code) := by
  split
  · -- no code: the deletion reads as a write of no bytes
    rename_i hlen
    rw [List.length_eq_zero_iff.mp hlen, ite_self]
    exact worldOf_delete_code s hash
  · exact worldOf_set_code s hash code

/-- **SetCode's account write gives the account the hash** and changes nothing else of the world
    state: the account it writes is the one at the address, or a new one where there was none. -/
theorem worldOf_setCode_account {s : MultiStore} (hkeyed : s.AccountsKeyed) (addr : Address)
    (hash : Hash) :
    let acc := (s.Account? addr).getD (Auth.NewAccountWithAddress addr)
    worldOf ((KV.Delta.set (.account acc.address) (.account { acc with type := .eth hash.Hex }) :
        MultiDelta) •
        (if (s.Account? addr).isSome then s
          else (KV.Delta.set (.account addr) (.account acc) : MultiDelta) • s)) =
      (worldOf s).modify addr fun a => { a with codeHash := hash } := by
  intro acc
  have hcode : codeHashOf (some { acc with type := .eth hash.Hex }) = hash := HexToHash_Hex hash
  -- the account is the one at the address, with the nonce the world state shows
  have hacc : acc.address = addr ∧ acc.sequence = ((worldOf s).account addr).nonce := by
    cases hget : s.Account? addr with
    | none => simp [acc, worldOf, hget, nonceOf, Auth.NewAccountWithAddress]
    | some a => simp [acc, worldOf, hget, nonceOf, hkeyed addr a hget]
  -- the new account, where there was none, shows no change
  have hbase : worldOf (if (s.Account? addr).isSome then s
      else (KV.Delta.set (.account addr) (.account acc) : MultiDelta) • s) = worldOf s := by
    cases hget : s.Account? addr with
    | none =>
      simp only [Option.isSome_none]
      exact worldOf_set_new_account s hget (by simp [acc, hget, Auth.NewAccountWithAddress])
        (by simp [acc, hget])
    | some a => rfl
  rw [worldOf_set_account, hbase, hcode, hacc.1]
  apply World.modify_congr
  rw [hacc.2]

namespace Keeper

variable (K : Bytes → Hash) (addr : Address) (code : Bytes)

/-- **What SetCode writes** without a state error, for an EthAccount or where there is no
    account: the account (a new one where there was none) with the code's hash, then the code
    under that hash, deleted for no code; it sets no state error. -/
theorem SetCode_of_eth {k : Keeper} (hk : k.HasStateError = false) {acc : Account} {ch : String}
    (hacc : (k.view.Account? addr).getD (Auth.NewAccountWithAddress addr) = acc)
    (htype : acc.type = .eth ch) :
    (k.SetCode K addr code).stateErr = k.stateErr ∧
      (k.SetCode K addr code).view =
        (if code.length = 0 then KV.Delta.delete (.evm (KeyPrefixCode ++ (K code).Bytes))
          else KV.Delta.set (.evm (KeyPrefixCode ++ (K code).Bytes)) (.bytes code) : MultiDelta) •
        (KV.Delta.set (.account acc.address) (.account { acc with type := .eth (K code).Hex }) :
          MultiDelta) •
        (if (k.view.Account? addr).isSome then k.view
          else (KV.Delta.set (.account addr) (.account acc) : MultiDelta) • k.view) := by
  unfold SetCode
  rw [if_neg (by simp [hk])]
  cases hget : k.view.Account? addr with
  | none =>
    rw [hget, Option.getD_none] at hacc
    subst hacc
    dsimp only
    rw [htype]
    dsimp only
    split <;>
      simp only [StoreM.Delete, StoreM.Set, Auth.SetAccount, view_call_write, Option.isSome_none]
    all_goals exact ⟨rfl, rfl⟩
  | some acc' =>
    rw [hget, Option.getD_some] at hacc
    subst hacc
    dsimp only
    rw [htype]
    dsimp only
    split <;>
      simp only [StoreM.Delete, StoreM.Set, Auth.SetAccount, view_call_write, Option.isSome_some]
    all_goals exact ⟨rfl, rfl⟩

/-- SetCode on an account that is no EthAccount sets the state error and writes nothing. -/
theorem view_SetCode_of_not_eth {k : Keeper}
    (htype : ∀ ch, ((k.view.Account? addr).getD (Auth.NewAccountWithAddress addr)).type ≠ .eth ch) :
    (k.SetCode K addr code).view = k.view := by
  unfold SetCode
  split
  · rfl
  · cases hget : k.view.Account? addr with
    | none =>
      rw [hget] at htype
      exact absurd rfl (htype _)
    | some acc =>
      rw [hget] at htype
      dsimp only
      split
      · rename_i ch hch
        exact absurd hch (htype ch)
      · rfl

/-- **SetCode gives the account the code** in the world state, for an EthAccount or where there
    is no account: the code's hash, and the code under it (none under the empty code hash). -/
theorem world_SetCode {k : Keeper} (hk : k.HasStateError = false) (hkeyed : k.view.AccountsKeyed)
    {ch : String}
    (htype : ((k.view.Account? addr).getD (Auth.NewAccountWithAddress addr)).type = .eth ch) :
    (k.SetCode K addr code).world =
      k.world.setCode addr (K code) (if K code = EmptyCodeHash then [] else code) := by
  obtain ⟨-, hview⟩ := SetCode_of_eth K addr code hk rfl htype
  rw [world, hview, worldOf_code_write, worldOf_setCode_account hkeyed]
  rfl

/-- **What SetCode can do**: nothing to the view (under a state error, or for an account that is
    no EthAccount), or the writes of `SetCode_of_eth`. -/
theorem SetCode_cases (k : Keeper) :
    (k.SetCode K addr code).view = k.view ∨ ∃ ch, k.HasStateError = false ∧
      ((k.view.Account? addr).getD (Auth.NewAccountWithAddress addr)).type = .eth ch := by
  cases hk : k.HasStateError with
  | true =>
    left
    unfold SetCode
    rw [if_pos hk]
  | false =>
    cases htype : ((k.view.Account? addr).getD (Auth.NewAccountWithAddress addr)).type with
    | eth ch => exact .inr ⟨ch, rfl, rfl⟩
    | base => exact .inl (view_SetCode_of_not_eth K addr code (by simp [htype]))
    | module name => exact .inl (view_SetCode_of_not_eth K addr code (by simp [htype]))

/-- **SetCode keeps the invariant**: the code it stores hashes to the hash it records, and it
    writes an account and a code key, none under the storage prefix. -/
theorem evmInv_SetCode (hK : K [] = EmptyCodeHash) {k : Keeper} (hkeyed : k.view.AccountsKeyed)
    (hs : EvmInv K k.view) : EvmInv K (k.SetCode K addr code).view := by
  rcases SetCode_cases K addr code k with hview | ⟨ch, hk, htype⟩
  · rw [hview]
    exact hs
  -- the stored code hashes to the recorded hash: the empty code under the empty code hash
  have hcode : K (if K code = EmptyCodeHash then [] else code) = K code := by
    split
    · rename_i hempty
      rw [hK, hempty]
    · rfl
  refine ⟨?_, ?_⟩
  · show (k.SetCode K addr code).world.CodeHashed K
    rw [world_SetCode K addr code hk hkeyed htype]
    exact hs.codeHashed.setCode addr hcode
  · obtain ⟨-, hview⟩ := SetCode_of_eth K addr code hk rfl htype
    have hbase : SlotsShaped (if (k.view.Account? addr).isSome then k.view
        else (KV.Delta.set (.account addr) (.account ((k.view.Account? addr).getD
          (Auth.NewAccountWithAddress addr))) : MultiDelta) • k.view) := by
      split
      · exact hs.slotsShaped
      · exact hs.slotsShaped.set_account addr _
    rw [hview]
    split
    · exact (hbase.set_account _ _).delete _
    · exact (hbase.set_account _ _).set_code _ _

/-- SetCode changes no other address's account. -/
theorem Account?_SetCode_of_ne {k : Keeper} (hkeyed : k.view.AccountsKeyed) {b : Address}
    (hb : b ≠ addr) : (k.SetCode K addr code).view.Account? b = k.view.Account? b := by
  rcases SetCode_cases K addr code k with hview | ⟨ch, hk, htype⟩
  · rw [hview]
  obtain ⟨-, hview⟩ := SetCode_of_eth K addr code hk rfl htype
  -- the account written is the one at the address, or a new one there
  have haddr : ((k.view.Account? addr).getD (Auth.NewAccountWithAddress addr)).address = addr := by
    cases hget : k.view.Account? addr with
    | none => rfl
    | some acc => exact hkeyed addr acc hget
  have hbase : (if (k.view.Account? addr).isSome then k.view
      else (KV.Delta.set (.account addr) (.account ((k.view.Account? addr).getD
        (Auth.NewAccountWithAddress addr))) : MultiDelta) • k.view).Account? b = k.view.Account? b := by
    split
    · rfl
    · rw [MultiStore.Account?_smul_set_account, if_neg (Ne.symm hb)]
  rw [hview]
  split
  · rw [MultiStore.Account?_smul_delete_of_ne _ (by simp), MultiStore.Account?_smul_set_account,
      haddr, if_neg (Ne.symm hb), hbase]
  · rw [MultiStore.Account?_smul_set_of_ne _ _ (by simp), MultiStore.Account?_smul_set_account,
      haddr, if_neg (Ne.symm hb), hbase]

/-- SetCode sets no state error for an EthAccount. -/
theorem stateErr_SetCode {k : Keeper} (hk : k.HasStateError = false) {ch : String}
    (htype : ((k.view.Account? addr).getD (Auth.NewAccountWithAddress addr)).type = .eth ch) :
    (k.SetCode K addr code).stateErr = k.stateErr :=
  (SetCode_of_eth K addr code hk rfl htype).1

/-! ## SetState -/

theorem stateErr_call {α : Type} (x : StoreM α) (k : Keeper) : (k.call x).2.stateErr = k.stateErr := by
  unfold call
  split <;> rfl

/-- SetState sets no state error. -/
theorem stateErr_SetState (key value : Hash) (k : Keeper) :
    (k.SetState addr key value).stateErr = k.stateErr := by
  unfold SetState
  split
  · rfl
  · dsimp only
    split <;> exact stateErr_call _ k

/-- SetState writes a slot of the EVM store, no account. -/
theorem Account?_SetState (key value : Hash) (k : Keeper) (b : Address) :
    (k.SetState addr key value).view.Account? b = k.view.Account? b := by
  unfold SetState
  split
  · rfl
  dsimp only
  split
  · rw [StoreM.Delete, view_call_write, MultiStore.Account?_smul_delete_of_ne _ (by simp)]
  · rw [StoreM.Set, view_call_write, MultiStore.Account?_smul_set_of_ne _ _ (by simp)]

/-- **SetState sets the slot** in the world state, with no state error: an empty value is a
    deletion, which reads as zero. -/
theorem world_SetState (key value : Hash) {k : Keeper} (hk : k.HasStateError = false) :
    (k.SetState addr key value).world = k.world.setStorage addr key value := by
  unfold SetState
  rw [if_neg (by simp [hk])]
  dsimp only
  split
  · rename_i hempty
    rw [IsEmptyHash_Hex, beq_iff_eq] at hempty
    rw [world, StoreM.Delete, view_call_write, worldOf_delete_slot, hempty]
    rfl
  · have hlen : value.Bytes.length ≠ 0 := by simp
    rw [world, StoreM.Set, view_call_write, worldOf_set_slot, if_neg hlen, BytesToHash_Bytes]
    rfl

end Keeper

/-! ## Runs of StateDB calls -/

/-- **Whether go-ethereum makes the call** in this state: it creates an account only where the
    code hash is zero or the empty code hash (the collision check of evm.create; evm.Call creates
    only an address that does not exist, whose code hash is the empty code hash). -/
def Op.allowed (k : Keeper) : Op → Bool
  | .CreateAccount addr => k.GetCodeHash addr == 0 || k.GetCodeHash addr == EmptyCodeHash
  | _ => true

/-- Every call of a run is one go-ethereum makes in the state the calls before it leave. -/
def Op.runAllowed (K : Bytes → Hash) : List Op → Keeper → Bool
  | [], _ => true
  | op :: ops, k =>
    op.allowed k &&
      match op.exec K k with
      | .ok k' => Op.runAllowed K ops k'
      | .error _ => true

namespace Keeper

variable {K : Bytes → Hash} {P : MultiStore → Prop}

theorem Inv.view {k : Keeper} (hk : k.Inv P) : P k.view := hk.1

/-- A step that writes the top context keeps an invariant that its effect on the view keeps. -/
theorem Inv.of_journalWrite {k k' : Keeper} (hk : k.Inv P) (hw : JournalWrite k k')
    (hP : P k.view → P k'.view) : k'.Inv P := by
  obtain ⟨f, hf⟩ := hw
  have hview : k'.view = f k.view := by
    rw [← journal_current, hf, Journal.write_current, journal_current]
  unfold Inv
  rw [hf]
  exact hk.write fun hcur => hview ▸ hP hcur

/-- A step that keeps the codes, the code hashes and the shape of the EVM store keeps the
    invariant. -/
theorem Inv.of_codeKept {k k' : Keeper} (hk : k.Inv (EvmInv K)) (hw : Writes k k')
    (hkept : CodeKept k.view k'.view) : k'.Inv (EvmInv K) :=
  hk.of_journalWrite hw.journalWrite fun hs => hs.of_codeKept hkept

end Keeper

open Keeper

section Runs

variable {K : Bytes → Hash} (hK : K [] = EmptyCodeHash) (hK0 : ∀ code, K code ≠ 0)
include hK hK0

/-- **Every call go-ethereum makes keeps the invariant**, on a store that keys its accounts.  No
    code is a preimage of the zero hash, so the collision check lets CreateAccount through only
    for an address with the empty code hash, whose code it does not delete. -/
theorem Op.exec_evmInv {op : Op} {k k' : Keeper} (hk : k.Inv (EvmInv K))
    (hkeyed : k.Inv MultiStore.AccountsKeyed) (hallowed : op.allowed k = true)
    (h : op.exec K k = .ok k') : k'.Inv (EvmInv K) := by
  cases op with
  | CreateAccount addr =>
    cases h
    refine hk.of_codeKept (writes_CreateAccount addr k) (codeKept_CreateAccount fun hnoerr => ?_)
    simp only [Op.allowed, Bool.or_eq_true, beq_iff_eq] at hallowed
    rcases hallowed with hzero | hempty
    · -- a zero code hash would be the hash of the account's code
      have hhash := hk.view.codeHashed addr
      rw [GetCodeHash_eq_codeHashOf hnoerr] at hzero
      exact absurd (hhash.trans hzero) (hK0 _)
    · exact hempty
  | AddBalance addr amount =>
    cases h
    exact hk.of_codeKept (writes_AddBalance addr amount k) (codeKept_AddBalance addr amount k)
  | SubBalance addr amount =>
    cases h
    exact hk.of_codeKept (writes_SubBalance addr amount k) (codeKept_SubBalance addr amount k)
  | SetNonce addr nonce =>
    cases h
    exact hk.of_codeKept (writes_SetNonce addr nonce k) (codeKept_SetNonce hkeyed.view addr nonce)
  | SetCode addr code =>
    cases h
    exact hk.of_journalWrite (writes_SetCode K addr code k).journalWrite
      (evmInv_SetCode K addr code hK hkeyed.view)
  | AddRefund gas => exact hk.of_codeKept (writes_AddRefund h) (codeKept_AddRefund h)
  | SubRefund gas => exact hk.of_codeKept (writes_SubRefund h) (codeKept_SubRefund h)
  | SetState addr key value =>
    cases h
    exact hk.of_codeKept (writes_SetState addr key value k) (codeKept_SetState addr key value k)
  | Suicide addr =>
    cases h
    exact hk.of_codeKept (writes_Suicide addr k) (codeKept_Suicide addr k)
  | AddAddressToAccessList addr =>
    cases h
    exact hk.of_codeKept (writes_AddAddressToAccessList addr k) (codeKept_AddAddressToAccessList addr k)
  | AddSlotToAccessList addr slot =>
    cases h
    exact hk.of_codeKept (writes_AddSlotToAccessList addr slot k)
      (codeKept_AddSlotToAccessList addr slot k)
  | Snapshot =>
    cases h
    exact hk.Snapshot
  | RevertToSnapshot target => exact hk.RevertToSnapshot h
  | AddLog log => exact hk.of_codeKept (writes_AddLog h) (codeKept_AddLog h)

/-- **Every run of calls go-ethereum makes keeps the invariant**, and the accounts keyed. -/
theorem Op.run_evmInv {ops : List Op} {k k' : Keeper} (hk : k.Inv (EvmInv K))
    (hkeyed : k.Inv MultiStore.AccountsKeyed) (hallowed : Op.runAllowed K ops k = true)
    (h : Op.run K ops k = .ok k') : k'.Inv (EvmInv K) ∧ k'.Inv MultiStore.AccountsKeyed := by
  induction ops generalizing k with
  | nil =>
    cases h
    exact ⟨hk, hkeyed⟩
  | cons op ops ih =>
    obtain ⟨k₁, hop, hrest⟩ := Except.bind_eq_ok h
    simp only [Op.runAllowed, hop, Bool.and_eq_true] at hallowed
    exact ih (Op.exec_evmInv hK hK0 hk hkeyed hallowed.1 hop)
      (Op.exec_inv StoreCode.keeps_keyed hkeyed hop).1 hallowed.2 hrest

end Runs

end AnconEvm.Evm
