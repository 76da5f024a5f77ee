import AnconEvm.Evm.StateDB
/-
  The StateDB's snapshots are journal snapshots, as long as no state error is set.

  Every StateDB call other than `Snapshot` and `RevertToSnapshot` changes the keeper's journal
  (`Keeper.journal`, the journal its context stack implements) by a write to the current state
  only: it reaches the store through `Keeper.call`, and otherwise only sets the state error
  (`Writes`, hence `JournalWrite`).  `Snapshot` and `RevertToSnapshot` are the journal's snapshot and revert when
  no state error is set, and every call does nothing once one is set.  So a run that ends without
  a state error is a run of the journal of the same shape (`journal_run`), and the journal's law
  `Journal.run_restores` gives back, for the keeper, the state a snapshot saw.  The condition is
  needed: a run that sets the state error skips its reverts (`Evm/StateDB.lean`).
-/

namespace AnconEvm.Evm

namespace Keeper

/-- The journal the keeper's context stack implements. -/
def journal (k : Keeper) : Journal MultiStore := k.ctxStack.journal

@[simp] theorem journal_current (k : Keeper) : k.journal.current = k.view := rfl

theorem length_journal_saved (k : Keeper) :
    k.journal.saved.length = k.ctxStack.cachedContexts.length := by
  simp [journal, ContextStack.journal, Layers.journal]

/-- `k'` is `k` with its journal changed by a write to the current state only. -/
def JournalWrite (k k' : Keeper) : Prop := ∃ f : MultiStore → MultiStore, k'.journal = k.journal.write f

theorem JournalWrite.refl (k : Keeper) : JournalWrite k k := ⟨id, rfl⟩

theorem JournalWrite.trans {k₁ k₂ k₃ : Keeper} (h₁₂ : JournalWrite k₁ k₂) (h₂₃ : JournalWrite k₂ k₃) :
    JournalWrite k₁ k₃ := by
  obtain ⟨f, hf⟩ := h₁₂
  obtain ⟨g, hg⟩ := h₂₃
  exact ⟨g ∘ f, by rw [hg, hf, Journal.write_write]⟩

/-- **Store code run through `call` is a journal write**: its buffer lands in the top context. -/
theorem journalWrite_call {α : Type} (x : StoreM α) (k : Keeper) : JournalWrite k (k.call x).2 := by
  unfold call
  split
  · exact JournalWrite.refl k
  · rename_i d _
    exact ⟨(d • ·), ContextStack.journal_write d k.ctxStack⟩

/-! ## What a call other than Snapshot and RevertToSnapshot does

  It runs store code through `call`, and sets or clears the state error.  `Writes` records that,
  and which store code it runs (`StoreCode`): the x/auth and x/bank operations and writes of the
  EVM module's own keys.  An invariant of the store that this code keeps is then kept by every
  such call, by one induction on `Writes` (`Evm/Invariant.lean`). -/

end Keeper

/-- **The store code StateDB calls run** through `call`: writes and deletions of keys of the EVM
    module's own stores, and the x/auth and x/bank operations the keeper calls. -/
inductive StoreCode : {α : Type} → StoreM α → Prop
  | write {key : MultiKey} (hkey : key.InEvmStores = true) (v : MultiValue) :
      StoreCode (Buffered.write (KV.Delta.set key v) : StoreM Unit)
  | delete {key : MultiKey} (hkey : key.InEvmStores = true) :
      StoreCode (Buffered.write (KV.Delta.delete key) : StoreM Unit)
  | SetAccount (acc : Account) : StoreCode (Auth.SetAccount acc)
  | SendCoinsFromModuleToAccount (ModuleAddress : String → Address) (senderModule : String)
      (recipientAddr : Address) (amt : Nat) :
      StoreCode (Bank.SendCoinsFromModuleToAccount ModuleAddress senderModule recipientAddr amt)
  | SendCoinsFromAccountToModule (ModuleAddress : String → Address) (senderAddr : Address)
      (recipientModule : String) (amt : Nat) :
      StoreCode (Bank.SendCoinsFromAccountToModule ModuleAddress senderAddr recipientModule amt)
  | MintCoins (ModuleAddress : String → Address) (moduleName : String) (amt : Nat) :
      StoreCode (Bank.MintCoins ModuleAddress moduleName amt)
  | BurnCoins (ModuleAddress : String → Address) (moduleName : String) (amt : Nat) :
      StoreCode (Bank.BurnCoins ModuleAddress moduleName amt)

theorem StoreCode.Set {key : MultiKey} (hkey : key.InEvmStores = true) (bz : Bytes) :
    StoreCode (StoreM.Set key bz) :=
  StoreCode.write hkey (.bytes bz)

theorem StoreCode.Delete {key : MultiKey} (hkey : key.InEvmStores = true) :
    StoreCode (StoreM.Delete key) :=
  StoreCode.delete hkey

/-- `P` is kept by all the store code StateDB calls run. -/
def StoreCode.Keeps (P : MultiStore → Prop) : Prop :=
  ∀ {α : Type} {x : StoreM α}, StoreCode x → Buffered.Preserves P x

namespace Keeper

/-- **What a StateDB call other than Snapshot and RevertToSnapshot does**: calls of such store
    code, and changes of the state error. -/
inductive Writes : Keeper → Keeper → Prop
  | refl (k : Keeper) : Writes k k
  | call {α : Type} {x : StoreM α} (hx : StoreCode x) (k : Keeper) : Writes k (k.call x).2
  | stateErr (k : Keeper) (e : Option String) : Writes k { k with stateErr := e }
  | trans {k₁ k₂ k₃ : Keeper} : Writes k₁ k₂ → Writes k₂ k₃ → Writes k₁ k₃

theorem writes_of_call {α : Type} {x : StoreM α} {k k' : Keeper} {r : Except String α}
    (hx : StoreCode x) (h : k.call x = (r, k')) : Writes k k' := by
  have hw := Writes.call hx k
  rw [h] at hw
  exact hw

/-- A fold of such steps. -/
theorem writes_foldl {β : Type} (step : Keeper → β → Keeper) (hstep : ∀ k b, Writes k (step k b))
    (bs : List β) (k : Keeper) : Writes k (bs.foldl step k) := by
  induction bs generalizing k with
  | nil => exact Writes.refl k
  | cons b bs ih => exact (hstep k b).trans (ih (step k b))

/-- Such steps are journal writes. -/
theorem Writes.journalWrite {k k' : Keeper} (h : Writes k k') : JournalWrite k k' := by
  induction h with
  | refl k => exact JournalWrite.refl k
  | call hx k => exact journalWrite_call _ k
  -- setting the state error leaves the journal alone
  | stateErr k e => exact JournalWrite.refl k
  | trans _ _ ih₁₂ ih₂₃ => exact ih₁₂.trans ih₂₃

/-! ## Each call other than Snapshot and RevertToSnapshot writes -/

theorem writes_setCounter (key : Bytes) (value : UInt64) (k : Keeper) :
    Writes k (setCounter key value k) :=
  Writes.call (StoreCode.Set rfl _) k

theorem writes_DeleteState (addr : Address) (key : Hash) (k : Keeper) :
    Writes k (k.DeleteState addr key) :=
  Writes.call (StoreCode.Delete rfl) k

theorem writes_ResetAccount (addr : Address) (k : Keeper) :
    Writes k (k.ResetAccount addr) := by
  have hcode : Writes k (k.DeleteCode addr) := by
    unfold DeleteCode
    dsimp only
    split
    · exact Writes.refl k
    · exact Writes.call (StoreCode.Delete rfl) k
  unfold ResetAccount
  refine hcode.trans ?_
  unfold DeleteAccountStorage
  split
  · exact Writes.refl _
  · -- the storage is deleted slot by slot
    exact writes_foldl (fun (k : Keeper) (kv : Hash × Hash) => k.DeleteState addr kv.1)
      (fun k kv => writes_DeleteState addr kv.1 k) _ _

theorem writes_CreateAccount (addr : Address) (k : Keeper) :
    Writes k (k.CreateAccount addr) := by
  unfold CreateAccount
  split
  · exact Writes.refl k
  · have hreset : Writes k (if (k.view.Account? addr).isSome then k.ResetAccount addr else k) := by
      split
      · exact writes_ResetAccount addr k
      · exact Writes.refl k
    dsimp only
    exact hreset.trans (Writes.call (StoreCode.SetAccount _) _)

/-- A balance move: a mint and a send, or a send and a burn, each through the bank. -/
theorem writes_AddBalance (addr : Address) (amount : Int) (k : Keeper) :
    Writes k (k.AddBalance addr amount) := by
  unfold AddBalance
  split
  · exact Writes.refl k
  split
  · exact Writes.refl k
  have hmint := StoreCode.MintCoins k.ModuleAddress ModuleName amount.toNat
  split
  · rename_i h₁
    exact (writes_of_call hmint h₁).trans (Writes.stateErr _ _)
  · rename_i k₁ h₁
    have hsend := StoreCode.SendCoinsFromModuleToAccount k₁.ModuleAddress ModuleName addr amount.toNat
    split
    · rename_i h₂
      exact (writes_of_call hmint h₁).trans
        ((writes_of_call hsend h₂).trans (Writes.stateErr _ _))
    · rename_i h₂
      exact (writes_of_call hmint h₁).trans (writes_of_call hsend h₂)

theorem writes_SubBalance (addr : Address) (amount : Int) (k : Keeper) :
    Writes k (k.SubBalance addr amount) := by
  unfold SubBalance
  split
  · exact Writes.refl k
  split
  · exact Writes.refl k
  have hsend := StoreCode.SendCoinsFromAccountToModule k.ModuleAddress addr ModuleName amount.toNat
  split
  · rename_i h₁
    exact writes_of_call hsend h₁
  · rename_i k₁ h₁
    have hburn := StoreCode.BurnCoins k₁.ModuleAddress ModuleName amount.toNat
    split
    · rename_i h₂
      exact (writes_of_call hsend h₁).trans
        ((writes_of_call hburn h₂).trans (Writes.stateErr _ _))
    · rename_i h₂
      exact (writes_of_call hsend h₁).trans (writes_of_call hburn h₂)

theorem writes_SetNonce (addr : Address) (nonce : UInt64) (k : Keeper) :
    Writes k (k.SetNonce addr nonce) := by
  unfold SetNonce
  split
  · exact Writes.refl k
  · exact Writes.call (StoreCode.SetAccount _) k

theorem writes_SetCode (Keccak256 : Bytes → Hash) (addr : Address) (code : Bytes) (k : Keeper) :
    Writes k (k.SetCode Keccak256 addr code) := by
  unfold SetCode
  split
  · exact Writes.refl k
  have hset : ∀ acc k₁, Writes k₁ (k₁.call (Auth.SetAccount acc)).2 :=
    fun acc k₁ => Writes.call (StoreCode.SetAccount acc) k₁
  have hcode : ∀ (codeKey : MultiKey) k₁, codeKey.InEvmStores = true →
      Writes k₁ (k₁.call (StoreM.Delete codeKey)).2 ∧ Writes k₁ (k₁.call (StoreM.Set codeKey code)).2 :=
    fun codeKey k₁ hkey => ⟨Writes.call (StoreCode.Delete hkey) k₁, Writes.call (StoreCode.Set hkey code) k₁⟩
  -- the account is read, or created by a first call; then the code is stored under it
  cases hacc : k.view.Account? addr with
  | some acc =>
    simp only
    split
    · split
      · exact (hset _ k).trans (hcode _ _ rfl).1
      · exact (hset _ k).trans (hcode _ _ rfl).2
    · exact Writes.stateErr _ _
  | none =>
    simp only
    split
    · split
      · exact (hset _ k).trans ((hset _ _).trans (hcode _ _ rfl).1)
      · exact (hset _ k).trans ((hset _ _).trans (hcode _ _ rfl).2)
    · exact (hset _ k).trans (Writes.stateErr _ _)

theorem writes_SetState (addr : Address) (key value : Hash) (k : Keeper) :
    Writes k (k.SetState addr key value) := by
  unfold SetState
  split
  · exact Writes.refl k
  split
  · exact Writes.call (StoreCode.Delete rfl) k
  · exact Writes.call (StoreCode.Set rfl _) k

theorem writes_ClearBalance (addr : Address) (k : Keeper) :
    Writes k (k.ClearBalance addr).2 := by
  unfold ClearBalance
  dsimp only
  have hsend := StoreCode.SendCoinsFromAccountToModule k.ModuleAddress addr ModuleName
    (k.view.Amount (.balance addr))
  split
  · split
    · rename_i h₁
      exact writes_of_call hsend h₁
    · rename_i k₁ h₁
      have hburn := StoreCode.BurnCoins k₁.ModuleAddress ModuleName (k.view.Amount (.balance addr))
      split
      · rename_i h₂
        exact (writes_of_call hsend h₁).trans (writes_of_call hburn h₂)
      · rename_i h₂
        exact (writes_of_call hsend h₁).trans (writes_of_call hburn h₂)
  · exact Writes.refl k

theorem writes_Suicide (addr : Address) (k : Keeper) : Writes k (k.Suicide addr).2 := by
  unfold Suicide
  split
  · exact Writes.refl k
  split
  · exact Writes.refl k
  have hclear := writes_ClearBalance addr k
  split
  · rename_i h
    rw [h] at hclear
    exact hclear.trans (Writes.stateErr _ _)
  · rename_i h
    rw [h] at hclear
    exact hclear.trans (Writes.call (StoreCode.Set rfl _) _)

theorem writes_AddAddressToAccessList (addr : Address) (k : Keeper) :
    Writes k (k.AddAddressToAccessList addr) := by
  unfold AddAddressToAccessList
  split
  · exact Writes.refl k
  split
  · exact Writes.refl k
  · exact Writes.call (StoreCode.Set rfl _) k

theorem writes_AddSlotToAccessList (addr : Address) (slot : Hash) (k : Keeper) :
    Writes k (k.AddSlotToAccessList addr slot) := by
  unfold AddSlotToAccessList
  split
  · exact Writes.refl k
  have haddr := writes_AddAddressToAccessList addr k
  dsimp only
  split
  · exact haddr
  · exact haddr.trans (Writes.call (StoreCode.Set rfl _) _)

theorem writes_AddRefund {gas : UInt64} {k k' : Keeper} (h : k.AddRefund gas = .ok k') :
    Writes k k' := by
  unfold AddRefund at h
  split at h
  · cases h
    exact Writes.refl k
  · obtain ⟨refund, -, hset⟩ := Except.bind_eq_ok h
    cases hset
    exact writes_setCounter _ _ k

theorem writes_SubRefund {gas : UInt64} {k k' : Keeper} (h : k.SubRefund gas = .ok k') :
    Writes k k' := by
  unfold SubRefund at h
  split at h
  · cases h
    exact Writes.refl k
  · obtain ⟨refund, -, hset⟩ := Except.bind_eq_ok h
    split at hset
    · cases hset
    · cases hset
      exact writes_setCounter _ _ k

theorem writes_AddLog {log : Log} {k k' : Keeper} (h : k.AddLog log = .ok k') :
    Writes k k' := by
  unfold AddLog at h
  split at h
  · cases h
    exact Writes.refl k
  · obtain ⟨txIndex, -, h₁⟩ := Except.bind_eq_ok h
    obtain ⟨logSize, -, h₂⟩ := Except.bind_eq_ok h₁
    obtain ⟨k₁, hk₁, h₃⟩ := Except.bind_eq_ok h₂
    cases h₃
    -- the log size counter, then the log
    have hsize : Writes k k₁ := by
      unfold IncreaseLogSizeTransient at hk₁
      obtain ⟨size, -, hset⟩ := Except.bind_eq_ok hk₁
      cases hset
      exact writes_setCounter _ _ k
    exact hsize.trans (Writes.call (StoreCode.write rfl _) _)


/-! ## Snapshot and RevertToSnapshot -/

theorem journal_Snapshot {k : Keeper} (h : k.stateErr = none) :
    k.Snapshot.2.journal = k.journal.snapshot.2 := by
  have hnot : k.HasStateError = false := by simp [HasStateError, h]
  simp only [Snapshot, hnot]
  exact (ContextStack.journal_Snapshot k.ctxStack).2

theorem journal_RevertToSnapshot {k k' : Keeper} {target : Int} (h : k.stateErr = none)
    (hrev : k.RevertToSnapshot target = .ok k') :
    0 ≤ target ∧ k.journal.revert target.toNat = some k'.journal := by
  have hnot : k.HasStateError = false := by simp [HasStateError, h]
  simp only [RevertToSnapshot, hnot] at hrev
  obtain ⟨cs, hcs, hk'⟩ := Except.bind_eq_ok hrev
  cases hk'
  by_cases hin : target < 0 ∨ k.ctxStack.cachedContexts.length ≤ target
  · obtain ⟨msg, herr⟩ := ContextStack.RevertToSnapshot_error hin
    rw [herr] at hcs
    cases hcs
  · have hnn : 0 ≤ target := by omega
    have hlt : target.toNat < k.ctxStack.cachedContexts.length := by omega
    obtain ⟨cs', hok, hj, -, -⟩ := ContextStack.RevertToSnapshot_of_lt hlt
    have htarget : ((target.toNat : Nat) : Int) = target := Int.toNat_of_nonneg hnn
    rw [htarget, hcs] at hok
    cases hok
    exact ⟨hnn, hj⟩

end Keeper

/-! ## Runs -/

open Keeper

/-- Every call does nothing once the state error is set. -/
theorem Op.exec_of_stateErr (Keccak256 : Bytes → Hash) (op : Op) {k : Keeper}
    (h : k.stateErr.isSome) : op.exec Keccak256 k = .ok k := by
  have herr : k.HasStateError = true := h
  cases op <;>
    simp [Op.exec, Keeper.CreateAccount, Keeper.AddBalance, Keeper.SubBalance, Keeper.SetNonce,
      Keeper.SetCode, Keeper.AddRefund, Keeper.SubRefund, Keeper.SetState, Keeper.Suicide,
      Keeper.AddAddressToAccessList, Keeper.AddSlotToAccessList, Keeper.Snapshot,
      Keeper.RevertToSnapshot, Keeper.AddLog, herr]

theorem Op.run_of_stateErr (Keccak256 : Bytes → Hash) (ops : List Op) {k : Keeper}
    (h : k.stateErr.isSome) : Op.run Keccak256 ops k = .ok k := by
  induction ops with
  | nil => rfl
  | cons op ops ih =>
    simp only [Op.run, Op.exec_of_stateErr Keccak256 op h]
    exact ih

/-- A call ending without a state error started without one. -/
theorem Op.stateErr_of_exec {Keccak256 : Bytes → Hash} {op : Op} {k k' : Keeper}
    (h : op.exec Keccak256 k = .ok k') (h' : k'.stateErr = none) : k.stateErr = none := by
  cases hk : k.stateErr with
  | none => rfl
  | some e =>
    rw [Op.exec_of_stateErr Keccak256 op (by simp [hk])] at h
    cases h
    rw [hk] at h'
    cases h'

/-- A run ending without a state error never had one. -/
theorem Op.stateErr_of_run {Keccak256 : Bytes → Hash} {ops : List Op} {k k' : Keeper}
    (h : Op.run Keccak256 ops k = .ok k') (h' : k'.stateErr = none) : k.stateErr = none := by
  cases hk : k.stateErr with
  | none => rfl
  | some e =>
    rw [Op.run_of_stateErr Keccak256 ops (by simp [hk])] at h
    cases h
    rw [hk] at h'
    cases h'

/-- The journal operation a StateDB call performs, as far as its shape goes. -/
def Op.shape : Op → Journal.Op Unit
  | .Snapshot => .snapshot
  | .RevertToSnapshot target => .revert target.toNat
  | _ => .write id

/-- **What one StateDB call does**: it writes (every call but two), or it is Snapshot, or it is
    RevertToSnapshot. -/
theorem Op.exec_cases {Keccak256 : Bytes → Hash} {op : Op} {k k' : Keeper}
    (h : op.exec Keccak256 k = .ok k') :
    (op.shape = .write id ∧ Writes k k') ∨ (op = .Snapshot ∧ k' = k.Snapshot.2) ∨
      ∃ target, op = .RevertToSnapshot target ∧ k.RevertToSnapshot target = .ok k' := by
  cases op with
  | CreateAccount addr => cases h; exact .inl ⟨rfl, writes_CreateAccount addr k⟩
  | AddBalance addr amount => cases h; exact .inl ⟨rfl, writes_AddBalance addr amount k⟩
  | SubBalance addr amount => cases h; exact .inl ⟨rfl, writes_SubBalance addr amount k⟩
  | SetNonce addr nonce => cases h; exact .inl ⟨rfl, writes_SetNonce addr nonce k⟩
  | SetCode addr code => cases h; exact .inl ⟨rfl, writes_SetCode Keccak256 addr code k⟩
  | AddRefund gas => exact .inl ⟨rfl, writes_AddRefund h⟩
  | SubRefund gas => exact .inl ⟨rfl, writes_SubRefund h⟩
  | SetState addr key value => cases h; exact .inl ⟨rfl, writes_SetState addr key value k⟩
  | Suicide addr => cases h; exact .inl ⟨rfl, writes_Suicide addr k⟩
  | AddAddressToAccessList addr => cases h; exact .inl ⟨rfl, writes_AddAddressToAccessList addr k⟩
  | AddSlotToAccessList addr slot => cases h; exact .inl ⟨rfl, writes_AddSlotToAccessList addr slot k⟩
  | AddLog log => exact .inl ⟨rfl, writes_AddLog h⟩
  | Snapshot =>
    cases h
    exact .inr (.inl ⟨rfl, rfl⟩)
  | RevertToSnapshot target => exact .inr (.inr ⟨target, rfl, h⟩)

/-- One call without a state error performs a journal operation of its shape. -/
theorem Op.journal_exec {Keccak256 : Bytes → Hash} {op : Op} {k k' : Keeper}
    (h : op.exec Keccak256 k = .ok k') (hk : k.stateErr = none) :
    ∃ jop : Journal.Op MultiStore, Journal.exec jop k.journal = some k'.journal ∧ jop.erase = op.shape := by
  rcases Op.exec_cases h with ⟨hshape, hw⟩ | ⟨rfl, rfl⟩ | ⟨target, rfl, hrev⟩
  · obtain ⟨f, hf⟩ := hw.journalWrite
    exact ⟨.write f, by rw [hf]; rfl, by rw [hshape]; rfl⟩
  · exact ⟨.snapshot, by simp [Journal.exec, journal_Snapshot hk], rfl⟩
  · obtain ⟨-, hrev'⟩ := journal_RevertToSnapshot hk hrev
    exact ⟨.revert target.toNat, hrev', rfl⟩

/-- **A StateDB run without a state error is a journal run of the same shape.** -/
theorem Op.journal_run {Keccak256 : Bytes → Hash} {ops : List Op} {k k' : Keeper}
    (h : Op.run Keccak256 ops k = .ok k') (h' : k'.stateErr = none) :
    ∃ jops : List (Journal.Op MultiStore), Journal.run jops k.journal = some k'.journal ∧
      jops.map Journal.Op.erase = ops.map Op.shape := by
  induction ops generalizing k with
  | nil =>
    cases h
    exact ⟨[], rfl, rfl⟩
  | cons op ops ih =>
    obtain ⟨k₁, hop, hrest⟩ := Except.bind_eq_ok h
    -- no state error along the way: it would have stayed to the end
    have hk₁ : k₁.stateErr = none := Op.stateErr_of_run hrest h'
    have hk : k.stateErr = none := Op.stateErr_of_exec hop hk₁
    obtain ⟨jop, hjop, hshape⟩ := Op.journal_exec hop hk
    obtain ⟨jops, hjops, hshapes⟩ := ih hrest
    refine ⟨jop :: jops, ?_, by simp [hshape, hshapes]⟩
    simp [Journal.run, hjop, hjops]

/-- **RevertToSnapshot restores the snapshot's state** when no state error arises: a `Snapshot`,
    then calls that keep it open (every revert among them to a later snapshot), then a revert to
    it, show again the state the snapshot saw and leave the same snapshots open. -/
theorem Op.run_Snapshot_RevertToSnapshot {Keccak256 : Bytes → Hash} {mid : List Op} {k k' : Keeper}
    (hkeep : Journal.KeepsOpen k.ctxStack.cachedContexts.length (mid.map Op.shape))
    (h : Op.run Keccak256 (.Snapshot :: mid ++ [.RevertToSnapshot k.ctxStack.cachedContexts.length]) k =
      .ok k')
    (h' : k'.stateErr = none) :
    k'.view = k.view ∧ k'.ctxStack.cachedContexts.length = k.ctxStack.cachedContexts.length := by
  obtain ⟨jops, hrun, hshape⟩ := Op.journal_run h h'
  -- the journal run is a snapshot, the middle, and the revert
  have hsplit : ∃ jmid, jops = .snapshot :: jmid ++ [.revert k.journal.saved.length] ∧
      jmid.map Journal.Op.erase = mid.map Op.shape := by
    simp only [List.map_append, List.map_cons, List.map_nil, Op.shape, Int.toNat_natCast] at hshape
    obtain ⟨pre, last, rfl, hpre, hlast⟩ := List.map_eq_append_iff.mp hshape
    obtain ⟨a, jmid, rfl, ha, hjmid⟩ := List.map_eq_cons_iff.mp hpre
    obtain ⟨c, rfl, hc⟩ := List.map_eq_singleton_iff.mp hlast
    refine ⟨jmid, ?_, hjmid⟩
    rw [Journal.Op.erase_eq_snapshot.mp ha, Journal.Op.erase_eq_revert.mp hc, length_journal_saved]
  obtain ⟨jmid, rfl, hmid⟩ := hsplit
  have hkeep' : Journal.KeepsOpen k.journal.saved.length jmid := by
    rw [length_journal_saved, ← Journal.keepsOpen_map_erase, hmid]
    exact hkeep
  obtain ⟨hcur, hsaved⟩ := Journal.run_restores hkeep' hrun
  refine ⟨by simpa using hcur, ?_⟩
  have := congrArg List.length hsaved
  simpa [length_journal_saved] using this

end AnconEvm.Evm
