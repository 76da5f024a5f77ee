import AnconEvm.Evm.Invariant
/-
  The keeper as an implementation of go-ethereum's StateDB interface (x/evm/keeper/statedb.go).

  The EVM sees the Ethereum world state: at every address an account with a nonce, a balance, a
  code hash and a storage, and the codes by their hash (`World`).  The keeper keeps none of this
  as such: the nonce and the code hash live in the x/auth account, the balance in x/bank, codes
  and storage slots in the EVM store, each under a key of its own.  `worldOf` reads the world
  state back out of a multistore as the StateDB getters read it, and the results below say that
  each setter of the keeper acts on that world state as the matching operation of `World`: the
  keeper REFINES the world state, one call at a time and over whole runs of calls.

  The statements hold while no state error is set (the calls are no-ops otherwise) and on stores
  that key their accounts (`MultiStore.AccountsKeyed`, which every reachable state does).  A
  balance moves through the EVM module account, by a mint and a send or a send and a burn, and
  the module account's balance comes out where it was.  `SubBalance` is the one setter with two
  outcomes: a debit the address cannot cover is dropped, with no state error.
-/

namespace AnconEvm.Evm

/-! ## The world state -/

/-- An account of the world state. -/
@[ext] structure WorldAccount where
  nonce : UInt64
  balance : Nat
  codeHash : Hash
  storage : Hash → Hash

/-- **The world state** the EVM reads and writes through the StateDB interface: an account at
    every address, and the codes by their hash. -/
@[ext] structure World where
  account : Address → WorldAccount
  code : Hash → Bytes

namespace World

/-- The code of an account: the code its code hash names. -/
def codeOf (w : World) (addr : Address) : Bytes := w.code (w.account addr).codeHash

/-- Change the account at one address. -/
def modify (addr : Address) (f : WorldAccount → WorldAccount) (w : World) : World :=
  { w with account := Function.update w.account addr (f (w.account addr)) }

/-- Set a storage slot of an account. -/
def setStorage (addr : Address) (key value : Hash) (w : World) : World :=
  w.modify addr fun acc => { acc with storage := Function.update acc.storage key value }

/-- Set the nonce of an account. -/
def setNonce (addr : Address) (nonce : UInt64) (w : World) : World :=
  w.modify addr fun acc => { acc with nonce := nonce }

/-- Set the balance of an account. -/
def setBalance (addr : Address) (balance : Nat) (w : World) : World :=
  w.modify addr fun acc => { acc with balance := balance }

/-- Credit an account. -/
def addBalance (addr : Address) (amt : Nat) (w : World) : World :=
  w.setBalance addr ((w.account addr).balance + amt)

/-- Debit an account. -/
def subBalance (addr : Address) (amt : Nat) (w : World) : World :=
  w.setBalance addr ((w.account addr).balance - amt)

/-- Store a code under its hash. -/
def storeCode (hash : Hash) (code : Bytes) (w : World) : World :=
  { w with code := Function.update w.code hash code }

/-- Give an account a code: store it under its hash, and make the hash the account's. -/
def setCode (addr : Address) (hash : Hash) (code : Bytes) (w : World) : World :=
  (w.modify addr fun acc => { acc with codeHash := hash }).storeCode hash code

@[simp] theorem account_modify (addr a : Address) (f : WorldAccount → WorldAccount) (w : World) :
    (w.modify addr f).account a = if a = addr then f (w.account addr) else w.account a := by
  simp only [modify, Function.update_apply]

@[simp] theorem code_modify (addr : Address) (f : WorldAccount → WorldAccount) (w : World) :
    (w.modify addr f).code = w.code := rfl

theorem modify_congr {addr : Address} {f g : WorldAccount → WorldAccount} {w : World}
    (h : f (w.account addr) = g (w.account addr)) : w.modify addr f = w.modify addr g := by
  rw [modify, modify, h]

theorem modify_of_eq {addr : Address} {f : WorldAccount → WorldAccount} {w : World}
    (h : f (w.account addr) = w.account addr) : w.modify addr f = w := by
  rw [modify, h, Function.update_eq_self]

theorem modify_modify (addr : Address) (f g : WorldAccount → WorldAccount) (w : World) :
    (w.modify addr f).modify addr g = w.modify addr (g ∘ f) := by
  apply World.ext
  · funext a
    simp only [account_modify, if_true, Function.comp_apply]
    split <;> rfl
  · rfl

/-- **A debit undoes a credit** of the same account. -/
theorem subBalance_addBalance (addr : Address) (amt : Nat) (w : World) :
    (w.addBalance addr amt).subBalance addr amt = w := by
  have hbal : ((w.addBalance addr amt).account addr).balance - amt = (w.account addr).balance := by
    simp [addBalance, setBalance]
  rw [subBalance, hbal, addBalance, setBalance, setBalance, modify_modify]
  exact modify_of_eq rfl

@[simp] theorem addBalance_zero (addr : Address) (w : World) : w.addBalance addr 0 = w := by
  rw [addBalance, setBalance, Nat.add_zero]
  exact modify_of_eq rfl

end World

/-! ## The world state in the multistore -/

/-- The nonce GetNonce reads off a stored account: its sequence, zero for none. -/
def nonceOf : Option Account → UInt64
  | some acc => acc.sequence
  | none => 0

/-- The code hash GetCodeHash reads off a stored account: an EthAccount's code hash, the empty
    code hash for any other account and for none. -/
def codeHashOf : Option Account → Hash
  | some acc =>
    match acc.type with
    | .eth codeHash => HexToHash codeHash
    | _ => EmptyCodeHash
  | none => EmptyCodeHash

/-- A new account has no code. -/
@[simp] theorem codeHashOf_NewAccountWithAddress (addr : Address) :
    codeHashOf (some (Auth.NewAccountWithAddress addr)) = EmptyCodeHash :=
  HexToHash_Hex EmptyCodeHash

/-- **The world state of a multistore**, as the StateDB getters read it: the nonce and the code
    hash from the x/auth account, the balance from x/bank, the slots and the codes from the EVM
    store (an unset slot reads as zero, and the empty code hash names no code). -/
def worldOf (s : MultiStore) : World where
  account addr :=
    { nonce := nonceOf (s.Account? addr)
      balance := s.Amount (.balance addr)
      codeHash := codeHashOf (s.Account? addr)
      storage := Keeper.doGetState s addr }
  code hash := if hash = EmptyCodeHash then [] else s.Get (.evm (KeyPrefixCode ++ hash.Bytes))

/-- The world state Ctx() shows. -/
def Keeper.world (k : Keeper) : World := worldOf k.view

/-- **The getters read the world state** of Ctx() while no state error is set. -/
theorem Keeper.getters_world {k : Keeper} (hk : k.stateErr = none) (addr : Address) (key : Hash) :
    k.GetNonce addr = (k.world.account addr).nonce ∧
      k.GetBalance addr = (k.world.account addr).balance ∧
      k.GetCodeHash addr = (k.world.account addr).codeHash ∧
      k.GetCode addr = k.world.codeOf addr ∧
      k.GetState addr key = (k.world.account addr).storage key := by
  have hnot : k.HasStateError = false := by simp [HasStateError, hk]
  have hhash : k.GetCodeHash addr = (k.world.account addr).codeHash := by
    rw [GetCodeHash, if_neg (by simp [hnot])]
    show _ = codeHashOf (k.view.Account? addr)
    cases k.view.Account? addr with
    | none => rfl
    | some acc => rfl
  refine ⟨?_, ?_, hhash, ?_, ?_⟩
  · rw [GetNonce, if_neg (by simp [hnot])]
    rfl
  · rw [GetBalance, if_neg (by simp [hnot])]
    rfl
  · rw [GetCode, if_neg (by simp [hnot])]
    dsimp only
    rw [hhash]
    rfl
  · rw [GetState, if_neg (by simp [hnot])]
    rfl

/-! ## Writes of the multistore on the world state

  Each key of the multistore holds one part of the world state, and a write shows in that part
  only: the storage slots and the codes have keys of their own in the EVM store (`KeyPrefixStorage`
  and `KeyPrefixCode`), and the transient store and the supply hold none of it. -/

section Writes

variable (s : MultiStore)

/-- **The world state is read through three lookups**: the accounts, the balances and the EVM
    store; two multistores that agree on them show the same world state. -/
theorem worldOf_congr {s s' : MultiStore} (hacc : ∀ a, s'.Account? a = s.Account? a)
    (hbal : ∀ a, s'.Amount (.balance a) = s.Amount (.balance a))
    (hget : ∀ key, s'.Get (.evm key) = s.Get (.evm key)) : worldOf s' = worldOf s := by
  have hstate : Keeper.doGetState s' = Keeper.doGetState s := by
    funext addr key
    simp only [Keeper.doGetState, hget]
  simp only [worldOf, hacc, hbal, hget, hstate]

/-- A write outside the accounts, the balances and the EVM store leaves the world state. -/
theorem worldOf_set_of_ne {key : MultiKey} (v : MultiValue) (hacc : ∀ a, key ≠ .account a)
    (hbal : ∀ a, key ≠ .balance a) (hevm : ∀ bz, key ≠ .evm bz) :
    worldOf ((KV.Delta.set key v : MultiDelta) • s) = worldOf s :=
  worldOf_congr (fun a => MultiStore.Account?_smul_set_of_ne v s (hacc a))
    (fun a => MultiStore.Amount_smul_set_of_ne v s (hbal a))
    (fun bz => MultiStore.Get_smul_set_of_ne v s (hevm bz))

/-- The key of a storage slot: the slot's bytes under the account's storage prefix. -/
theorem slotKey_injective {addr addr' : Address} {key key' : Hash}
    (h : AddressStoragePrefix addr ++ key.Bytes = AddressStoragePrefix addr' ++ key'.Bytes) :
    addr = addr' ∧ key = key' := by
  obtain ⟨hpre, hkey⟩ := List.append_inj h (by simp [AddressStoragePrefix, KeyPrefixStorage])
  have haddr : addr.Bytes = addr'.Bytes := by
    simpa [AddressStoragePrefix, KeyPrefixStorage] using hpre
  exact ⟨Address.Bytes_injective haddr, Hash.Bytes_injective hkey⟩

theorem codeKey_injective {hash hash' : Hash}
    (h : KeyPrefixCode ++ hash.Bytes = KeyPrefixCode ++ hash'.Bytes) : hash = hash' :=
  Hash.Bytes_injective (List.append_cancel_left h)

/-- No code key is a slot key: their prefixes differ. -/
theorem codeKey_ne_slotKey (hash : Hash) (addr : Address) (key : Hash) :
    KeyPrefixCode ++ hash.Bytes ≠ AddressStoragePrefix addr ++ key.Bytes := by
  simp [KeyPrefixCode, AddressStoragePrefix, KeyPrefixStorage]

/-- The slot `key` of `addr` after a write of `bz` to the slot key of `(addr', key')`. -/
theorem doGetState_set_slot (addr' : Address) (key' : Hash) (bz : Bytes) (addr : Address)
    (key : Hash) :
    Keeper.doGetState ((KV.Delta.set (.evm (AddressStoragePrefix addr' ++ key'.Bytes)) (.bytes bz) :
      MultiDelta) • s) addr key =
      if addr = addr' ∧ key = key' then (if bz.length = 0 then 0 else BytesToHash bz)
      else Keeper.doGetState s addr key := by
  unfold Keeper.doGetState
  rw [MultiStore.Get_smul_set_bytes]
  by_cases h : addr = addr' ∧ key = key'
  · obtain ⟨rfl, rfl⟩ := h
    simp only [and_self, if_true]
  · -- another slot has another key
    have hne : MultiKey.evm (AddressStoragePrefix addr' ++ key'.Bytes) ≠
        .evm (AddressStoragePrefix addr ++ key.Bytes) := by
      intro heq
      obtain ⟨rfl, rfl⟩ := slotKey_injective (MultiKey.evm.inj heq)
      exact h ⟨rfl, rfl⟩
    rw [if_neg h, if_neg hne]

/-- **A slot write sets the slot** to the hash its bytes read as, and nothing else of the world
    state. -/
theorem worldOf_set_slot (addr : Address) (key : Hash) (bz : Bytes) :
    worldOf ((KV.Delta.set (.evm (AddressStoragePrefix addr ++ key.Bytes)) (.bytes bz) :
      MultiDelta) • s) =
      (worldOf s).setStorage addr key (if bz.length = 0 then 0 else BytesToHash bz) := by
  apply World.ext
  · funext a
    rw [World.setStorage, World.account_modify]
    simp only [worldOf, MultiStore.Account?_smul_set_of_ne _ s (by simp : MultiKey.evm _ ≠ .account a),
      MultiStore.Amount_smul_set_of_ne _ s (by simp : MultiKey.evm _ ≠ .balance a)]
    split
    · -- the slots of `addr`: the written one changes
      rename_i ha
      subst ha
      congr 1
      funext key'
      rw [doGetState_set_slot, Function.update_apply]
      by_cases hk : key' = key <;> simp [hk]
    · rename_i ha
      congr 1
      funext key'
      rw [doGetState_set_slot, if_neg (fun h => ha h.1)]
  · funext hash
    simp only [worldOf, World.setStorage, World.code_modify, MultiStore.Get_smul_set_bytes,
      MultiKey.evm.injEq, if_neg (codeKey_ne_slotKey hash addr key).symm]

/-- **A slot deletion zeroes the slot**: it reads as a write of no bytes. -/
theorem worldOf_delete_slot (addr : Address) (key : Hash) :
    worldOf ((KV.Delta.delete (.evm (AddressStoragePrefix addr ++ key.Bytes)) : MultiDelta) • s) =
      (worldOf s).setStorage addr key 0 := by
  have hempty := worldOf_set_slot s addr key []
  rw [List.length_nil, if_pos rfl] at hempty
  rw [← hempty]
  apply worldOf_congr
  · intro a
    rw [MultiStore.Account?_smul_delete_of_ne s (by simp), MultiStore.Account?_smul_set_of_ne _ s (by simp)]
  · intro a
    rw [MultiStore.Amount_smul_delete_of_ne s (by simp), MultiStore.Amount_smul_set_of_ne _ s (by simp)]
  · intro key'
    rw [MultiStore.Get_smul_delete, MultiStore.Get_smul_set_bytes]

/-- **A code write stores the code** under its hash; the empty code hash names no code, whatever
    is stored under it. -/
theorem worldOf_set_code (hash : Hash) (code : Bytes) :
    worldOf ((KV.Delta.set (.evm (KeyPrefixCode ++ hash.Bytes)) (.bytes code) : MultiDelta) • s) =
      (worldOf s).storeCode hash (if hash = EmptyCodeHash then [] else code) := by
  apply World.ext
  · funext a
    simp only [worldOf, World.storeCode,
      MultiStore.Account?_smul_set_of_ne _ s (by simp : MultiKey.evm _ ≠ .account a),
      MultiStore.Amount_smul_set_of_ne _ s (by simp : MultiKey.evm _ ≠ .balance a)]
    congr 1
    funext key
    simp only [Keeper.doGetState, MultiStore.Get_smul_set_bytes, MultiKey.evm.injEq,
      if_neg (codeKey_ne_slotKey hash a key)]
  · funext hash'
    simp only [worldOf, World.storeCode, Function.update_apply, MultiStore.Get_smul_set_bytes,
      MultiKey.evm.injEq]
    by_cases h : hash' = hash
    · subst h
      simp
    · have hne : KeyPrefixCode ++ hash.Bytes ≠ KeyPrefixCode ++ hash'.Bytes :=
        fun heq => h (codeKey_injective heq).symm
      simp [h, hne]

/-- **A code deletion removes the code** under its hash: it reads as a write of no bytes. -/
theorem worldOf_delete_code (hash : Hash) :
    worldOf ((KV.Delta.delete (.evm (KeyPrefixCode ++ hash.Bytes)) : MultiDelta) • s) =
      (worldOf s).storeCode hash [] := by
  have hempty := worldOf_set_code s hash []
  rw [ite_self] at hempty
  rw [← hempty]
  apply worldOf_congr
  · intro a
    rw [MultiStore.Account?_smul_delete_of_ne s (by simp), MultiStore.Account?_smul_set_of_ne _ s (by simp)]
  · intro a
    rw [MultiStore.Amount_smul_delete_of_ne s (by simp), MultiStore.Amount_smul_set_of_ne _ s (by simp)]
  · intro key
    rw [MultiStore.Get_smul_delete, MultiStore.Get_smul_set_bytes]

/-- **An account write sets the account's nonce and code hash.** -/
theorem worldOf_set_account (addr : Address) (acc : Account) :
    worldOf ((KV.Delta.set (.account addr) (.account acc) : MultiDelta) • s) =
      (worldOf s).modify addr fun a =>
        { a with nonce := acc.sequence, codeHash := codeHashOf (some acc) } := by
  apply World.ext
  · funext a
    have hstate : Keeper.doGetState ((KV.Delta.set (.account addr) (.account acc) : MultiDelta) • s) a =
        Keeper.doGetState s a := by
      funext key
      simp only [Keeper.doGetState, MultiStore.Get_smul_set_of_ne _ s (by simp : MultiKey.account addr ≠ .evm _)]
    rw [World.account_modify]
    simp only [worldOf, hstate, MultiStore.Account?_smul_set_account,
      MultiStore.Amount_smul_set_of_ne _ s (by simp : MultiKey.account addr ≠ .balance a)]
    by_cases ha : a = addr
    · subst ha
      simp [nonceOf]
    · simp [ha, Ne.symm ha]
  · funext hash
    simp only [worldOf, World.code_modify,
      MultiStore.Get_smul_set_of_ne _ s (by simp : MultiKey.account addr ≠ .evm _)]

/-- **A new account shows no change**: an address without account has nonce zero and no code,
    as a new account with sequence zero and no code has. -/
theorem worldOf_set_new_account {addr : Address} {acc : Account} (hnone : s.Account? addr = none)
    (hseq : acc.sequence = 0) (hcode : codeHashOf (some acc) = EmptyCodeHash) :
    worldOf ((KV.Delta.set (.account addr) (.account acc) : MultiDelta) • s) = worldOf s := by
  rw [worldOf_set_account]
  apply World.modify_of_eq
  simp only [worldOf, hnone, hseq, hcode]
  rfl

/-- **A balance write sets the balance.** -/
theorem worldOf_set_balance (addr : Address) (n : Nat) :
    worldOf ((KV.Delta.set (.balance addr) (.amount n) : MultiDelta) • s) =
      (worldOf s).setBalance addr n := by
  apply World.ext
  · funext a
    have hstate : Keeper.doGetState ((KV.Delta.set (.balance addr) (.amount n) : MultiDelta) • s) a =
        Keeper.doGetState s a := by
      funext key
      simp only [Keeper.doGetState, MultiStore.Get_smul_set_of_ne _ s (by simp : MultiKey.balance addr ≠ .evm _)]
    rw [World.setBalance, World.account_modify]
    simp only [worldOf, hstate, MultiStore.Amount_smul_set_amount, MultiKey.balance.injEq,
      MultiStore.Account?_smul_set_of_ne _ s (by simp : MultiKey.balance addr ≠ .account a)]
    by_cases ha : a = addr
    · subst ha
      simp
    · simp [ha, Ne.symm ha]
  · funext hash
    simp only [worldOf, World.setBalance, World.code_modify,
      MultiStore.Get_smul_set_of_ne _ s (by simp : MultiKey.balance addr ≠ .evm _)]

/-- The supply is no part of the world state. -/
theorem worldOf_set_supply (n : Nat) :
    worldOf ((KV.Delta.set .supply (.amount n) : MultiDelta) • s) = worldOf s :=
  worldOf_set_of_ne s _ (fun _ => by simp) (fun _ => by simp) (fun _ => by simp)

end Writes

end AnconEvm.Evm
