import AnconEvm.App.MultiStore
/-
  The x/auth and x/bank keepers of cosmos-sdk v0.44.1 (the version src/go.mod pins: the account
  keeper's x/auth/keeper/account.go and keeper.go, the bank keeper's x/bank/keeper/send.go,
  view.go and keeper.go), as the EVM module and the ante handler call them, over the EVM
  denomination.

  The bank keeps a balance per address and the total supply.  `SendCoins` moves coins and fails
  on insufficient funds, creating the recipient's account if it has none;
  `SendCoinsFromModuleToAccount` refuses a BLOCKED recipient (the app blocks every module account
  but the distribution module's, `app.BlockedAddrs`); `MintCoins` and `BurnCoins` change a module
  account's balance and the supply together.  A module account's address is the hash of its name,
  which is the parameter `ModuleAddress`.

  The SDK panics on an unregistered module or a missing permission; the app registers the modules
  with the permissions of `maccPerms`, so these panics are never reached from the code modelled
  here, and they are errors of the computation like the others.
-/

namespace AnconEvm

open Buffered

/-- The module account permissions the app registers (app.go maccPerms). -/
def maccPerms : List (String × List String) :=
  [("fee_collector", []), ("distribution", []), ("mint", ["minter"]),
    ("bonded_tokens_pool", ["burner", "staking"]), ("not_bonded_tokens_pool", ["burner", "staking"]),
    ("gov", ["burner"]), ("transfer", ["minter", "burner"]), ("evm", ["minter", "burner"])]

/-- authtypes.FeeCollectorName. -/
def FeeCollectorName : String := "fee_collector"

/-- The EVM module's name. -/
def ModuleName : String := "evm"

section

variable (ModuleAddress : String → Address)

/-- app.BlockedAddrs: the module accounts that may not receive coins, all but distribution's. -/
def BlockedAddr (addr : Address) : Bool :=
  maccPerms.any fun m => m.1 != "distribution" && ModuleAddress m.1 == addr

namespace Auth

/-- AccountKeeper.GetAccount. -/
def GetAccount (addr : Address) : StoreM (Option Account) := do
  return (← read).Account? addr

/-- AccountKeeper.HasAccount. -/
def HasAccount (addr : Address) : StoreM Bool := do
  return ((← read).Account? addr).isSome

/-- AccountKeeper.SetAccount. -/
def SetAccount (acc : Account) : StoreM Unit :=
  write (KV.Delta.set (.account acc.address) (.account acc))

theorem GetAccount_apply (addr : Address) (s : MultiStore) :
    GetAccount addr s = .ok (s.Account? addr, 1) := by
  show (Buffered.read >>= fun (s : MultiStore) => pure (s.Account? addr)) s = _
  rw [bind_pure_apply, read_apply]
  rfl

theorem HasAccount_apply (addr : Address) (s : MultiStore) :
    HasAccount addr s = .ok ((s.Account? addr).isSome, 1) := by
  show (Buffered.read >>= fun (s : MultiStore) => pure (s.Account? addr).isSome) s = _
  rw [bind_pure_apply, read_apply]
  rfl

/-- AccountKeeper.NewAccountWithAddress: the app's proto account (ethermint.ProtoAccount), an
    EthAccount with the empty code hash and sequence zero. -/
def NewAccountWithAddress (addr : Address) : Account :=
  ⟨addr, 0, .eth EmptyCodeHash.Hex⟩

/-- AccountKeeper.GetSequence: fails for an address without account. -/
def GetSequence (addr : Address) : StoreM (Except String UInt64) := do
  match ← GetAccount addr with
  | some acc => return .ok acc.sequence
  | none => return .error ("account " ++ addr.Hex ++ " does not exist")

/-- AccountKeeper.GetModuleAccount: the module's account, created when missing. -/
def GetModuleAccount (name : String) : StoreM Account := do
  let addr := ModuleAddress name
  match ← GetAccount addr with
  | some acc =>
    match acc.type with
    | .module _ => return acc
    | _ => fail ("account is not a module account: " ++ name)
  | none =>
    let acc : Account := ⟨addr, 0, .module name⟩
    SetAccount acc
    return acc

/-- **What GetModuleAccount can do**: return the module's stored account and write nothing, or
    store a new module account where there was none. -/
theorem GetModuleAccount_eq_ok {name : String} {s : MultiStore} {acc : Account} {d : MultiDelta}
    (h : GetModuleAccount ModuleAddress name s = .ok (acc, d)) :
    (s.Account? (ModuleAddress name) = some acc ∧ d • s = s) ∨
      (s.Account? (ModuleAddress name) = none ∧ acc = ⟨ModuleAddress name, 0, .module name⟩ ∧
        d • s = (KV.Delta.set (.account (ModuleAddress name)) (.account acc) : MultiDelta) • s) := by
  unfold GetModuleAccount at h
  rw [bind_apply_of_read (GetAccount_apply _ s)] at h
  cases hacc : s.Account? (ModuleAddress name) with
  | some stored =>
    rw [hacc] at h
    left
    -- a stored account of another type is refused
    cases htype : stored.type <;> simp only [htype, pure_apply, fail_apply, reduceCtorEq] at h
    obtain ⟨rfl, rfl⟩ := Prod.mk.inj (Except.ok.inj h)
    exact ⟨rfl, one_smul _ s⟩
  | none =>
    rw [hacc] at h
    dsimp only at h
    right
    obtain ⟨⟨⟩, d₁, d₂, h₁, h₂, hd⟩ := Buffered.bind_eq_ok h
    rw [SetAccount, write_apply] at h₁
    rw [pure_apply] at h₂
    obtain ⟨-, rfl⟩ := Prod.mk.inj (Except.ok.inj h₁)
    obtain ⟨rfl, rfl⟩ := Prod.mk.inj (Except.ok.inj h₂)
    exact ⟨rfl, rfl, by rw [hd, one_mul]⟩

/-- On a store that keys its accounts, the module account found is the one at the module's
    address. -/
theorem GetModuleAccount_address {name : String} {s : MultiStore} {acc : Account} {d : MultiDelta}
    (hs : MultiStore.AccountsKeyed s) (h : GetModuleAccount ModuleAddress name s = .ok (acc, d)) :
    acc.address = ModuleAddress name := by
  rcases GetModuleAccount_eq_ok ModuleAddress h with ⟨hacc, -⟩ | ⟨-, rfl, -⟩
  · exact hs _ _ hacc
  · rfl

end Auth

namespace Bank

/-- BankKeeper.GetBalance. -/
def GetBalance (addr : Address) : StoreM Nat := do
  return (← read).Amount (.balance addr)

theorem GetBalance_apply (addr : Address) (s : MultiStore) :
    GetBalance addr s = .ok (s.Amount (.balance addr), 1) := by
  show (Buffered.read >>= fun (s : MultiStore) => pure (s.Amount (.balance addr))) s = _
  rw [bind_pure_apply, read_apply]
  rfl

/-- The bank's setBalance. -/
def setBalance (addr : Address) (amt : Nat) : StoreM Unit :=
  write (KV.Delta.set (.balance addr) (.amount amt))

/-- The supply of the EVM denomination. -/
def GetSupply : StoreM Nat := do
  return (← read).Amount .supply

theorem GetSupply_apply (s : MultiStore) : GetSupply s = .ok (s.Amount .supply, 1) := by
  show (Buffered.read >>= fun (s : MultiStore) => pure (s.Amount .supply)) s = _
  rw [bind_pure_apply, read_apply]
  rfl

/-- The bank's setSupply. -/
def setSupply (amt : Nat) : StoreM Unit :=
  write (KV.Delta.set .supply (.amount amt))

/-- subUnlockedCoins: invalid (zero) coins and insufficient funds fail. -/
def subUnlockedCoins (addr : Address) (amt : Nat) : StoreM Unit := do
  if amt = 0 then fail "invalid coins"
  let balance ← GetBalance addr
  if balance < amt then fail "insufficient funds"
  setBalance addr (balance - amt)

theorem subUnlockedCoins_apply (addr : Address) (amt : Nat) (s : MultiStore) :
    subUnlockedCoins addr amt s =
      if amt = 0 then .error "invalid coins"
      else if s.Amount (.balance addr) < amt then .error "insufficient funds"
      else .ok ((), KV.Delta.set (.balance addr) (.amount (s.Amount (.balance addr) - amt))) := by
  unfold subUnlockedCoins
  dsimp only
  by_cases h0 : amt = 0
  · rw [if_pos h0, if_pos h0]
    exact bind_apply_error (fail_apply _ s)
  · rw [if_neg h0, if_neg h0, bind_apply_of_read (GetBalance_apply addr s)]
    by_cases hlt : s.Amount (.balance addr) < amt
    · rw [if_pos hlt, if_pos hlt]
      exact bind_apply_error (fail_apply _ s)
    · rw [if_neg hlt, if_neg hlt]
      rfl

/-- addCoins: invalid (zero) coins fail. -/
def addCoins (addr : Address) (amt : Nat) : StoreM Unit := do
  if amt = 0 then fail "invalid coins"
  let balance ← GetBalance addr
  setBalance addr (balance + amt)

theorem addCoins_apply (addr : Address) (amt : Nat) (s : MultiStore) :
    addCoins addr amt s =
      if amt = 0 then .error "invalid coins"
      else .ok ((), KV.Delta.set (.balance addr) (.amount (s.Amount (.balance addr) + amt))) := by
  unfold addCoins
  dsimp only
  by_cases h0 : amt = 0
  · rw [if_pos h0, if_pos h0]
    exact bind_apply_error (fail_apply _ s)
  · rw [if_neg h0, if_neg h0, bind_apply_of_read (GetBalance_apply addr s)]
    rfl

/-- **No coins move**: the balances and the supply stay, the stored accounts stay, and an account
    the step stores is stored under its own address. -/
structure CoinsKept (s s' : MultiStore) : Prop where
  balance : ∀ addr, s'.Amount (.balance addr) = s.Amount (.balance addr)
  supply : s'.Amount .supply = s.Amount .supply
  accounts : MultiStore.AccountsKept s s'
  keyed : MultiStore.AccountsKeyed s → MultiStore.AccountsKeyed s'

theorem CoinsKept.refl (s : MultiStore) : CoinsKept s s :=
  ⟨fun _ => rfl, rfl, MultiStore.AccountsKept.refl s, id⟩

theorem CoinsKept.trans {s₁ s₂ s₃ : MultiStore} (h₁₂ : CoinsKept s₁ s₂) (h₂₃ : CoinsKept s₂ s₃) :
    CoinsKept s₁ s₃ :=
  ⟨fun addr => (h₂₃.balance addr).trans (h₁₂.balance addr), h₂₃.supply.trans h₁₂.supply,
    h₁₂.accounts.trans h₂₃.accounts, h₂₃.keyed ∘ h₁₂.keyed⟩

/-- A write outside the bank and the accounts moves no coins. -/
theorem coinsKept_set_of_ne {k : MultiKey} (v : MultiValue) (s : MultiStore)
    (hbalance : ∀ addr, k ≠ .balance addr) (hsupply : k ≠ .supply) (haccount : ∀ addr, k ≠ .account addr) :
    CoinsKept s ((KV.Delta.set k v : MultiDelta) • s) :=
  ⟨fun addr => MultiStore.Amount_smul_set_of_ne v s (hbalance addr),
    MultiStore.Amount_smul_set_of_ne v s hsupply, MultiStore.accountsKept_set_of_ne v s haccount,
    MultiStore.accountsKeyed_set_of_ne v haccount⟩

/-- Storing a new account under its own address moves no coins. -/
theorem coinsKept_set_account (acc : Account) {s : MultiStore} (hnew : s.Account? acc.address = none) :
    CoinsKept s ((KV.Delta.set (.account acc.address) (.account acc) : MultiDelta) • s) :=
  ⟨fun addr => MultiStore.Amount_smul_set_of_ne _ s (by simp),
    MultiStore.Amount_smul_set_of_ne _ s (by simp), MultiStore.accountsKept_set_account acc hnew,
    MultiStore.accountsKeyed_set_account acc⟩

/-- Finding (or creating) a module account moves no coins. -/
theorem GetModuleAccount_coinsKept {name : String} {s : MultiStore} {acc : Account} {d : MultiDelta}
    (h : Auth.GetModuleAccount ModuleAddress name s = .ok (acc, d)) : CoinsKept s (d • s) := by
  rcases Auth.GetModuleAccount_eq_ok ModuleAddress h with ⟨-, hs⟩ | ⟨hnone, rfl, hs⟩
  · rw [hs]
    exact CoinsKept.refl s
  · rw [hs]
    exact coinsKept_set_account ⟨ModuleAddress name, 0, .module name⟩ hnone

/-- **A transfer of `amt` coins from `fromAddr` to `toAddr`**, as the bank's state shows it: the
    sender's balance goes down and the recipient's up (neither moves when they are one address),
    the supply stays, the stored accounts stay, and an account the transfer stores is stored under
    its own address. -/
structure Transferred (fromAddr toAddr : Address) (amt : Nat) (s s' : MultiStore) : Prop where
  balance : ∀ addr, s'.Amount (.balance addr) + (if addr = fromAddr then amt else 0) =
    s.Amount (.balance addr) + (if addr = toAddr then amt else 0)
  supply : s'.Amount .supply = s.Amount .supply
  accounts : MultiStore.AccountsKept s s'
  keyed : MultiStore.AccountsKeyed s → MultiStore.AccountsKeyed s'

/-- A step that moves no coins before a transfer. -/
theorem Transferred.coinsKept_left {fromAddr toAddr : Address} {amt : Nat} {s₀ s s' : MultiStore}
    (h₀ : CoinsKept s₀ s) (h : Transferred fromAddr toAddr amt s s') :
    Transferred fromAddr toAddr amt s₀ s' :=
  ⟨fun addr => by rw [h.balance addr, h₀.balance addr], h.supply.trans h₀.supply,
    h₀.accounts.trans h.accounts, h.keyed ∘ h₀.keyed⟩

/-- A step that moves no coins after a transfer. -/
theorem Transferred.coinsKept_right {fromAddr toAddr : Address} {amt : Nat} {s s' s₁ : MultiStore}
    (h : Transferred fromAddr toAddr amt s s') (h₁ : CoinsKept s' s₁) :
    Transferred fromAddr toAddr amt s s₁ :=
  ⟨fun addr => by rw [h₁.balance addr, h.balance addr], h₁.supply.trans h.supply,
    h.accounts.trans h₁.accounts, h₁.keyed ∘ h.keyed⟩

/-- `amt` coins are created at `addr`: its balance and the supply grow by `amt`. -/
structure Minted (addr : Address) (amt : Nat) (s s' : MultiStore) : Prop where
  balance : ∀ a, s'.Amount (.balance a) = s.Amount (.balance a) + if a = addr then amt else 0
  supply : s'.Amount .supply = s.Amount .supply + amt

/-- `amt` coins are destroyed at `addr`: its balance and the supply shrink by `amt`. -/
structure Burned (addr : Address) (amt : Nat) (s s' : MultiStore) : Prop where
  balance : ∀ a, s'.Amount (.balance a) + (if a = addr then amt else 0) = s.Amount (.balance a)
  supply : s'.Amount .supply = s.Amount .supply - amt

theorem Minted.coinsKept_left {addr : Address} {amt : Nat} {s₀ s s' : MultiStore}
    (h₀ : CoinsKept s₀ s) (h : Minted addr amt s s') : Minted addr amt s₀ s' :=
  ⟨fun a => by rw [h.balance a, h₀.balance a], by rw [h.supply, h₀.supply]⟩

theorem Burned.coinsKept_left {addr : Address} {amt : Nat} {s₀ s s' : MultiStore}
    (h₀ : CoinsKept s₀ s) (h : Burned addr amt s s') : Burned addr amt s₀ s' :=
  ⟨fun a => by rw [h.balance a, h₀.balance a], by rw [h.supply, h₀.supply]⟩

/-- **The two writes of a mint**: the balance plus `amt`, then the supply plus `amt`. -/
theorem minted_set_balance_supply (addr : Address) (amt : Nat) (s : MultiStore) :
    let s₁ := (KV.Delta.set (.balance addr) (.amount (s.Amount (.balance addr) + amt)) :
      MultiDelta) • s
    Minted addr amt s ((KV.Delta.set .supply (.amount (s₁.Amount .supply + amt)) : MultiDelta) • s₁) := by
  intro s₁
  refine ⟨fun a => ?_, by simp [s₁]⟩
  simp only [s₁, MultiStore.Amount_smul_set_amount, MultiKey.balance.injEq, reduceCtorEq, if_false]
  by_cases ha : addr = a
  · subst ha
    simp
  · simp [ha, Ne.symm ha]

/-- **The two writes of a burn**: the balance less `amt`, then the supply less `amt`. -/
theorem burned_set_balance_supply (addr : Address) {amt : Nat} (s : MultiStore)
    (hamt : amt ≤ s.Amount (.balance addr)) :
    let s₁ := (KV.Delta.set (.balance addr) (.amount (s.Amount (.balance addr) - amt)) :
      MultiDelta) • s
    Burned addr amt s ((KV.Delta.set .supply (.amount (s₁.Amount .supply - amt)) : MultiDelta) • s₁) := by
  intro s₁
  refine ⟨fun a => ?_, by simp [s₁]⟩
  simp only [s₁, MultiStore.Amount_smul_set_amount, MultiKey.balance.injEq, reduceCtorEq, if_false]
  by_cases ha : addr = a
  · subst ha
    simp only [if_true]
    omega
  · simp [ha, Ne.symm ha]

/-- **The two balance writes of a send transfer**: the sender's balance less `amt`, then the
    recipient's (as the first write left it) plus `amt`. -/
theorem transferred_set_balances (fromAddr toAddr : Address) {amt : Nat} (s : MultiStore)
    (hamt : amt ≤ s.Amount (.balance fromAddr)) :
    let s₁ := (KV.Delta.set (.balance fromAddr) (.amount (s.Amount (.balance fromAddr) - amt)) :
      MultiDelta) • s
    Transferred fromAddr toAddr amt s
      ((KV.Delta.set (.balance toAddr) (.amount (s₁.Amount (.balance toAddr) + amt)) : MultiDelta) • s₁) := by
  intro s₁
  refine ⟨fun addr => ?_, by simp [s₁], ?_, fun hs => ?_⟩
  · simp only [s₁, MultiStore.Amount_smul_set_amount, MultiKey.balance.injEq]
    -- the recipient, the sender, or another address; the first two may be one
    by_cases ht : toAddr = addr
    · subst ht
      by_cases hf : fromAddr = toAddr
      · subst hf
        simp only [if_true]
        omega
      · simp only [hf, Ne.symm hf, if_true, if_false, Nat.add_zero]
    · by_cases hf : fromAddr = addr
      · subst hf
        simp only [ht, Ne.symm ht, if_true, if_false]
        omega
      · simp only [hf, ht, Ne.symm hf, Ne.symm ht, if_false]
  · exact (MultiStore.accountsKept_set_of_ne _ s (fun _ => by simp)).trans
      (MultiStore.accountsKept_set_of_ne _ s₁ (fun _ => by simp))
  · exact MultiStore.accountsKeyed_set_of_ne _ (fun _ => by simp)
      (MultiStore.accountsKeyed_set_of_ne _ (fun _ => by simp) hs)

/-- SendCoins: move the coins, then create the recipient's account if it has none. -/
def SendCoins (fromAddr toAddr : Address) (amt : Nat) : StoreM Unit := do
  subUnlockedCoins fromAddr amt
  addCoins toAddr amt
  unless ← Auth.HasAccount toAddr do
    Auth.SetAccount (Auth.NewAccountWithAddress toAddr)

/-- **What SendCoins writes**: the sender's balance less `amt`, then the recipient's plus `amt`,
    then the recipient's new account when it has none; it succeeds only with positive coins the
    sender has. -/
theorem SendCoins_store {fromAddr toAddr : Address} {amt : Nat} {s : MultiStore} {d : MultiDelta}
    (h : SendCoins fromAddr toAddr amt s = .ok ((), d)) :
    let s₁ := (KV.Delta.set (.balance fromAddr) (.amount (s.Amount (.balance fromAddr) - amt)) :
      MultiDelta) • s
    let s₂ := (KV.Delta.set (.balance toAddr) (.amount (s₁.Amount (.balance toAddr) + amt)) :
      MultiDelta) • s₁
    0 < amt ∧ amt ≤ s.Amount (.balance fromAddr) ∧
      d • s = if (s₂.Account? toAddr).isSome then s₂ else
        (KV.Delta.set (.account toAddr) (.account (Auth.NewAccountWithAddress toAddr)) : MultiDelta) • s₂ := by
  intro s₁ s₂
  unfold SendCoins at h
  obtain ⟨⟨⟩, d₁, d', h₁, h', rfl⟩ := Buffered.bind_eq_ok h
  obtain ⟨⟨⟩, d₂, d₃, h₂, h₃, rfl⟩ := Buffered.bind_eq_ok h'
  clear h h'
  rw [subUnlockedCoins_apply] at h₁
  split_ifs at h₁ with h0 hlt
  obtain ⟨-, hd₁⟩ := Prod.mk.inj (Except.ok.inj h₁)
  rw [addCoins_apply, if_neg h0] at h₂
  obtain ⟨-, hd₂⟩ := Prod.mk.inj (Except.ok.inj h₂)
  -- the two balance writes leave `s₂`
  have hs₂ : d₂ • d₁ • s = s₂ := by rw [← hd₂, ← hd₁]
  refine ⟨by omega, by omega, ?_⟩
  rw [mul_smul, mul_smul, hs₂]
  rw [bind_apply_of_read (Auth.HasAccount_apply toAddr _), hs₂] at h₃
  -- the recipient's account is read after the balance writes
  cases hto : s₂.Account? toAddr with
  | some acc =>
    simp only [hto, Option.isSome_some, if_true, pure_apply] at h₃ ⊢
    obtain ⟨-, rfl⟩ := Prod.mk.inj (Except.ok.inj h₃)
    exact one_smul _ s₂
  | none =>
    simp only [hto, Option.isSome_none, Bool.false_eq_true, if_false, Auth.SetAccount,
      write_apply] at h₃ ⊢
    obtain ⟨-, rfl⟩ := Prod.mk.inj (Except.ok.inj h₃)
    rfl

/-- **SendCoins transfers**: it succeeds only with positive coins the sender has. -/
theorem SendCoins_eq_ok {fromAddr toAddr : Address} {amt : Nat} {s : MultiStore} {d : MultiDelta}
    (h : SendCoins fromAddr toAddr amt s = .ok ((), d)) :
    0 < amt ∧ amt ≤ s.Amount (.balance fromAddr) ∧ Transferred fromAddr toAddr amt s (d • s) := by
  obtain ⟨hpos, hle, hd⟩ := SendCoins_store h
  refine ⟨hpos, hle, ?_⟩
  have htr := transferred_set_balances fromAddr toAddr s hle
  rw [hd]
  split
  · exact htr
  · -- the recipient gets a new account, which moves no coins
    rename_i hto
    exact htr.coinsKept_right (coinsKept_set_account (Auth.NewAccountWithAddress toAddr)
      (Option.not_isSome_iff_eq_none.mp hto))

/-- Whether a registered module has a permission. -/
def HasPermission (name perm : String) : Bool :=
  ((maccPerms.lookup name).getD []).contains perm

/-- SendCoinsFromModuleToAccount: a blocked recipient is refused. -/
def SendCoinsFromModuleToAccount (senderModule : String) (recipientAddr : Address) (amt : Nat) :
    StoreM Unit := do
  if BlockedAddr ModuleAddress recipientAddr then
    fail (recipientAddr.Hex ++ " is not allowed to receive funds")
  SendCoins (ModuleAddress senderModule) recipientAddr amt

/-- SendCoinsFromModuleToAccount is SendCoins from the module's address, to a recipient that is
    not blocked. -/
theorem SendCoinsFromModuleToAccount_send {senderModule : String} {recipientAddr : Address}
    {amt : Nat} {s : MultiStore} {d : MultiDelta}
    (h : SendCoinsFromModuleToAccount ModuleAddress senderModule recipientAddr amt s = .ok ((), d)) :
    BlockedAddr ModuleAddress recipientAddr = false ∧
      SendCoins (ModuleAddress senderModule) recipientAddr amt s = .ok ((), d) := by
  unfold SendCoinsFromModuleToAccount at h
  dsimp only at h
  by_cases hb : BlockedAddr ModuleAddress recipientAddr = true
  · rw [if_pos hb, bind_apply_error (fail_apply _ s)] at h
    cases h
  · rw [if_neg hb] at h
    exact ⟨Bool.of_not_eq_true hb, h⟩

/-- SendCoinsFromModuleToAccount transfers from the module's address to a recipient that is not
    blocked. -/
theorem SendCoinsFromModuleToAccount_eq_ok {senderModule : String} {recipientAddr : Address}
    {amt : Nat} {s : MultiStore} {d : MultiDelta}
    (h : SendCoinsFromModuleToAccount ModuleAddress senderModule recipientAddr amt s = .ok ((), d)) :
    BlockedAddr ModuleAddress recipientAddr = false ∧ 0 < amt ∧
      amt ≤ s.Amount (.balance (ModuleAddress senderModule)) ∧
      Transferred (ModuleAddress senderModule) recipientAddr amt s (d • s) := by
  obtain ⟨hb, hsend⟩ := SendCoinsFromModuleToAccount_send ModuleAddress h
  exact ⟨hb, SendCoins_eq_ok hsend⟩

/-- SendCoinsFromAccountToModule. -/
def SendCoinsFromAccountToModule (senderAddr : Address) (recipientModule : String) (amt : Nat) :
    StoreM Unit := do
  let recipientAcc ← Auth.GetModuleAccount ModuleAddress recipientModule
  SendCoins senderAddr recipientAcc.address amt

/-- SendCoinsFromAccountToModule transfers to the module's address, creating the module account
    when it is missing.  On a store that keys its accounts, the module account found is the one
    at the module's address. -/
theorem SendCoinsFromAccountToModule_eq_ok {senderAddr : Address} {recipientModule : String}
    {amt : Nat} {s : MultiStore} {d : MultiDelta} (hs : MultiStore.AccountsKeyed s)
    (h : SendCoinsFromAccountToModule ModuleAddress senderAddr recipientModule amt s = .ok ((), d)) :
    0 < amt ∧ amt ≤ s.Amount (.balance senderAddr) ∧
      Transferred senderAddr (ModuleAddress recipientModule) amt s (d • s) := by
  unfold SendCoinsFromAccountToModule at h
  obtain ⟨acc, d₁, d₂, h₁, h₂, rfl⟩ := Buffered.bind_eq_ok h
  rw [mul_smul]
  rcases Auth.GetModuleAccount_eq_ok ModuleAddress h₁ with ⟨hacc, hs₁⟩ | ⟨hnone, rfl, hs₁⟩
  · -- the module account exists, at its own address
    rw [hs₁] at h₂ ⊢
    rw [hs _ _ hacc] at h₂
    exact SendCoins_eq_ok h₂
  · -- the module account is created first: no amount moves, no stored account changes
    rw [hs₁] at h₂ ⊢
    obtain ⟨hpos, hle, htr⟩ := SendCoins_eq_ok h₂
    have hkept := coinsKept_set_account ⟨ModuleAddress recipientModule, 0, .module recipientModule⟩ hnone
    rw [hkept.balance] at hle
    exact ⟨hpos, hle, htr.coinsKept_left hkept⟩

/-- MintCoins: credit the module account and grow the supply. -/
def MintCoins (moduleName : String) (amt : Nat) : StoreM Unit := do
  let acc ← Auth.GetModuleAccount ModuleAddress moduleName
  unless HasPermission moduleName "minter" do
    fail ("module account " ++ moduleName ++ " does not have permissions to mint tokens")
  addCoins acc.address amt
  let supply ← GetSupply
  setSupply (supply + amt)

/-- BurnCoins: debit the module account and shrink the supply. -/
def BurnCoins (moduleName : String) (amt : Nat) : StoreM Unit := do
  let acc ← Auth.GetModuleAccount ModuleAddress moduleName
  unless HasPermission moduleName "burner" do
    fail ("module account " ++ moduleName ++ " does not have permissions to burn tokens")
  subUnlockedCoins acc.address amt
  let supply ← GetSupply
  setSupply (supply - amt)

/-- **What MintCoins writes**: the module account when it is missing, then the module account's
    balance plus `amt`, then the supply plus `amt`; it needs the minter permission and positive
    coins. -/
theorem MintCoins_store {moduleName : String} {amt : Nat} {s : MultiStore} {d : MultiDelta}
    (h : MintCoins ModuleAddress moduleName amt s = .ok ((), d)) :
    HasPermission moduleName "minter" = true ∧ 0 < amt ∧
      ∃ acc d₁, Auth.GetModuleAccount ModuleAddress moduleName s = .ok (acc, d₁) ∧
        let s₂ := (KV.Delta.set (.balance acc.address)
          (.amount ((d₁ • s).Amount (.balance acc.address) + amt)) : MultiDelta) • d₁ • s
        d • s = (KV.Delta.set .supply (.amount (s₂.Amount .supply + amt)) : MultiDelta) • s₂ := by
  unfold MintCoins at h
  obtain ⟨acc, d₁, d', h₁, h', rfl⟩ := Buffered.bind_eq_ok h
  split_ifs at h' with hperm
  · -- the balance, then the supply
    obtain ⟨⟨⟩, d₂, d₃, h₂, h₃, rfl⟩ := Buffered.bind_eq_ok h'
    rw [addCoins_apply] at h₂
    split_ifs at h₂ with h0
    obtain ⟨-, hd₂⟩ := Prod.mk.inj (Except.ok.inj h₂)
    rw [bind_apply_of_read (GetSupply_apply _), setSupply, write_apply] at h₃
    obtain ⟨-, hd₃⟩ := Prod.mk.inj (Except.ok.inj h₃)
    refine ⟨hperm, by omega, acc, d₁, h₁, ?_⟩
    intro s₂
    rw [mul_smul, mul_smul, ← hd₃, ← hd₂]
  · rw [bind_apply_error (fail_apply _ _)] at h'
    cases h'

/-- **What BurnCoins writes**: the module account when it is missing, then the module account's
    balance less `amt`, then the supply less `amt`; it needs the burner permission and positive
    coins the module account has. -/
theorem BurnCoins_store {moduleName : String} {amt : Nat} {s : MultiStore} {d : MultiDelta}
    (h : BurnCoins ModuleAddress moduleName amt s = .ok ((), d)) :
    HasPermission moduleName "burner" = true ∧ 0 < amt ∧
      ∃ acc d₁, Auth.GetModuleAccount ModuleAddress moduleName s = .ok (acc, d₁) ∧
        amt ≤ (d₁ • s).Amount (.balance acc.address) ∧
        let s₂ := (KV.Delta.set (.balance acc.address)
          (.amount ((d₁ • s).Amount (.balance acc.address) - amt)) : MultiDelta) • d₁ • s
        d • s = (KV.Delta.set .supply (.amount (s₂.Amount .supply - amt)) : MultiDelta) • s₂ := by
  unfold BurnCoins at h
  obtain ⟨acc, d₁, d', h₁, h', rfl⟩ := Buffered.bind_eq_ok h
  split_ifs at h' with hperm
  · -- the balance, then the supply
    obtain ⟨⟨⟩, d₂, d₃, h₂, h₃, rfl⟩ := Buffered.bind_eq_ok h'
    rw [subUnlockedCoins_apply] at h₂
    split_ifs at h₂ with h0 hlt
    obtain ⟨-, hd₂⟩ := Prod.mk.inj (Except.ok.inj h₂)
    rw [bind_apply_of_read (GetSupply_apply _), setSupply, write_apply] at h₃
    obtain ⟨-, hd₃⟩ := Prod.mk.inj (Except.ok.inj h₃)
    refine ⟨hperm, by omega, acc, d₁, h₁, Nat.le_of_not_lt hlt, ?_⟩
    intro s₂
    rw [mul_smul, mul_smul, ← hd₃, ← hd₂]
  · rw [bind_apply_error (fail_apply _ _)] at h'
    cases h'

/-- **MintCoins creates the coins** at the module account's address, with the minter
    permission. -/
theorem MintCoins_eq_ok {moduleName : String} {amt : Nat} {s : MultiStore} {d : MultiDelta}
    (h : MintCoins ModuleAddress moduleName amt s = .ok ((), d)) :
    HasPermission moduleName "minter" = true ∧ 0 < amt ∧ ∃ addr, Minted addr amt s (d • s) := by
  obtain ⟨hperm, hpos, acc, d₁, h₁, hd⟩ := MintCoins_store ModuleAddress h
  refine ⟨hperm, hpos, acc.address, ?_⟩
  rw [hd]
  exact (minted_set_balance_supply acc.address amt _).coinsKept_left
    (GetModuleAccount_coinsKept ModuleAddress h₁)

/-- **BurnCoins destroys the coins** at the module account's address, with the burner
    permission. -/
theorem BurnCoins_eq_ok {moduleName : String} {amt : Nat} {s : MultiStore} {d : MultiDelta}
    (h : BurnCoins ModuleAddress moduleName amt s = .ok ((), d)) :
    HasPermission moduleName "burner" = true ∧ 0 < amt ∧ ∃ addr, Burned addr amt s (d • s) := by
  obtain ⟨hperm, hpos, acc, d₁, h₁, hle, hd⟩ := BurnCoins_store ModuleAddress h
  refine ⟨hperm, hpos, acc.address, ?_⟩
  rw [hd]
  exact (burned_set_balance_supply acc.address _ hle).coinsKept_left
    (GetModuleAccount_coinsKept ModuleAddress h₁)

/-! ## The bank keeps the accounts keyed

  Every account the bank and x/auth store is stored by `SetAccount`, under the account's own
  address, so every bank operation keeps the store keyed (`MultiStore.AccountsKeyed`). -/

theorem SetAccount_keyed (acc : Account) : Preserves MultiStore.AccountsKeyed (Auth.SetAccount acc) :=
  Preserves.write fun _ hs => MultiStore.accountsKeyed_set_account acc hs

theorem setBalance_keyed (addr : Address) (amt : Nat) :
    Preserves MultiStore.AccountsKeyed (setBalance addr amt) :=
  Preserves.write fun _ hs => MultiStore.accountsKeyed_set_of_ne _ (fun _ => by simp) hs

theorem setSupply_keyed (amt : Nat) : Preserves MultiStore.AccountsKeyed (setSupply amt) :=
  Preserves.write fun _ hs => MultiStore.accountsKeyed_set_of_ne _ (fun _ => by simp) hs

theorem GetBalance_keyed (addr : Address) : Preserves MultiStore.AccountsKeyed (GetBalance addr) :=
  Preserves.bind Preserves.read fun _ => Preserves.pure _

theorem GetSupply_keyed : Preserves MultiStore.AccountsKeyed GetSupply :=
  Preserves.bind Preserves.read fun _ => Preserves.pure _

theorem subUnlockedCoins_keyed (addr : Address) (amt : Nat) :
    Preserves MultiStore.AccountsKeyed (subUnlockedCoins addr amt) := by
  unfold subUnlockedCoins
  refine Preserves.ite (Preserves.bind (Preserves.fail _) fun _ => ?_) ?_
  -- both branches go on with the balance read
  all_goals
    refine Preserves.bind (GetBalance_keyed addr) fun balance => ?_
    exact Preserves.ite (Preserves.bind (Preserves.fail _) fun _ => setBalance_keyed _ _)
      (setBalance_keyed _ _)

theorem addCoins_keyed (addr : Address) (amt : Nat) :
    Preserves MultiStore.AccountsKeyed (addCoins addr amt) := by
  unfold addCoins
  refine Preserves.ite (Preserves.bind (Preserves.fail _) fun _ => ?_) ?_
  all_goals exact Preserves.bind (GetBalance_keyed addr) fun _ => setBalance_keyed _ _

theorem SendCoins_keyed (fromAddr toAddr : Address) (amt : Nat) :
    Preserves MultiStore.AccountsKeyed (SendCoins fromAddr toAddr amt) := by
  unfold SendCoins
  refine Preserves.bind (subUnlockedCoins_keyed _ _) fun _ => ?_
  refine Preserves.bind (addCoins_keyed _ _) fun _ => ?_
  refine Preserves.bind (Preserves.bind Preserves.read fun _ => Preserves.pure _) fun _ => ?_
  exact Preserves.ite (Preserves.pure _) (SetAccount_keyed _)

theorem GetModuleAccount_keyed (name : String) :
    Preserves MultiStore.AccountsKeyed (Auth.GetModuleAccount ModuleAddress name) := by
  unfold Auth.GetModuleAccount
  refine Preserves.bind (Preserves.bind Preserves.read fun _ => Preserves.pure _) fun r => ?_
  cases r with
  | some acc =>
    -- a stored account is returned, or refused when it is no module account
    dsimp only
    split
    · exact Preserves.pure _
    · exact Preserves.fail _
  | none =>
    dsimp only
    exact Preserves.bind (SetAccount_keyed _) fun _ => Preserves.pure _

theorem SendCoinsFromModuleToAccount_keyed (senderModule : String) (recipientAddr : Address)
    (amt : Nat) : Preserves MultiStore.AccountsKeyed
      (SendCoinsFromModuleToAccount ModuleAddress senderModule recipientAddr amt) := by
  unfold SendCoinsFromModuleToAccount
  refine Preserves.ite (Preserves.bind (Preserves.fail _) fun _ => ?_) ?_
  all_goals exact SendCoins_keyed _ _ _

theorem SendCoinsFromAccountToModule_keyed (senderAddr : Address) (recipientModule : String)
    (amt : Nat) : Preserves MultiStore.AccountsKeyed
      (SendCoinsFromAccountToModule ModuleAddress senderAddr recipientModule amt) :=
  Preserves.bind (GetModuleAccount_keyed ModuleAddress _) fun _ => SendCoins_keyed _ _ _

theorem MintCoins_keyed (moduleName : String) (amt : Nat) :
    Preserves MultiStore.AccountsKeyed (MintCoins ModuleAddress moduleName amt) := by
  unfold MintCoins
  refine Preserves.bind (GetModuleAccount_keyed ModuleAddress _) fun acc => ?_
  refine Preserves.ite ?_ (Preserves.bind (Preserves.fail _) fun _ => ?_)
  all_goals
    refine Preserves.bind (addCoins_keyed _ _) fun _ => ?_
    exact Preserves.bind GetSupply_keyed fun _ => setSupply_keyed _

theorem BurnCoins_keyed (moduleName : String) (amt : Nat) :
    Preserves MultiStore.AccountsKeyed (BurnCoins ModuleAddress moduleName amt) := by
  unfold BurnCoins
  refine Preserves.bind (GetModuleAccount_keyed ModuleAddress _) fun acc => ?_
  refine Preserves.ite ?_ (Preserves.bind (Preserves.fail _) fun _ => ?_)
  all_goals
    refine Preserves.bind (subUnlockedCoins_keyed _ _) fun _ => ?_
    exact Preserves.bind GetSupply_keyed fun _ => setSupply_keyed _

/-! ## The bank keeps the supply

  x/bank's total-supply invariant: the supply of the denomination is the sum of the balances of
  all addresses.  A transfer moves coins between two balances, a mint adds them to a balance and
  to the supply, a burn takes them from both, and the other writes leave the coins alone. -/

/-- The supply is the sum of the balances of all addresses. -/
def Conserved (s : MultiStore) : Prop :=
  s.Amount .supply = ∑ addr : Address, s.Amount (.balance addr)

section Conserved

variable {s s' : MultiStore}

/-- The sum of the balances, less or plus one address's share of `amt`. -/
theorem sum_balance_add_ite (addr : Address) (amt : Nat) (f : Address → Nat) :
    ∑ a : Address, (f a + if a = addr then amt else 0) = ∑ a : Address, f a + amt := by
  rw [Finset.sum_add_distrib, Finset.sum_ite_eq', if_pos (Finset.mem_univ addr)]

theorem CoinsKept.conserved (h : CoinsKept s s') (hs : Conserved s) : Conserved s' := by
  unfold Conserved at hs ⊢
  rw [h.supply, hs]
  exact Finset.sum_congr rfl fun addr _ => (h.balance addr).symm

theorem Transferred.conserved {fromAddr toAddr : Address} {amt : Nat}
    (h : Transferred fromAddr toAddr amt s s') (hs : Conserved s) : Conserved s' := by
  unfold Conserved at hs ⊢
  -- summed over all addresses, the sender's loss and the recipient's gain cancel
  have hsum := Finset.sum_congr (Eq.refl Finset.univ) fun addr (_ : addr ∈ Finset.univ) => h.balance addr
  rw [sum_balance_add_ite, sum_balance_add_ite] at hsum
  rw [h.supply, hs]
  omega

theorem Minted.conserved {addr : Address} {amt : Nat} (h : Minted addr amt s s') (hs : Conserved s) :
    Conserved s' := by
  unfold Conserved at hs ⊢
  rw [h.supply, hs, Finset.sum_congr rfl fun a _ => h.balance a, sum_balance_add_ite]

/-- A burn keeps the supply the sum of the balances; the supply it shrinks is at least the burnt
    amount because that amount was in a balance. -/
theorem Burned.conserved {addr : Address} {amt : Nat} (h : Burned addr amt s s') (hs : Conserved s) :
    Conserved s' := by
  unfold Conserved at hs ⊢
  have hsum : ∑ a : Address, s'.Amount (.balance a) + amt = ∑ a : Address, s.Amount (.balance a) := by
    rw [← sum_balance_add_ite addr amt, Finset.sum_congr rfl fun a _ => h.balance a]
  rw [h.supply, hs]
  omega

/-- A write outside the coins keeps the supply. -/
theorem conserved_set_of_ne {k : MultiKey} (v : MultiValue) (hbalance : ∀ addr, k ≠ .balance addr)
    (hsupply : k ≠ .supply) (hs : Conserved s) : Conserved ((KV.Delta.set k v : MultiDelta) • s) := by
  unfold Conserved at hs ⊢
  rw [MultiStore.Amount_smul_set_of_ne v s hsupply, hs]
  exact Finset.sum_congr rfl fun addr _ => (MultiStore.Amount_smul_set_of_ne v s (hbalance addr)).symm

theorem conserved_delete_of_ne {k : MultiKey} (hbalance : ∀ addr, k ≠ .balance addr)
    (hsupply : k ≠ .supply) (hs : Conserved s) : Conserved ((KV.Delta.delete k : MultiDelta) • s) := by
  unfold Conserved at hs ⊢
  rw [MultiStore.Amount_smul_delete_of_ne s hsupply, hs]
  exact Finset.sum_congr rfl fun addr _ => (MultiStore.Amount_smul_delete_of_ne s (hbalance addr)).symm

end Conserved

/-! ## What x/auth and x/bank maintain

  Both invariants together: every account under its own address, and the supply the sum of the
  balances.  Each operation the EVM keeper calls keeps them; a send to a module needs the first
  to know which account the coins reach, and both are needed of the state a step starts from. -/

/-- What x/auth and x/bank maintain of the store. -/
structure Valid (s : MultiStore) : Prop where
  keyed : MultiStore.AccountsKeyed s
  conserved : Conserved s

theorem valid_set_of_InEvmStores {k : MultiKey} (hk : k.InEvmStores = true) (v : MultiValue)
    {s : MultiStore} (hs : Valid s) : Valid ((KV.Delta.set k v : MultiDelta) • s) :=
  ⟨MultiStore.accountsKeyed_set_of_ne v (MultiKey.InEvmStores.ne_account hk) hs.keyed,
    conserved_set_of_ne v (MultiKey.InEvmStores.ne_balance hk) (MultiKey.InEvmStores.ne_supply hk)
      hs.conserved⟩

theorem valid_delete_of_InEvmStores {k : MultiKey} (hk : k.InEvmStores = true) {s : MultiStore}
    (hs : Valid s) : Valid ((KV.Delta.delete k : MultiDelta) • s) :=
  ⟨MultiStore.accountsKeyed_delete_of_ne (MultiKey.InEvmStores.ne_account hk) hs.keyed,
    conserved_delete_of_ne (MultiKey.InEvmStores.ne_balance hk) (MultiKey.InEvmStores.ne_supply hk)
      hs.conserved⟩

theorem SetAccount_valid (acc : Account) : Preserves Valid (Auth.SetAccount acc) :=
  Preserves.write fun _ hs => ⟨MultiStore.accountsKeyed_set_account acc hs.keyed,
    conserved_set_of_ne _ (fun _ => by simp) (by simp) hs.conserved⟩

theorem SendCoinsFromModuleToAccount_valid (senderModule : String) (recipientAddr : Address)
    (amt : Nat) : Preserves Valid (SendCoinsFromModuleToAccount ModuleAddress senderModule recipientAddr amt) := by
  intro s u d hs h
  obtain ⟨-, -, -, htr⟩ := SendCoinsFromModuleToAccount_eq_ok ModuleAddress h
  exact ⟨htr.keyed hs.keyed, htr.conserved hs.conserved⟩

theorem SendCoinsFromAccountToModule_valid (senderAddr : Address) (recipientModule : String)
    (amt : Nat) : Preserves Valid (SendCoinsFromAccountToModule ModuleAddress senderAddr recipientModule amt) := by
  intro s u d hs h
  obtain ⟨-, -, htr⟩ := SendCoinsFromAccountToModule_eq_ok ModuleAddress hs.keyed h
  exact ⟨htr.keyed hs.keyed, htr.conserved hs.conserved⟩

theorem MintCoins_valid (moduleName : String) (amt : Nat) :
    Preserves Valid (MintCoins ModuleAddress moduleName amt) := by
  intro s u d hs h
  obtain ⟨-, -, addr, hminted⟩ := MintCoins_eq_ok ModuleAddress h
  exact ⟨MintCoins_keyed ModuleAddress moduleName amt s u d hs.keyed h, hminted.conserved hs.conserved⟩

theorem BurnCoins_valid (moduleName : String) (amt : Nat) :
    Preserves Valid (BurnCoins ModuleAddress moduleName amt) := by
  intro s u d hs h
  obtain ⟨-, -, addr, hburned⟩ := BurnCoins_eq_ok ModuleAddress h
  exact ⟨BurnCoins_keyed ModuleAddress moduleName amt s u d hs.keyed h, hburned.conserved hs.conserved⟩

end Bank

end

end AnconEvm
