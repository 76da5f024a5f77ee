import AnconEvm.Evm.Types
import AnconEvm.Lib.Buffered
/-
  The application's multistore, as the EVM keeper and the ante handler see it.

  Every store the keeper reaches through its context lives in one map: the EVM module's store and
  transient store (byte keys and byte values), the accounts of x/auth, and the balances and the
  supply of the EVM denomination in x/bank.  A `MultiKey` names the store and the key inside it;
  keys are ordered by the bytes `MultiKey.encode` writes (a store tag, then the key), so the keys
  of one byte store are iterated in byte order, as a KVStore iterator goes.

  Accounts and coin amounts are kept as values, not as their protobuf bytes: no code of the module
  reads those bytes.  A log in the transient store is kept as the log it encodes.

  Code reads and writes through `StoreM`, computations that buffer their writes
  (`Lib/Buffered.lean`), so that one definition runs on a plain context or on the top of the
  keeper's context stack.
-/

namespace AnconEvm

/-- The concrete type of an x/auth account. -/
inductive AccountType
  /-- authtypes.BaseAccount. -/
  | base
  /-- authtypes.ModuleAccount, with its module name. -/
  | module (name : String)
  /-- ethermint.EthAccount, with its CodeHash field (a hex string). -/
  | eth (codeHash : String)
  deriving DecidableEq, Repr

/-- An x/auth account (authtypes.AccountI), by the fields the modules read.  The account number
    and the public key are left out. -/
structure Account where
  address : Address
  sequence : UInt64
  type : AccountType
  deriving DecidableEq, Repr

/-- A key of the multistore: the store it is in, and the key inside that store. -/
inductive MultiKey
  /-- A key of the EVM module's KVStore. -/
  | evm (key : Bytes)
  /-- A key of the EVM module's transient store. -/
  | transient (key : Bytes)
  /-- The x/auth account of an address. -/
  | account (addr : Address)
  /-- The x/bank balance of an address, in the EVM denomination. -/
  | balance (addr : Address)
  /-- The x/bank supply of the EVM denomination. -/
  | supply
  deriving DecidableEq, Repr

/-- The bytes that order the keys: a tag for the store, then the key. -/
def MultiKey.encode : MultiKey → Bytes
  | .evm key => 0 :: key
  | .transient key => 1 :: key
  | .account addr => 2 :: addr.Bytes
  | .balance addr => 3 :: addr.Bytes
  | .supply => [4]

theorem MultiKey.encode_injective {a b : MultiKey} (h : a.encode = b.encode) : a = b := by
  -- the tags tell the stores apart; inside a store the key bytes are the key
  cases a <;> cases b <;> simp only [MultiKey.encode, List.cons.injEq] at h
  case evm.evm => rw [h.2]
  case transient.transient => rw [h.2]
  case account.account => rw [Address.Bytes_injective h.2]
  case balance.balance => rw [Address.Bytes_injective h.2]
  case supply.supply => rfl
  all_goals exact absurd h.1 (by decide)

/-- The keys of the EVM module's own stores, persistent and transient: no account and no coin
    amount lies there. -/
def MultiKey.InEvmStores : MultiKey → Bool
  | .evm _ => true
  | .transient _ => true
  | _ => false

theorem MultiKey.InEvmStores.ne_account {k : MultiKey} (h : k.InEvmStores = true) (addr : Address) :
    k ≠ .account addr := by
  rintro rfl
  cases h

theorem MultiKey.InEvmStores.ne_balance {k : MultiKey} (h : k.InEvmStores = true) (addr : Address) :
    k ≠ .balance addr := by
  rintro rfl
  cases h

theorem MultiKey.InEvmStores.ne_supply {k : MultiKey} (h : k.InEvmStores = true) : k ≠ .supply := by
  rintro rfl
  cases h

instance : Ord MultiKey := ⟨compareOn MultiKey.encode⟩

instance : Std.TransOrd MultiKey := inferInstanceAs (Std.TransCmp (compareOn MultiKey.encode))

instance : Std.LawfulEqOrd MultiKey where
  compare_self {a} := Std.ReflOrd.compare_self (a := a.encode)
  eq_of_compare h := MultiKey.encode_injective (Std.LawfulEqOrd.eq_of_compare h)

/-- A value of the multistore. -/
inductive MultiValue
  /-- A value of a byte store. -/
  | bytes (bz : Bytes)
  /-- An x/auth account. -/
  | account (acc : Account)
  /-- A coin amount (a balance or the supply). -/
  | amount (n : Nat)
  /-- A log of the transient store, as the log its bytes encode. -/
  | log (l : Log)
  deriving DecidableEq, Repr

/-- The state of the multistore. -/
abbrev MultiStore := KV.Store MultiKey MultiValue

/-- A write buffer of a cached multistore. -/
abbrev MultiDelta := KV.Delta MultiKey MultiValue

/-- Code that reads and writes the multistore of its context; it fails with an error message. -/
abbrev StoreM := Buffered MultiDelta MultiStore String

namespace MultiStore

/-- store.Get on a byte store: the bytes stored, nil (empty) when absent. -/
def Get (s : MultiStore) (k : MultiKey) : Bytes :=
  match s[k]? with
  | some (.bytes bz) => bz
  | _ => []

/-- store.Has. -/
def Has (s : MultiStore) (k : MultiKey) : Bool := s.contains k

/-- The account stored for an address. -/
def Account? (s : MultiStore) (addr : Address) : Option Account :=
  match s[MultiKey.account addr]? with
  | some (.account acc) => some acc
  | _ => none

/-- A stored coin amount, zero when absent. -/
def Amount (s : MultiStore) (k : MultiKey) : Nat :=
  match s[k]? with
  | some (.amount n) => n
  | _ => 0

/-- The entries of one byte store, in key order: `sel` picks the keys of that store. -/
def entries (s : MultiStore) (sel : MultiKey → Option Bytes) : List (Bytes × MultiValue) :=
  s.toList.filterMap fun e => (sel e.1).map fun key => (key, e.2)

/-- The keys of the EVM store. -/
def evmKey? : MultiKey → Option Bytes
  | .evm key => some key
  | _ => none

/-- The keys of the EVM transient store. -/
def transientKey? : MultiKey → Option Bytes
  | .transient key => some key
  | _ => none

/-- sdk.KVStorePrefixIterator over the EVM store: its entries whose key starts with `pre`. -/
def PrefixIterator (s : MultiStore) (pre : Bytes) : List (Bytes × MultiValue) :=
  (s.entries evmKey?).filter fun e => pre.isPrefixOf e.1

/-- store.Iterator(start, end) over a prefix store of the transient store: its entries whose
    key, after the prefix, lies in `[start, end)`. -/
def TransientIterator (s : MultiStore) (pre start stop : Bytes) : List (Bytes × MultiValue) :=
  (s.entries transientKey?).filterMap fun e =>
    if pre.isPrefixOf e.1 then
      let key := e.1.drop pre.length
      if compare key start != .lt && compare key stop == .lt then some (key, e.2) else none
    else none

/-- The multistore as the next block finds it: committing a block empties the transient
    stores. -/
def resetTransient (s : MultiStore) : MultiStore := s.filter fun key _ => (transientKey? key).isNone

/-- Committing a block keeps every key outside the transient stores. -/
theorem getElem?_resetTransient_of_isNone {k : MultiKey} (h : (transientKey? k).isNone = true)
    (s : MultiStore) : s.resetTransient[k]? = s[k]? := by
  simp only [resetTransient, Std.ExtTreeMap.getElem?_filter', h]
  cases s[k]? <;> rfl

/-- Committing a block leaves no transient key. -/
theorem getElem?_resetTransient_transient (t : Bytes) (s : MultiStore) :
    s.resetTransient[MultiKey.transient t]? = none := by
  simp only [resetTransient, Std.ExtTreeMap.getElem?_filter', transientKey?]
  cases s[MultiKey.transient t]? <;> rfl

/-! ## Reads after a write -/

theorem Amount_smul_set_of_ne {k k' : MultiKey} (v : MultiValue) (s : MultiStore) (h : k ≠ k') :
    ((KV.Delta.set k v : MultiDelta) • s).Amount k' = s.Amount k' := by
  unfold Amount
  rw [KV.Delta.getElem?_smul, KV.Delta.writes_set, if_neg h]
  rfl

@[simp] theorem Amount_smul_set_amount (k k' : MultiKey) (n : Nat) (s : MultiStore) :
    ((KV.Delta.set k (.amount n) : MultiDelta) • s).Amount k' = if k = k' then n else s.Amount k' := by
  split
  · rename_i h
    subst h
    simp [Amount]
  · exact Amount_smul_set_of_ne _ s ‹_›

theorem Amount_smul_delete_of_ne {k k' : MultiKey} (s : MultiStore) (h : k ≠ k') :
    ((KV.Delta.delete k : MultiDelta) • s).Amount k' = s.Amount k' := by
  unfold Amount
  rw [KV.Delta.getElem?_smul, KV.Delta.writes_delete, if_neg h]
  rfl

@[simp] theorem Get_smul_set_bytes (k k' : MultiKey) (bz : Bytes) (s : MultiStore) :
    ((KV.Delta.set k (.bytes bz) : MultiDelta) • s).Get k' = if k = k' then bz else s.Get k' := by
  unfold Get
  rw [KV.Delta.getElem?_smul, KV.Delta.writes_set]
  by_cases h : k = k'
  · rw [if_pos h, if_pos h]
    rfl
  · rw [if_neg h, if_neg h]
    rfl

theorem Get_smul_set_of_ne {k k' : MultiKey} (v : MultiValue) (s : MultiStore) (h : k ≠ k') :
    ((KV.Delta.set k v : MultiDelta) • s).Get k' = s.Get k' := by
  unfold Get
  rw [KV.Delta.getElem?_smul, KV.Delta.writes_set, if_neg h]
  rfl

@[simp] theorem Get_smul_delete (k k' : MultiKey) (s : MultiStore) :
    ((KV.Delta.delete k : MultiDelta) • s).Get k' = if k = k' then [] else s.Get k' := by
  unfold Get
  rw [KV.Delta.getElem?_smul, KV.Delta.writes_delete]
  by_cases h : k = k'
  · rw [if_pos h, if_pos h]
    rfl
  · rw [if_neg h, if_neg h]
    rfl

theorem Account?_smul_set_of_ne {k : MultiKey} {addr : Address} (v : MultiValue) (s : MultiStore)
    (h : k ≠ .account addr) : ((KV.Delta.set k v : MultiDelta) • s).Account? addr = s.Account? addr := by
  unfold Account?
  rw [KV.Delta.getElem?_smul, KV.Delta.writes_set, if_neg h]
  rfl

theorem Account?_smul_delete_of_ne {k : MultiKey} {addr : Address} (s : MultiStore)
    (h : k ≠ .account addr) : ((KV.Delta.delete k : MultiDelta) • s).Account? addr = s.Account? addr := by
  unfold Account?
  rw [KV.Delta.getElem?_smul, KV.Delta.writes_delete, if_neg h]
  rfl

@[simp] theorem Account?_smul_set_account (addr addr' : Address) (acc : Account) (s : MultiStore) :
    ((KV.Delta.set (.account addr) (.account acc) : MultiDelta) • s).Account? addr' =
      if addr = addr' then some acc else s.Account? addr' := by
  split
  · rename_i h
    subst h
    simp [Account?]
  · exact Account?_smul_set_of_ne _ s (by simpa using ‹_›)

/-! ## Accounts

  An account, once stored, is only changed by code that means to change it (the sequence
  increments, the EVM's nonce and code writes); the bank creates missing accounts and leaves the
  others alone.  And x/auth stores an account under its own address. -/

/-- `s'` holds every account of `s`, unchanged. -/
def AccountsKept (s s' : MultiStore) : Prop :=
  ∀ addr acc, s.Account? addr = some acc → s'.Account? addr = some acc

theorem AccountsKept.refl (s : MultiStore) : AccountsKept s s := fun _ _ h => h

theorem AccountsKept.trans {s₁ s₂ s₃ : MultiStore} (h₁₂ : AccountsKept s₁ s₂)
    (h₂₃ : AccountsKept s₂ s₃) : AccountsKept s₁ s₃ :=
  fun addr acc h => h₂₃ addr acc (h₁₂ addr acc h)

/-- Every stored account is stored under its own address, as AccountKeeper.SetAccount keys it. -/
def AccountsKeyed (s : MultiStore) : Prop :=
  ∀ addr acc, s.Account? addr = some acc → acc.address = addr

/-- A write outside the accounts keeps them. -/
theorem accountsKept_set_of_ne {k : MultiKey} (v : MultiValue) (s : MultiStore)
    (h : ∀ addr, k ≠ .account addr) : AccountsKept s ((KV.Delta.set k v : MultiDelta) • s) := by
  intro addr acc hacc
  rw [Account?_smul_set_of_ne v s (h addr)]
  exact hacc

/-- Storing a new account keeps the others. -/
theorem accountsKept_set_account {addr : Address} (acc : Account) {s : MultiStore}
    (hnew : s.Account? addr = none) :
    AccountsKept s ((KV.Delta.set (.account addr) (.account acc) : MultiDelta) • s) := by
  intro addr' acc' hacc
  have hne : addr ≠ addr' := by
    rintro rfl
    rw [hnew] at hacc
    cases hacc
  rw [Account?_smul_set_account, if_neg hne]
  exact hacc

theorem accountsKeyed_set_of_ne {k : MultiKey} (v : MultiValue) {s : MultiStore}
    (h : ∀ addr, k ≠ .account addr) (hs : AccountsKeyed s) : AccountsKeyed ((KV.Delta.set k v : MultiDelta) • s) := by
  intro addr acc hacc
  rw [Account?_smul_set_of_ne v s (h addr)] at hacc
  exact hs addr acc hacc

theorem accountsKeyed_delete_of_ne {k : MultiKey} {s : MultiStore} (h : ∀ addr, k ≠ .account addr)
    (hs : AccountsKeyed s) : AccountsKeyed ((KV.Delta.delete k : MultiDelta) • s) := by
  intro addr acc hacc
  rw [Account?_smul_delete_of_ne s (h addr)] at hacc
  exact hs addr acc hacc

/-- Storing an account under its own address keeps the store keyed. -/
theorem accountsKeyed_set_account (acc : Account) {s : MultiStore} (hs : AccountsKeyed s) :
    AccountsKeyed ((KV.Delta.set (.account acc.address) (.account acc) : MultiDelta) • s) := by
  intro addr acc' hacc
  rw [Account?_smul_set_account] at hacc
  split at hacc
  · rename_i h
    cases hacc
    exact h
  · exact hs addr acc' hacc

end MultiStore

namespace StoreM

/-- Read a byte store. -/
def Get (k : MultiKey) : StoreM Bytes := do return (← Buffered.read).Get k

/-- store.Has. -/
def Has (k : MultiKey) : StoreM Bool := do return (← Buffered.read).Has k

/-- store.Set on a byte store. -/
def Set (k : MultiKey) (bz : Bytes) : StoreM Unit := Buffered.write (KV.Delta.set k (.bytes bz))

/-- store.Delete. -/
def Delete (k : MultiKey) : StoreM Unit := Buffered.write (KV.Delta.delete k)

theorem Set_keyed {k : MultiKey} (bz : Bytes) (h : ∀ addr, k ≠ .account addr) :
    Buffered.Preserves MultiStore.AccountsKeyed (Set k bz) :=
  Buffered.Preserves.write fun _ hs => MultiStore.accountsKeyed_set_of_ne _ h hs

theorem Delete_keyed {k : MultiKey} (h : ∀ addr, k ≠ .account addr) :
    Buffered.Preserves MultiStore.AccountsKeyed (Delete k) :=
  Buffered.Preserves.write fun _ hs => MultiStore.accountsKeyed_delete_of_ne h hs

end StoreM

end AnconEvm
