import AnconEvm.Evm.Keeper
/-
  The keeper as go-ethereum's StateDB (x/evm/keeper/statedb.go), and the account helpers of
  keeper.go it uses.

  Every operation starts with the `HasStateError` guard: once an operation has failed and set
  `stateErr`, the following ones do nothing and return zero values, `Snapshot` and
  `RevertToSnapshot` included.  Balances move through the bank: `AddBalance` mints into the EVM
  module account and then sends to the address, `SubBalance` sends from the address to the module
  account and then burns.

  `Op` lists the calls that change state, and `run` performs a sequence of them, as the EVM does
  while it executes a message.
-/

namespace AnconEvm.Evm

namespace Keeper

/-! ## Account helpers of keeper.go -/

/-- GetCodeHash: the account's code hash, the empty code hash for a missing or non-Ethereum
    account. -/
def GetCodeHash (addr : Address) (k : Keeper) : Hash :=
  if k.HasStateError then 0
  else
    match k.view.Account? addr with
    | none => EmptyCodeHash
    | some acc =>
      match acc.type with
      | .eth codeHash => HexToHash codeHash
      | _ => EmptyCodeHash

/-- ForEachStorage: the account's storage slots in key order, or the state error. -/
def ForEachStorage (addr : Address) (k : Keeper) : Except String (List (Hash × Hash)) :=
  match k.stateErr with
  | some err => .error err
  | none =>
    .ok ((k.view.PrefixIterator (AddressStoragePrefix addr)).map fun e =>
      (BytesToHash e.1, BytesToHash (match e.2 with | .bytes bz => bz | _ => [])))

/-- GetAccountStorage. -/
def GetAccountStorage (addr : Address) (k : Keeper) : Except String (List State) :=
  (k.ForEachStorage addr).map fun slots => slots.map fun kv => NewState kv.1 kv.2

/-- DeleteState. -/
def DeleteState (addr : Address) (key : Hash) (k : Keeper) : Keeper :=
  (k.call (StoreM.Delete (.evm (AddressStoragePrefix addr ++ key.Bytes)))).2

/-- DeleteAccountStorage: delete every slot ForEachStorage visits (none under a state error). -/
def DeleteAccountStorage (addr : Address) (k : Keeper) : Keeper :=
  match k.ForEachStorage addr with
  | .error _ => k
  | .ok slots => slots.foldl (fun k kv => k.DeleteState addr kv.1) k

/-- DeleteCode: remove the code the account's code hash names, unless it is the empty code. -/
def DeleteCode (addr : Address) (k : Keeper) : Keeper :=
  let hash := k.GetCodeHash addr
  if hash = EmptyCodeHash then k
  else (k.call (StoreM.Delete (.evm (KeyPrefixCode ++ hash.Bytes)))).2

/-- ResetAccount. -/
def ResetAccount (addr : Address) (k : Keeper) : Keeper :=
  (k.DeleteCode addr).DeleteAccountStorage addr

/-- ClearBalance: send the whole EVM balance to the module account and burn it. -/
def ClearBalance (addr : Address) (k : Keeper) : Except String Nat × Keeper :=
  let prevBalance := k.view.Amount (.balance addr)
  if prevBalance > 0 then
    match k.call (Bank.SendCoinsFromAccountToModule k.ModuleAddress addr ModuleName prevBalance) with
    | (.error err, k) => (.error ("failed to transfer to module account: " ++ err), k)
    | (.ok (), k) =>
      match k.call (Bank.BurnCoins k.ModuleAddress ModuleName prevBalance) with
      | (.error err, k) => (.error ("failed to burn coins from evm module account: " ++ err), k)
      | (.ok (), k) => (.ok prevBalance, k)
  else (.ok prevBalance, k)

/-- PostTxProcessing: no error without hooks. -/
def PostTxProcessing (txHash : Hash) (logs : List Log) (k : Keeper) : Except String Unit × Keeper :=
  match k.hooks with
  | none => (.ok (), k)
  | some hooks => k.call (hooks.PostTxProcessing txHash logs)

/-! ## StateDB -/

/-- CreateAccount: a fresh account, after resetting the code and storage of an existing one. -/
def CreateAccount (addr : Address) (k : Keeper) : Keeper :=
  if k.HasStateError then k
  else
    let k := if (k.view.Account? addr).isSome then k.ResetAccount addr else k
    (k.call (Auth.SetAccount (Auth.NewAccountWithAddress addr))).2

/-- AddBalance: mint into the module account, then send to the address; a failed step sets the
    state error.  Non-positive amounts are ignored. -/
def AddBalance (addr : Address) (amount : Int) (k : Keeper) : Keeper :=
  if k.HasStateError then k
  else if amount ≤ 0 then k
  else
    match k.call (Bank.MintCoins k.ModuleAddress ModuleName amount.toNat) with
    | (.error err, k) => { k with stateErr := some err }
    | (.ok (), k) =>
      match k.call (Bank.SendCoinsFromModuleToAccount k.ModuleAddress ModuleName addr amount.toNat) with
      | (.error err, k) => { k with stateErr := some err }
      | (.ok (), k) => k

/-- SubBalance: send from the address to the module account, then burn; a failed send is
    ignored, a failed burn sets the state error.  Non-positive amounts are ignored. -/
def SubBalance (addr : Address) (amount : Int) (k : Keeper) : Keeper :=
  if k.HasStateError then k
  else if amount ≤ 0 then k
  else
    match k.call (Bank.SendCoinsFromAccountToModule k.ModuleAddress addr ModuleName amount.toNat) with
    | (.error _, k) => k
    | (.ok (), k) =>
      match k.call (Bank.BurnCoins k.ModuleAddress ModuleName amount.toNat) with
      | (.error err, k) => { k with stateErr := some err }
      | (.ok (), k) => k

/-- GetBalance. -/
def GetBalance (addr : Address) (k : Keeper) : Int :=
  if k.HasStateError then 0 else k.view.Amount (.balance addr)

/-- GetNonce: the account sequence, zero for a missing account. -/
def GetNonce (addr : Address) (k : Keeper) : UInt64 :=
  if k.HasStateError then 0
  else
    match k.view.Account? addr with
    | some acc => acc.sequence
    | none => 0

/-- SetNonce: set the sequence, creating the account when missing. -/
def SetNonce (addr : Address) (nonce : UInt64) (k : Keeper) : Keeper :=
  if k.HasStateError then k
  else
    let account := (k.view.Account? addr).getD (Auth.NewAccountWithAddress addr)
    (k.call (Auth.SetAccount { account with sequence := nonce })).2

/-- GetCode: nil for the empty code hash. -/
def GetCode (addr : Address) (k : Keeper) : Bytes :=
  if k.HasStateError then []
  else
    let hash := k.GetCodeHash addr
    if hash = EmptyCodeHash then [] else k.view.Get (.evm (KeyPrefixCode ++ hash.Bytes))

/-- SetCode: store the code under its hash and record the hash in the EthAccount; a
    non-Ethereum account sets the state error. -/
def SetCode (Keccak256 : Bytes → Hash) (addr : Address) (code : Bytes) (k : Keeper) : Keeper :=
  if k.HasStateError then k
  else
    let hash := Keccak256 code
    let (account, k) : Account × Keeper :=
      match k.view.Account? addr with
      | some acc => (acc, k)
      | none =>
        let acc := Auth.NewAccountWithAddress addr
        (acc, (k.call (Auth.SetAccount acc)).2)
    match account.type with
    | .eth _ =>
      let k := (k.call (Auth.SetAccount { account with type := .eth hash.Hex })).2
      let codeKey := MultiKey.evm (KeyPrefixCode ++ hash.Bytes)
      if code.length = 0 then (k.call (StoreM.Delete codeKey)).2
      else (k.call (StoreM.Set codeKey code)).2
    | _ =>
      { k with stateErr := some ("invalid account type, ethereum-address " ++ addr.Hex ++
          ", code-hash " ++ hash.Hex) }

/-- GetCodeSize. -/
def GetCodeSize (addr : Address) (k : Keeper) : Nat :=
  if k.HasStateError then 0 else (k.GetCode addr).length

/-- GetRefund. -/
def GetRefund (k : Keeper) : Except String UInt64 :=
  if k.HasStateError then .ok 0 else getCounter KeyPrefixTransientRefund k

/-- AddRefund (uint64 addition). -/
def AddRefund (gas : UInt64) (k : Keeper) : Except String Keeper :=
  if k.HasStateError then .ok k
  else do
    let refund ← k.GetRefund
    return setCounter KeyPrefixTransientRefund (refund + gas) k

/-- SubRefund: panics below zero. -/
def SubRefund (gas : UInt64) (k : Keeper) : Except String Keeper :=
  if k.HasStateError then .ok k
  else do
    let refund ← k.GetRefund
    if gas > refund then throw "refund counter below zero"
    return setCounter KeyPrefixTransientRefund (refund - gas) k

/-- doGetState: a slot of an account in a store, the zero hash when unset. -/
def doGetState (s : MultiStore) (addr : Address) (key : Hash) : Hash :=
  let value := s.Get (.evm (AddressStoragePrefix addr ++ key.Bytes))
  if value.length = 0 then 0 else BytesToHash value

/-- GetCommittedState: read through the initial context. -/
def GetCommittedState (addr : Address) (hash : Hash) (k : Keeper) : Hash :=
  if k.HasStateError then 0 else doGetState k.ctxStack.initialCtx.store addr hash

/-- GetState: read through Ctx(). -/
def GetState (addr : Address) (hash : Hash) (k : Keeper) : Hash :=
  if k.HasStateError then 0 else doGetState k.view addr hash

/-- SetState: an empty value deletes the slot. -/
def SetState (addr : Address) (key value : Hash) (k : Keeper) : Keeper :=
  if k.HasStateError then k
  else
    let slot := MultiKey.evm (AddressStoragePrefix addr ++ key.Bytes)
    if IsEmptyHash value.Hex then (k.call (StoreM.Delete slot)).2
    else (k.call (StoreM.Set slot value.Bytes)).2

/-- HasSuicided. -/
def HasSuicided (addr : Address) (k : Keeper) : Bool :=
  if k.HasStateError then false
  else k.view.Has (.transient (KeyPrefixTransientSuicided ++ addr.Bytes))

/-- Suicide: clear the balance and mark the account; a failed clear sets the state error. -/
def Suicide (addr : Address) (k : Keeper) : Bool × Keeper :=
  if k.HasStateError then (false, k)
  else if k.HasSuicided addr then (true, k)
  else
    match k.ClearBalance addr with
    | (.error err, k) => (false, { k with stateErr := some err })
    | (.ok _, k) =>
      (true, (k.call (StoreM.Set (.transient (KeyPrefixTransientSuicided ++ addr.Bytes)) [1])).2)

/-- Exist: a suicided or an existing account. -/
def Exist (addr : Address) (k : Keeper) : Bool :=
  if k.HasStateError then false
  else k.HasSuicided addr || (k.view.Account? addr).isSome

/-- Empty: zero nonce, zero balance and empty code; a non-Ethereum account is not empty. -/
def Empty (addr : Address) (k : Keeper) : Bool :=
  if k.HasStateError then false
  else
    match k.view.Account? addr with
    | some acc =>
      match acc.type with
      | .eth codeHash =>
        k.GetBalance addr == 0 && acc.sequence == 0 && HexToHash codeHash == EmptyCodeHash
      | _ => false
    | none => k.GetBalance addr == 0

/-- AddressInAccessList. -/
def AddressInAccessList (addr : Address) (k : Keeper) : Bool :=
  if k.HasStateError then false
  else k.view.Has (.transient (KeyPrefixTransientAccessListAddress ++ addr.Bytes))

/-- addressSlotInAccessList. -/
def addressSlotInAccessList (addr : Address) (slot : Hash) (k : Keeper) : Bool :=
  k.view.Has (.transient (KeyPrefixTransientAccessListSlot ++ (addr.Bytes ++ slot.Bytes)))

/-- SlotInAccessList. -/
def SlotInAccessList (addr : Address) (slot : Hash) (k : Keeper) : Bool × Bool :=
  if k.HasStateError then (false, false)
  else (k.AddressInAccessList addr, k.addressSlotInAccessList addr slot)

/-- AddAddressToAccessList. -/
def AddAddressToAccessList (addr : Address) (k : Keeper) : Keeper :=
  if k.HasStateError then k
  else if k.AddressInAccessList addr then k
  else (k.call (StoreM.Set (.transient (KeyPrefixTransientAccessListAddress ++ addr.Bytes)) [1])).2

/-- AddSlotToAccessList. -/
def AddSlotToAccessList (addr : Address) (slot : Hash) (k : Keeper) : Keeper :=
  if k.HasStateError then k
  else
    let k := k.AddAddressToAccessList addr
    if k.addressSlotInAccessList addr slot then k
    else
      (k.call (StoreM.Set
        (.transient (KeyPrefixTransientAccessListSlot ++ (addr.Bytes ++ slot.Bytes))) [1])).2

/-- PrepareAccessList: the sender, the destination, the precompiles and the tx access list. -/
def PrepareAccessList (sender : Address) (dest : Option Address) (precompiles : List Address)
    (txAccesses : List (Address × List Hash)) (k : Keeper) : Keeper :=
  if k.HasStateError then k
  else
    let k := k.AddAddressToAccessList sender
    let k := match dest with
      | some d => k.AddAddressToAccessList d
      | none => k
    let k := precompiles.foldl (fun k addr => k.AddAddressToAccessList addr) k
    txAccesses.foldl (fun k tuple =>
      tuple.2.foldl (fun k key => k.AddSlotToAccessList tuple.1 key)
        (k.AddAddressToAccessList tuple.1)) k

/-- Snapshot: the index of a new cached context; zero, and no context, under a state error. -/
def Snapshot (k : Keeper) : Nat × Keeper :=
  if k.HasStateError then (0, k)
  else
    let (i, cs) := k.ctxStack.Snapshot
    (i, { k with ctxStack := cs })

/-- RevertToSnapshot: a no-op under a state error; panics out of bounds. -/
def RevertToSnapshot (target : Int) (k : Keeper) : Except String Keeper :=
  if k.HasStateError then .ok k
  else do
    let cs ← k.ctxStack.RevertToSnapshot target
    return { k with ctxStack := cs }

/-- AddLog: fill in the block hash, tx index, tx hash and log index, then store the log. -/
def AddLog (log : Log) (k : Keeper) : Except String Keeper :=
  if k.HasStateError then .ok k
  else do
    let txIndex ← k.GetTxIndexTransient
    let logSize ← k.GetLogSizeTransient
    let log : Log := { log with
      BlockHash := BytesToHash k.HeaderHash
      TxIndex := txIndex.toNat
      TxHash := k.GetTxHashTransient
      Index := logSize.toNat }
    let k ← k.IncreaseLogSizeTransient
    return k.AddLogTransient log

end Keeper

/-! ## Runs of StateDB calls -/

/-- A StateDB call that can change the state. -/
inductive Op
  | CreateAccount (addr : Address)
  | AddBalance (addr : Address) (amount : Int)
  | SubBalance (addr : Address) (amount : Int)
  | SetNonce (addr : Address) (nonce : UInt64)
  | SetCode (addr : Address) (code : Bytes)
  | AddRefund (gas : UInt64)
  | SubRefund (gas : UInt64)
  | SetState (addr : Address) (key value : Hash)
  | Suicide (addr : Address)
  | AddAddressToAccessList (addr : Address)
  | AddSlotToAccessList (addr : Address) (slot : Hash)
  | Snapshot
  | RevertToSnapshot (target : Int)
  | AddLog (log : Log)

/-- Perform one call; a panic is an error. -/
def Op.exec (Keccak256 : Bytes → Hash) : Op → Keeper → Except String Keeper
  | .CreateAccount addr, k => .ok (k.CreateAccount addr)
  | .AddBalance addr amount, k => .ok (k.AddBalance addr amount)
  | .SubBalance addr amount, k => .ok (k.SubBalance addr amount)
  | .SetNonce addr nonce, k => .ok (k.SetNonce addr nonce)
  | .SetCode addr code, k => .ok (k.SetCode Keccak256 addr code)
  | .AddRefund gas, k => k.AddRefund gas
  | .SubRefund gas, k => k.SubRefund gas
  | .SetState addr key value, k => .ok (k.SetState addr key value)
  | .Suicide addr, k => .ok (k.Suicide addr).2
  | .AddAddressToAccessList addr, k => .ok (k.AddAddressToAccessList addr)
  | .AddSlotToAccessList addr slot, k => .ok (k.AddSlotToAccessList addr slot)
  | .Snapshot, k => .ok k.Snapshot.2
  | .RevertToSnapshot target, k => k.RevertToSnapshot target
  | .AddLog log, k => k.AddLog log

/-- Perform a sequence of calls, stopping at the first panic. -/
def Op.run (Keccak256 : Bytes → Hash) : List Op → Keeper → Except String Keeper
  | [], k => .ok k
  | op :: ops, k => do
    let k ← op.exec Keccak256 k
    Op.run Keccak256 ops k

/-! ## Failed balance moves

  A credit to a blocked address fails in its second step, after the mint; the failure sets the
  state error, which then turns the reverts of the enclosing EVM call into no-ops. -/

/-- A credit of 5 to the fee collector, a blocked address: the module account keeps the 5 coins
    it minted and the supply grows by 5, while the fee collector receives nothing. -/
theorem AddBalance_blocked_leaves_minted_coins :
    let ModuleAddress : String → Address := fun name =>
      BitVec.ofNat 160 (100 + maccPerms.findIdx (·.1 == name))
    let k : Keeper :=
      ⟨⟨⟨∅, []⟩, []⟩, ⟨"aphoton", true, true, []⟩, 1, [], "json", false, none, none, ModuleAddress⟩
    let k' := k.AddBalance (ModuleAddress FeeCollectorName) 5
    k'.view.Amount (.balance (ModuleAddress ModuleName)) = 5 ∧ k'.view.Amount .supply = 5 ∧
      k'.view.Amount (.balance (ModuleAddress FeeCollectorName)) = 0 ∧ k'.stateErr.isSome := by
  decide +kernel

/-- A contract writes a slot, then moves a coin to the blocked fee collector in a nested call,
    then reverts to its first snapshot: the revert does nothing, and clearing the state error and
    committing (as ApplyTransaction does) stores the reverted slot. -/
theorem RevertToSnapshot_skipped_after_state_error :
    let ModuleAddress : String → Address := fun name =>
      BitVec.ofNat 160 (100 + maccPerms.findIdx (·.1 == name))
    let s₀ : MultiStore :=
      (KV.Delta.set (.balance 7) (.amount 10) * KV.Delta.set .supply (.amount 10) : MultiDelta) • ∅
    let k : Keeper :=
      ⟨⟨⟨s₀, []⟩, []⟩, ⟨"aphoton", true, true, []⟩, 1, [], "json", false, none, none, ModuleAddress⟩
    let ops := [Op.Snapshot, .SetState 7 1 1, .Snapshot, .SubBalance 7 1,
      .AddBalance (ModuleAddress FeeCollectorName) 1, .RevertToSnapshot 0]
    Keeper.doGetState s₀ 7 1 = 0 ∧
      (Op.run (fun _ => 0) ops k).map (fun k' => (Keeper.doGetState k'.view 7 1,
        Keeper.doGetState k'.ClearStateError.CommitCachedContexts.ctxStack.initialCtx.store 7 1)) =
        .ok (1, 1) := by
  decide +kernel

end AnconEvm.Evm
