import AnconEvm.App.Bank
import AnconEvm.Keeper.ContextStack
/-
  The EVM keeper (x/evm/keeper/keeper.go): its state, and its accessors of the transient block
  state (tx hash and index, refund counter, log counter, logs, block bloom) and of account
  storage.

  Every read goes through `Ctx()`, the top context of the context stack, and every write lands
  in it (`Keeper.call`), so a later `RevertToSnapshot` can drop it.  Code of the SDK keepers is
  `StoreM` code run through `call`; a Go error it returns is an `Except` value the caller
  inspects, while a panic of the keeper itself is an `Except.error` of the whole operation.

  The keeper's `stateErr` records the error of a failed state operation; while it is set, every
  StateDB operation is a no-op that returns a zero value (`Evm/StateDB.lean`).
-/

namespace AnconEvm.Evm

open Buffered

/-- The EVM module parameters (types.Params); the chain config is go-ethereum's and is left
    out. -/
structure Params where
  EvmDenom : String
  EnableCreate : Bool
  EnableCall : Bool
  ExtraEIPs : List Int
  deriving DecidableEq, Repr

/-- types.EvmHooks: the post-processing hook, run on the keeper's context after a successful
    EVM execution. -/
structure EvmHooks where
  PostTxProcessing : Hash → List Log → StoreM Unit

/-- The EVM keeper. -/
structure Keeper where
  /-- The initial context and the cache context stack. -/
  ctxStack : ContextStack MultiDelta MultiStore Event
  /-- GetParams(ctx): the module parameters, fixed during a transaction. -/
  params : Params
  /-- The height of the block of the context. -/
  BlockHeight : Int
  /-- The header hash of the context. -/
  HeaderHash : Bytes
  /-- The tracer name the node was started with. -/
  tracer : String
  /-- The node's --trace flag. -/
  debug : Bool
  /-- The post-processing hooks, if set. -/
  hooks : Option EvmHooks
  /-- The error of the previous state operation. -/
  stateErr : Option String
  /-- The module account addresses of the account keeper. -/
  ModuleAddress : String → Address

namespace Keeper

/-- The state of Ctx()'s multistore. -/
def view (k : Keeper) : MultiStore := k.ctxStack.view

/-- Run SDK store code on Ctx(): its writes land in the top context; an error leaves the keeper
    as it was and is returned as a value. -/
def call {α : Type} (x : StoreM α) (k : Keeper) : Except String α × Keeper :=
  match x k.view with
  | .error e => (.error e, k)
  | .ok (a, d) => (.ok a, { k with ctxStack := k.ctxStack.write d })

/-- A successful call wrote its buffer into the top context. -/
theorem call_eq_ok {α : Type} {x : StoreM α} {k k' : Keeper} {a : α} (h : k.call x = (.ok a, k')) :
    ∃ d, x k.view = .ok (a, d) ∧ k' = { k with ctxStack := k.ctxStack.write d } := by
  unfold call at h
  split at h
  · cases h
  · rename_i a' d hx
    obtain ⟨ha, rfl⟩ := Prod.mk.inj h
    cases ha
    exact ⟨d, hx, rfl⟩

/-- A failed call leaves the keeper as it was. -/
theorem call_eq_error {α : Type} {x : StoreM α} {k k' : Keeper} {e : String}
    (h : k.call x = (.error e, k')) : k' = k := by
  unfold call at h
  split at h
  · exact (Prod.mk.inj h).2.symm
  · cases h

@[simp] theorem view_write (k : Keeper) (d : MultiDelta) :
    ({ k with ctxStack := k.ctxStack.write d } : Keeper).view = d • k.view :=
  ContextStack.view_write d k.ctxStack

/-- Run SDK store code that cannot fail on the keeper's path; a failure is a panic. -/
def exec {α : Type} (x : StoreM α) (k : Keeper) : Except String (α × Keeper) :=
  match k.call x with
  | (.error e, _) => .error e
  | (.ok a, k') => .ok (a, k')

/-- Ctx().BlockHeight() as the transient keys take it, uint64(height). -/
def heightBz (k : Keeper) : Bytes := Uint64ToBigEndian (UInt64.ofInt k.BlockHeight)

/-- HasStateError. -/
def HasStateError (k : Keeper) : Bool := k.stateErr.isSome

/-- ClearStateError. -/
def ClearStateError (k : Keeper) : Keeper := { k with stateErr := none }

/-- WithContext: reset the context stack on a new initial context. -/
def WithContext (ctx : Context MultiStore Event) (k : Keeper) : Keeper :=
  { k with ctxStack := k.ctxStack.Reset ctx }

/-- CommitCachedContexts. -/
def CommitCachedContexts (k : Keeper) : Keeper := { k with ctxStack := k.ctxStack.Commit }

/-! ## Transient block state -/

/-- GetBlockBloomTransient: zero when unset. -/
def GetBlockBloomTransient (k : Keeper) : Nat :=
  let bz := k.view.Get (.transient (KeyPrefixTransientBloom ++ k.heightBz))
  if bz.length = 0 then 0 else BigEndian.decode bz

/-- SetBlockBloomTransient. -/
def SetBlockBloomTransient (bloom : Nat) (k : Keeper) : Keeper :=
  (k.call (StoreM.Set (.transient (KeyPrefixTransientBloom ++ k.heightBz)) (bigBytes bloom))).2

/-- GetTxHashTransient: the zero hash when unset. -/
def GetTxHashTransient (k : Keeper) : Hash :=
  let bz := k.view.Get (.transient KeyPrefixTransientTxHash)
  if bz.length = 0 then 0 else BytesToHash bz

/-- SetTxHashTransient. -/
def SetTxHashTransient (hash : Hash) (k : Keeper) : Keeper :=
  (k.call (StoreM.Set (.transient KeyPrefixTransientTxHash) hash.Bytes)).2

/-- A uint64 counter of the transient store: zero when unset (GetTxIndexTransient,
    GetLogSizeTransient, GetRefund). -/
def getCounter (key : Bytes) (k : Keeper) : Except String UInt64 :=
  let bz := k.view.Get (.transient key)
  if bz.length = 0 then .ok 0 else BigEndianToUint64 bz

/-- Set a uint64 counter of the transient store. -/
def setCounter (key : Bytes) (value : UInt64) (k : Keeper) : Keeper :=
  (k.call (StoreM.Set (.transient key) (Uint64ToBigEndian value))).2

/-- GetTxIndexTransient. -/
def GetTxIndexTransient (k : Keeper) : Except String UInt64 := getCounter KeyPrefixTransientTxIndex k

/-- SetTxIndexTransient. -/
def SetTxIndexTransient (index : UInt64) (k : Keeper) : Keeper :=
  setCounter KeyPrefixTransientTxIndex index k

/-- IncreaseTxIndexTransient. -/
def IncreaseTxIndexTransient (k : Keeper) : Except String Keeper := do
  let txIndex ← k.GetTxIndexTransient
  return k.SetTxIndexTransient (txIndex + 1)

/-- GetLogSizeTransient. -/
def GetLogSizeTransient (k : Keeper) : Except String UInt64 :=
  getCounter KeyPrefixTransientLogSize k

/-- IncreaseLogSizeTransient. -/
def IncreaseLogSizeTransient (k : Keeper) : Except String Keeper := do
  let logSize ← k.GetLogSizeTransient
  return setCounter KeyPrefixTransientLogSize (logSize + 1) k

/-- The transient key of a log: the tx hash, then the log index. -/
def logKey (log : Log) : Bytes :=
  KeyPrefixTransientTxLogs ++ (log.TxHash.Bytes ++ Uint64ToBigEndian (UInt64.ofNat log.Index))

/-- AddLogTransient. -/
def AddLogTransient (log : Log) (k : Keeper) : Keeper :=
  (k.call (write (KV.Delta.set (.transient (logKey log)) (.log log)))).2

/-- GetTxLogsTransient: the logs stored under the tx hash, by log index.  keeper.go returns each
    as log.ToEthereum(), and its caller ApplyTransaction turns them back into the stored form with
    NewLogsFromEth; the model returns the stored form, and a reader that needs go-ethereum's
    form applies `Log.ToEthereum`. -/
def GetTxLogsTransient (txHash : Hash) (k : Keeper) : List Log :=
  (k.view.TransientIterator KeyPrefixTransientTxLogs txHash.Bytes
      (txHash.Bytes ++ [255, 255, 255, 255, 255, 255, 255, 255])).filterMap fun e =>
    match e.2 with
    | .log l => some l
    | _ => none

/-- ResetRefundTransient, on the context the ante handler passes. -/
def ResetRefundTransient (k : Keeper) : Keeper := setCounter KeyPrefixTransientRefund 0 k

/-! ## Writes through the context

  Keeper code changes the keeper's context stack and, apart from the state error and the
  context a handler installs, nothing else: the parameters, the block and the module accounts it
  reads stay what they were. -/

/-- `k'` is `k` with another context stack of the same depth: what store code run through the
    keeper's context, and the events it emits, change. -/
structure StackOnly (k k' : Keeper) : Prop where
  config : k' = { k with ctxStack := k'.ctxStack }
  depth : k'.ctxStack.cachedContexts.length = k.ctxStack.cachedContexts.length

theorem StackOnly.refl (k : Keeper) : StackOnly k k := ⟨rfl, rfl⟩

theorem StackOnly.trans {k₁ k₂ k₃ : Keeper} (h₁₂ : StackOnly k₁ k₂) (h₂₃ : StackOnly k₂ k₃) :
    StackOnly k₁ k₃ := by
  refine ⟨?_, h₂₃.depth.trans h₁₂.depth⟩
  rw [h₂₃.config, h₁₂.config]

theorem StackOnly.BlockHeight {k k' : Keeper} (h : StackOnly k k') : k'.BlockHeight = k.BlockHeight := by
  rw [h.config]

theorem StackOnly.params {k k' : Keeper} (h : StackOnly k k') : k'.params = k.params := by
  rw [h.config]

theorem StackOnly.ModuleAddress {k k' : Keeper} (h : StackOnly k k') :
    k'.ModuleAddress = k.ModuleAddress := by
  rw [h.config]

/-- A stack that starts empty stays so: the view is then the initial store. -/
theorem StackOnly.view_eq_store {k k' : Keeper} (h : StackOnly k k')
    (hk : k.ctxStack.cachedContexts.length = 0) : k'.view = k'.ctxStack.initialCtx.store :=
  ContextStack.view_of_length_eq_zero (h.depth.trans hk)

theorem stackOnly_write (k : Keeper) (d : MultiDelta) :
    StackOnly k { k with ctxStack := k.ctxStack.write d } :=
  ⟨rfl, ContextStack.length_write d k.ctxStack⟩

theorem stackOnly_emit (k : Keeper) (e : Event) :
    StackOnly k { k with ctxStack := k.ctxStack.emit e } :=
  ⟨rfl, ContextStack.length_emit e k.ctxStack⟩

theorem stackOnly_call {α : Type} (x : StoreM α) (k : Keeper) : StackOnly k (k.call x).2 := by
  unfold call
  split
  · exact StackOnly.refl k
  · exact stackOnly_write k _

theorem view_setCounter (key : Bytes) (value : UInt64) (k : Keeper) :
    (setCounter key value k).view =
      (KV.Delta.set (.transient key) (.bytes (Uint64ToBigEndian value)) : MultiDelta) • k.view :=
  ContextStack.view_write _ k.ctxStack

/-- A transient counter is no coin and no account. -/
theorem coinsKept_setCounter (key : Bytes) (value : UInt64) (k : Keeper) :
    Bank.CoinsKept k.view (setCounter key value k).view := by
  rw [view_setCounter]
  exact Bank.coinsKept_set_of_ne _ _ (fun _ => by simp) (by simp) (fun _ => by simp)

theorem Account?_setCounter (key : Bytes) (value : UInt64) (k : Keeper) (addr : Address) :
    (setCounter key value k).view.Account? addr = k.view.Account? addr := by
  rw [view_setCounter, MultiStore.Account?_smul_set_of_ne _ _ (by simp)]

/-- Storing a new account through the context moves no coins. -/
theorem coinsKept_SetAccount_new {addr : Address} {k : Keeper} (hnew : k.view.Account? addr = none) :
    Bank.CoinsKept k.view (k.call (Auth.SetAccount (Auth.NewAccountWithAddress addr))).2.view := by
  show Bank.CoinsKept k.view (k.ctxStack.write _).view
  rw [ContextStack.view_write]
  exact Bank.coinsKept_set_account (Auth.NewAccountWithAddress addr) hnew

end Keeper

end AnconEvm.Evm
