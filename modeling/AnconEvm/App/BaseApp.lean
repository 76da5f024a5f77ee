import AnconEvm.App.Ante
/-
  Delivering a transaction (baseapp/baseapp.go's runTx and runMsgs, of cosmos-sdk v0.44.1, the
  version src/go.mod pins) with the app's ante handler and the EVM module's message server.

  The ante handler runs on a cache of the block state, which is written back when the handler
  succeeds, whatever happens after.  The messages then run one after another on a second cache,
  which is written back in DeliverTx when every message succeeds; a message error or a panic
  drops it.  So the fee the ante handler deducts, and the sequence it increments, stay in the
  block state even when the message fails.

  Events, gas meters and the results' data other than the EVM responses are left out.
-/

namespace AnconEvm.BaseApp

open Evm Ante

/-- validateBasicTxMsgs: at least one message, each passing its ValidateBasic. -/
def validateBasicTxMsgs (cosmos : CosmosEnv) (msgs : List Msg) : Except String Unit := do
  if msgs.isEmpty then throw "must contain at least one message: invalid request"
  for msg in msgs do
    match msg with
    | .ethereumTx msgEthTx => msgEthTx.ValidateBasic
    | .other typeUrl => cosmos.OtherValidateBasic typeUrl

/-- The loop of runMsgs from message `i` on, over the message cache's state: the EVM responses,
    one per message (none for another module's message), and the state they leave. -/
def runMsgsFrom (env : Env) (cosmos : CosmosEnv) (k : Keeper) :
    Nat → List Msg → MultiStore → Except String (List (Option MsgEthereumTxResponse) × MultiStore)
  | _, [], s => .ok ([], s)
  | i, .ethereumTx msgEthTx :: rest, s =>
    match EthereumTx env ⟨s, []⟩ msgEthTx k with
    | .error panic => .error ("recovered: " ++ panic ++ ": panic")
    | .ok (.error err, _) =>
      .error ("failed to execute message; message index: " ++ toString i ++ ": " ++ err)
    | .ok (.ok res, k') => do
      let (results, s) ← runMsgsFrom env cosmos k (i + 1) rest k'.ctxStack.initialCtx.store
      return (some res :: results, s)
  | i, .other typeUrl :: rest, s =>
    match (cosmos.OtherHandler typeUrl).exec s with
    | .error err =>
      .error ("failed to execute message; message index: " ++ toString i ++ ": " ++ err)
    | .ok s => do
      let (results, s) ← runMsgsFrom env cosmos k (i + 1) rest s
      return (none :: results, s)

/-- runMsgs: CheckTx and ReCheckTx stop before the messages. -/
def runMsgs (env : Env) (cosmos : CosmosEnv) (mode : ExecMode) (msgs : List Msg) (k : Keeper)
    (s : MultiStore) : Except String (List (Option MsgEthereumTxResponse) × MultiStore) :=
  if mode = .check ∨ mode = .recheck then .ok ([], s)
  else runMsgsFrom env cosmos k 0 msgs s

/-- runTx: the result of a transaction and the block state it leaves.  The keeper is the EVM
    keeper the app was built with; each handler points it at its own context. -/
def runTx (env : Env) (cosmos : CosmosEnv) (mode : ExecMode) (tx : SdkTx) (k : Keeper)
    (s : MultiStore) : Except String (List (Option MsgEthereumTxResponse)) × MultiStore :=
  match validateBasicTxMsgs cosmos tx.Msgs with
  | .error err => (.error err, s)
  | .ok () =>
    match NewAnteHandler env cosmos mode tx (k.WithContext ⟨s, []⟩) with
    | .error err => (.error err, s)
    | .ok anteKeeper =>
      -- the ante cache is written back
      let s := anteKeeper.ctxStack.initialCtx.store
      match runMsgs env cosmos mode tx.Msgs k s with
      | .error err => (.error err, s)
      | .ok (results, s') => (.ok results, if mode = .deliver then s' else s)

/-! ## Runs on a concrete chain

  The go-ethereum and the state of `Evm/StateTransition.lean`'s runs, with Cosmos SDK decorators
  that behave as the SDK's do on the runs' transactions. -/

/-- The Cosmos SDK of the runs.  Their Cosmos transactions carry one signature, made with the
    sender's own key, so the signature checks pass; the fee decorator deducts a non-zero fee from
    the signer `runSender`, and the sequence decorator increments its sequence.  Their Ethereum
    transactions carry no Cosmos signature. -/
def runCosmosEnv : CosmosEnv where
  CosmosAnteHandler := fun _ tx => do
    if tx.Fee > 0 then
      Bank.SendCoinsFromAccountToModule runModuleAddress runSender FeeCollectorName tx.Fee
    match ← Auth.GetAccount runSender with
    | some acc => Auth.SetAccount { acc with sequence := acc.sequence + 1 }
    | none => Buffered.fail ("account " ++ runSender.Hex ++ " does not exist: unknown address")
  ValidateBasic := fun tx => if tx.ExtensionOptions.isEmpty then .ok () else .error ErrNoSignatures
  MinGasPrice := 0
  MaxMemoCharacters := 256
  OtherValidateBasic := fun _ => .ok ()
  OtherHandler := fun _ => pure ()

/-- A MsgEthereumTx in a transaction without extension option, with a zero Cosmos fee: the Cosmos
    decorators accept it, the message runs, and RefundGas pays the sender 74800 from the fee
    collector although nothing was deducted from it. -/
theorem runTx_cosmos_route_refunds_undeducted_fee :
    let msg : MsgEthereumTx := ⟨signedCall, ""⟩
    let tx : SdkTx := ⟨[.ethereumTx msg], [], "", 0, 0, 100000⟩
    let s := runStore 100000
    let r := runTx runEnv runCosmosEnv .deliver tx (runKeeper ∅ none TracerJSON) s
    r.1.map (fun results => results.map fun res => res.map (·.GasUsed)) = .ok [some 25200] ∧
      s.Amount (.balance runSender) = 0 ∧ r.2.Amount (.balance runSender) = 74800 ∧
      r.2.Amount (.balance (runModuleAddress FeeCollectorName)) = 25200 := by
  decide +kernel

/-- A contract creation while creation is disabled, delivered twice: each time the ante handler
    deducts the fee and leaves the sequence at the tx nonce 0, and the message fails. -/
theorem runTx_disabled_create_replayable :
    let create : MsgEthereumTx := ⟨signedCreate, ""⟩
    let tx : SdkTx := ⟨[.ethereumTx create], [ExtensionOptionsEthereumTx], "", 0, 100000, 100000⟩
    let s₀ : MultiStore :=
      (KV.Delta.set (.balance runSender) (.amount 200000) * KV.Delta.set .supply (.amount 200000) :
        MultiDelta) • runStore 0
    let k : Keeper := { runKeeper ∅ none TracerJSON with params := ⟨"aphoton", false, true, []⟩ }
    let r₁ := runTx runEnv runCosmosEnv .deliver tx k s₀
    let r₂ := runTx runEnv runCosmosEnv .deliver tx k r₁.2
    r₁.1 = .error ("failed to execute message; message index: 0: failed to apply transaction: " ++
        "failed to create new contract: EVM Create operation is disabled") ∧
      (r₁.2.Account? runSender).map (·.sequence) = some 0 ∧
      r₁.2.Amount (.balance runSender) = 100000 ∧
      r₂.1 = r₁.1 ∧ r₂.2.Amount (.balance runSender) = 0 := by
  decide +kernel

end AnconEvm.BaseApp
