import AnconEvm.Evm.StateDB
import AnconEvm.Rpc.Filters
/-
  The EVM state transition (x/evm/keeper/state_transition.go, x/evm/types/tracer.go): a
  transaction becomes a core message, runs in go-ethereum's EVM with the keeper as its StateDB,
  has its unused gas refunded from the fee collector, and then passes the post-processing hooks.

  go-ethereum is the parameter `Env`: the signer, the intrinsic gas, the fork rules, the bloom of
  a list of logs, the code hash, and the EVM itself.  From the state it starts in, an execution
  makes a sequence of StateDB calls (`Op`) and ends with a result; the EVM is deterministic, so the
  sequence is a function of that state.  The tracer observes an execution and never changes it,
  so the EVM does not take it; only its construction, which can panic, is modelled.  The staking
  keeper's coinbase lookup is part of `Env` too.

  With hooks set, `ApplyTransaction` takes a snapshot before the message runs and reverts to it
  when a hook fails.  The revert drops every write since the snapshot (the EVM's, the refund of
  the unused gas, the tx index increment) while the response keeps the gas used net of the
  refund and the logs read before the revert.

  Go errors are `Except` values inside the result; panics are the outer `Except.error`.  Error
  texts follow stacktrace's brief format, "message: cause".  The gas meter of the context, which
  `resetGasMeterAndConsumeGas` sets, is left out.
-/

namespace AnconEvm.Evm

/-- An Ethereum transaction (ethtypes.Transaction) by its fields, with its signature values. -/
structure Transaction where
  Nonce : UInt64
  GasPrice : Int
  Gas : UInt64
  To : Option Address
  Value : Int
  Data : Bytes
  AccessList : List (Address × List Hash)
  V : Nat
  R : Nat
  S : Nat
  deriving DecidableEq, Repr

/-- core.Message. -/
structure Message where
  From : Address
  To : Option Address
  Nonce : UInt64
  Value : Int
  Gas : UInt64
  GasPrice : Int
  Data : Bytes
  AccessList : List (Address × List Hash)
  deriving DecidableEq, Repr

/-- What an execution of the EVM (evm.Create or evm.Call) returns: the return data, the gas left
    and the VM error. -/
structure ExecResult where
  Ret : Bytes
  LeftoverGas : UInt64
  VmErr : Option String
  deriving DecidableEq, Repr

/-- The code outside this repository that the state transition calls. -/
structure Env where
  /-- The chain's signer at a height (MakeSigner, Sender): the sender the signature recovers. -/
  Sender : Int → Transaction → Except String Address
  /-- tx.Hash(). -/
  TxHash : Transaction → Hash
  /-- core.IntrinsicGas(data, accessList, isContractCreation, homestead, istanbul). -/
  IntrinsicGas : Bytes → List (Address × List Hash) → Bool → Bool → Bool → Except String UInt64
  /-- The chain config's fork rules at a height. -/
  IsHomestead : Int → Bool
  IsIstanbul : Int → Bool
  IsBerlin : Int → Bool
  /-- vm.ActivePrecompiles of the rules at a height. -/
  ActivePrecompiles : Int → List Address
  /-- evm.Create (a message without recipient) or evm.Call, with the coinbase of the block and the
      gas it is given: the StateDB calls it makes from the keeper it starts on, and its result. -/
  Execute : Address → Message → UInt64 → Keeper → List Op × ExecResult
  /-- ethtypes.LogsBloom: the bloom bytes of a list of logs. -/
  LogsBloom : List Log → Bytes
  /-- crypto.Keccak256Hash, the code hash of SetCode. -/
  Keccak256 : Bytes → Hash
  /-- GetCoinbaseAddress: the operator address of the block proposer. -/
  Coinbase : Except String Address

/-- tx.AsMessage(signer): the message of a transaction, sent by the signature's signer. -/
def Transaction.AsMessage (env : Env) (height : Int) (tx : Transaction) : Except String Message := do
  let sender ← env.Sender height tx
  return ⟨sender, tx.To, tx.Nonce, tx.Value, tx.Gas, tx.GasPrice, tx.Data, tx.AccessList⟩

/-- types.MsgEthereumTxResponse. -/
structure MsgEthereumTxResponse where
  Hash : String
  Logs : List Log
  Ret : Bytes
  VmError : String
  GasUsed : UInt64
  deriving DecidableEq, Repr

/-- MsgEthereumTxResponse.Failed: the execution ended with a VM error. -/
def MsgEthereumTxResponse.Failed (res : MsgEthereumTxResponse) : Bool := res.VmError.length > 0

/-- types.ErrPostTxProcessing. -/
def ErrPostTxProcessing : String := "failed to execute post processing"

/-! ## Tracers -/

/-- The tracers NewTracer builds. -/
inductive Tracer
  /-- vm.NewAccessListTracer(accessList, from, to, precompiles). -/
  | AccessList (accessList : List (Address × List Hash)) (sender dest : Address) (precompiles : List Address)
  /-- vm.NewJSONLogger, with the debug flag of its log config. -/
  | JSONLogger (debug : Bool)
  /-- vm.NewMarkdownLogger. -/
  | MarkdownLogger (debug : Bool)
  /-- vm.NewStructLogger. -/
  | StructLogger (debug : Bool)
  /-- NoOpTracer. -/
  | NoOp
  deriving DecidableEq, Repr

/-- The tracer names of types/tracer.go. -/
def TracerAccessList : String := "access_list"
def TracerJSON : String := "json"
def TracerStruct : String := "struct"
def TracerMarkdown : String := "markdown"

/-- NewTracer.  The access list tracer reads the message's recipient through a pointer, which is
    nil for a contract creation: Go panics there. -/
def NewTracer (env : Env) (tracer : String) (msg : Message) (height : Int) (debug : Bool) :
    Except String Tracer :=
  if tracer = TracerAccessList then
    let precompiles := env.ActivePrecompiles height
    match msg.To with
    | some dest => .ok (.AccessList msg.AccessList msg.From dest precompiles)
    | none => .error "runtime error: invalid memory address or nil pointer dereference"
  else if tracer = TracerJSON then .ok (.JSONLogger debug)
  else if tracer = TracerMarkdown then .ok (.MarkdownLogger debug)
  else if tracer = TracerStruct then .ok (.StructLogger debug)
  else .ok .NoOp

/-- NewTracer panics exactly for the access list tracer on a contract creation. -/
theorem NewTracer_eq_error_iff (env : Env) (tracer : String) (msg : Message) (height : Int)
    (debug : Bool) :
    (∃ err, NewTracer env tracer msg height debug = .error err) ↔
      tracer = TracerAccessList ∧ msg.To = none := by
  unfold NewTracer
  by_cases hacc : tracer = TracerAccessList
  · cases hto : msg.To with
    | none => simp [hacc]
    | some dest => simp [hacc]
  · -- every other name builds a logger
    simp only [hacc, if_false, false_and, iff_false, not_exists]
    intro err
    split_ifs <;> simp

/-! ## Gas -/

/-- GetEthIntrinsicGas: the intrinsic gas under the rules of the context's height. -/
def GetEthIntrinsicGas (env : Env) (msg : Message) (isContractCreation : Bool) (k : Keeper) :
    Except String UInt64 :=
  env.IntrinsicGas msg.Data msg.AccessList isContractCreation (env.IsHomestead k.BlockHeight)
    (env.IsIstanbul k.BlockHeight)

/-- GasToRefund: the gas consumed over the refund quotient, capped by the refund counter. -/
def GasToRefund (gasConsumed refundQuotient : UInt64) (k : Keeper) : Except String UInt64 := do
  let refund := gasConsumed / refundQuotient
  let availableRefund ← k.GetRefund
  if refund > availableRefund then return availableRefund
  return refund

/-- The text of ErrInconsistentGas wrapped with the two gas amounts. -/
def inconsistentGas (leftoverGas gas : UInt64) : String :=
  "leftover gas cannot be greater than gas limit (" ++ toString leftoverGas ++ " > " ++
    toString gas ++ "): inconsistent gas"

/-- RefundGas: add the refund to the leftover gas, and pay the leftover gas at the message's gas
    price from the fee collector back to the sender.  Returns the new leftover gas. -/
def RefundGas (msg : Message) (leftoverGas refundQuotient : UInt64) (k : Keeper) :
    Except String (Except String UInt64 × Keeper) := do
  if leftoverGas > msg.Gas then
    return (.error ("failed to update gas consumed after refund of leftover gas: " ++
      inconsistentGas leftoverGas msg.Gas), k)
  let gasConsumed := msg.Gas - leftoverGas
  let refund ← GasToRefund gasConsumed refundQuotient k
  let leftoverGas := leftoverGas + refund
  if leftoverGas > msg.Gas then
    return (.error ("failed to update gas consumed after refund of " ++ toString refund ++ " gas: " ++
      inconsistentGas leftoverGas msg.Gas), k)
  let remaining : Int := leftoverGas.toNat * msg.GasPrice
  if remaining < 0 then
    return (.error ("refunded amount value cannot be negative " ++ toString remaining ++
      ": invalid gas refund amount"), k)
  if remaining = 0 then return (.ok leftoverGas, k)
  -- a positive refund, sent by the bank from the fee collector module account
  let refundedCoins := toString remaining ++ k.params.EvmDenom
  match k.call (Bank.SendCoinsFromModuleToAccount k.ModuleAddress FeeCollectorName msg.From
      remaining.toNat) with
  | (.error err, k) =>
    return (.error ("failed to refund " ++ toString leftoverGas ++ " leftover gas (" ++ refundedCoins ++
      "): fee collector account failed to refund fees: " ++ err ++ ": insufficient funds"), k)
  | (.ok (), k) => return (.ok leftoverGas, k)

/-! ## Applying a message and a transaction -/

/-- ApplyMessage: check the intrinsic gas, prepare the access list (Berlin), run the EVM, then
    refund (or, for a query, only count) the unused gas.  The state error is cleared on return. -/
def ApplyMessage (env : Env) (coinbase : Address) (msg : Message) (query : Bool) (k : Keeper) :
    Except String (Except String MsgEthereumTxResponse × Keeper) :=
  match GetEthIntrinsicGas env msg msg.To.isNone k with
  | .error err => .ok (.error ("intrinsic gas failed: " ++ err), k.ClearStateError)
  | .ok intrinsicGas =>
    if msg.Gas < intrinsicGas then .ok (.error "apply message: intrinsic gas too low", k.ClearStateError)
    else do
      let k := if env.IsBerlin k.BlockHeight then
          k.PrepareAccessList msg.From msg.To (env.ActivePrecompiles k.BlockHeight) msg.AccessList
        else k
      let (ops, res) := env.Execute coinbase msg (msg.Gas - intrinsicGas) k
      let k ← Op.run env.Keccak256 ops k
      let refundQuotient : UInt64 := 2
      let (leftoverGas, k) ← if query then do
          -- eth_call: the refund is counted but not paid
          let refund ← GasToRefund (msg.Gas - res.LeftoverGas) refundQuotient k
          pure (.ok (res.LeftoverGas + refund), k)
        else RefundGas msg res.LeftoverGas refundQuotient k
      match leftoverGas with
      | .error err =>
        return (.error ("failed to refund gas leftover gas to sender " ++ msg.From.Hex ++ ": " ++ err),
          k.ClearStateError)
      | .ok leftoverGas =>
        return (.ok ⟨"", [], res.Ret, res.VmErr.getD "", msg.Gas - leftoverGas⟩, k.ClearStateError)

namespace Keeper

/-- The post-processing step of ApplyTransaction: after a successful execution the hooks run, and
    when they fail the state reverts to the snapshot and the response carries the
    post-processing error. -/
def postProcess (revision : Nat) (txHash : Hash) (logs : List Log) (res : MsgEthereumTxResponse)
    (k : Keeper) : Except String (MsgEthereumTxResponse × Keeper) :=
  if res.Failed then .ok (res, k)
  else
    match k.PostTxProcessing txHash logs with
    | (.ok (), k) => .ok (res, k)
    | (.error _, k) => do
      let k ← k.RevertToSnapshot revision
      return ({ res with VmError := ErrPostTxProcessing }, k)

/-- The log step of ApplyTransaction: the response carries the logs, and the block bloom takes
    them in. -/
def recordLogs (env : Env) (logs : List Log) (res : MsgEthereumTxResponse) (k : Keeper) :
    MsgEthereumTxResponse × Keeper :=
  if logs.length > 0 then
    let bloom := k.GetBlockBloomTransient ||| BigEndian.decode (env.LogsBloom logs)
    ({ res with Logs := logs }, k.SetBlockBloomTransient bloom)
  else (res, k)

end Keeper

/-- ApplyTransaction: refuse a disabled kind of transaction, build the message and the tracer,
    record the tx hash, run the message under a snapshot when hooks are set, count the tx, run the
    hooks, record the logs, and commit the cached contexts.  The state error is cleared on
    return. -/
def ApplyTransaction (env : Env) (tx : Transaction) (k : Keeper) :
    Except String (Except String MsgEthereumTxResponse × Keeper) :=
  let params := k.params
  if !params.EnableCreate && tx.To.isNone then
    .ok (.error "failed to create new contract: EVM Create operation is disabled", k.ClearStateError)
  else if !params.EnableCall && tx.To.isSome then
    .ok (.error "failed to call contract: EVM Call operation is disabled", k.ClearStateError)
  else
    match tx.AsMessage env k.BlockHeight, env.Coinbase with
    | .error err, _ =>
      .ok (.error ("failed to return ethereum transaction as core message: " ++ err), k.ClearStateError)
    | .ok _, .error err => .ok (.error ("failed to obtain coinbase address: " ++ err), k.ClearStateError)
    | .ok msg, .ok coinbase => do
      let _ ← NewTracer env k.tracer msg k.BlockHeight k.debug
      let txHash := env.TxHash tx
      let k := k.SetTxHashTransient txHash
      if !k.ctxStack.IsEmpty then throw "context stack shouldn't be dirty before apply message"
      -- the snapshot holds the execution and the post-processing in one scope
      let (revision, k) := if k.hooks.isSome then k.Snapshot else (0, k)
      match ← ApplyMessage env coinbase msg false k with
      | (.error err, k) =>
        return (.error ("failed to apply ethereum core message: " ++ err), k.ClearStateError)
      | (.ok res, k) =>
        let k ← k.IncreaseTxIndexTransient
        let logs := k.GetTxLogsTransient txHash
        let (res, k) ← k.postProcess revision txHash logs { res with Hash := txHash.Hex }
        let (res, k) := k.recordLogs env logs res
        return (.ok res, k.CommitCachedContexts.ClearStateError)

/-! ## Runs on a concrete chain

  A go-ethereum and a state after the ante handler, for the runs below.  The transactions are
  signed with the key of `runSender` for chain ID 9000 (the chain ethermint_9000-1): their
  signature values and their hashes are the real ones, listed in `runSignedTxs`.  The hashes of
  the codes the runs store and of the log addresses their blooms record are the real Keccak-256
  hashes (`runHashes`).  Every transaction costs 21000 intrinsic gas and runs under the Berlin
  rules.  The interpreter is scripted rather than run on bytecode: a call's script transfers the
  value, adds a refund of 4800, emits one log from the callee and leaves 9000 gas less; a
  creation's deploys empty code at 0x2000, as go-ethereum's create does. -/

/-- authtypes.NewModuleAddress for the modules of maccPerms: the first 20 bytes of the SHA-256
    hash of the module's name. -/
def runModuleAddress (name : String) : Address :=
  match name with
  | "fee_collector" => 0xf1829676db577682e944fc3493d451b67ff3e29f
  | "distribution" => 0x93354845030274cd4bf1686abd60ab28ec52e1a7
  | "mint" => 0xdc6f17bbec824fff8f86587966b2047db6ab7367
  | "bonded_tokens_pool" => 0x4fea76427b8345861e80a3540a8a9d936fd39391
  | "not_bonded_tokens_pool" => 0x5911b844d7bc224654fe0dcd16babd2d253f2fdf
  | "gov" => 0x7b5fe22b5446f7c62ea27b8bd71cef94e03f3df2
  | "transfer" => 0x27f576cafbb263ed44be8bd094f66114da268777
  | "evm" => 0x603871c2ddd41c26ee77495e2e31e6de7f9957e0
  | _ => 0

/-- The address of the key that signs the runs' transactions. -/
def runSender : Address := 0xf39fd6e51aad88f6f4ce6ab8827279cfffb92266

/-- A contract creation with nonce 0, gas price 1 and 100000 gas, signed under EIP-155. -/
def signedCreate : Transaction :=
  ⟨0, 1, 100000, none, 0, [], [], 18036,
    0x6f4312d2da96f6838536a7378c77028c6cf52bbaf9643b233db238345c09ac8,
    0x75abbca1ab961bc04b9318b3dfd8d99649e275636cbf5d5e063099a71b59782a⟩

/-- A call to 0x4000 with nonce 0, gas price 1 and 100000 gas, signed under EIP-155. -/
def signedCall : Transaction :=
  ⟨0, 1, 100000, some 0x4000, 0, [], [], 18036,
    0x93e807c53b11a46e58acb5b2935374facd288c780d42b5648d6a38f1f6a7b448,
    0x56e46b4e7cdd213bae80d5d12ff7fe0517cbfa3a7ff2d0a70898756c013e65d7⟩

/-- The same call with nonce 1, signed under EIP-155. -/
def signedCallAgain : Transaction :=
  ⟨1, 1, 100000, some 0x4000, 0, [], [], 18035,
    0x440c6e5b1be61686fb52c2e5debf703493d79eab486b4ca14935653f3c3f42f3,
    0x5df0e8d6231d4744d313af34f92e6b4d96ad8954f4a2cd4e4f31053ae3322f6e⟩

/-- A call to 0x5000 with nonce 1, gas price 1 and 100000 gas, signed under EIP-155. -/
def signedCallOther : Transaction :=
  ⟨1, 1, 100000, some 0x5000, 0, [], [], 18035,
    0x7eeb3099198f4b27e2edcb1d359ba4415fe49ba80752611f594417fba2fba20b,
    0x7b98896cd333af806eaa4f4ab832ded61d27a93a66f918fee18a8f1aba0d3719⟩

/-- A call to 0x4000 with nonce 0 whose access list names slot 7 of 0x5000: an EIP-2930
    transaction, signed as one. -/
def signedAccessListCall : Transaction :=
  ⟨0, 1, 100000, some 0x4000, 0, [], [(0x5000, [7])], 1,
    0xdde1cffb42d101cb45627f5497e1eec60e82a0eb908b7f17a0152dc81bec198a,
    0x1e44d77bf99a974b63807d6b0233b5182231637ff507ede8ced6a30dc6d7719f⟩

/-- The runs' signed transactions, each with the Keccak-256 hash of its signed encoding. -/
def runSignedTxs : List (Transaction × Hash) :=
  [(signedCreate, 0x9476bb700709c5541ff5b836a6482f0d69f9388612f8f5d3c2d91d23b7c9fad3),
    (signedCall, 0x8868fe7169dce59c9331dc2fc5d9aea9a2e1477ef66f16d122e002bd4e1160da),
    (signedCallAgain, 0xe6edb2577d086dfcecaade78b7b4c8a8ff80a9ea4779e26d178d09747c1bcfd1),
    (signedCallOther, 0x637193c7c93cbb40dfb834f7c1107b877fd5d7031ca63752399ab5fc6a412fde),
    (signedAccessListCall, 0xc70d7b30cd5f7f2630fbae902724919ae65054bab71552ee58eb2f1b383f5d11)]

/-- The data the runs hash, with their Keccak-256 hashes: the codes they store (the empty code,
    and PUSH1 0 SELFDESTRUCT), and the addresses of the logs they emit, which their blooms
    record. -/
def runHashes : List (Bytes × Hash) :=
  [([], EmptyCodeHash),
    ([0x60, 0x00, 0xff], 0x396daaf3a7871f857cc9b5878c6bb66c394a6d109706095617db9f4e4c22edcd),
    (Address.Bytes 0x4000, 0x4d511a9340d28f68d08c4516b5cbfcc05360f8197f520545da83a9a1b3f2b0e6),
    (Address.Bytes 0x5000, 0xc5aac4b400850d273ac17f5855d18dae34475dbf5e9c29a1e2d53e4466b905ee)]

/-- crypto.Keccak256 on the data the runs hash. -/
def runKeccak256 (data : Bytes) : Hash := (runHashes.lookup data).getD 0

/-- The go-ethereum of the runs. -/
def runEnv : Env where
  -- the signer recovers `runSender` from the runs' signatures; the runs sign nothing else
  Sender := fun _ tx =>
    if (runSignedTxs.lookup tx).isSome then .ok runSender
    else .error "invalid transaction v, r, s values"
  TxHash := fun tx => (runSignedTxs.lookup tx).getD 0
  IntrinsicGas := fun _ _ _ _ _ => .ok 21000
  IsHomestead := fun _ => true
  IsIstanbul := fun _ => true
  IsBerlin := fun _ => true
  ActivePrecompiles := fun _ => [1, 2, 3, 4, 5, 6, 7, 8, 9]
  Execute := fun _ msg gas k =>
    match msg.To with
    | some dest =>
      -- evm.Call: snapshot, value transfer, then the callee's code
      ([.Snapshot, .SubBalance msg.From msg.Value, .AddBalance dest msg.Value, .AddRefund 4800,
        .AddLog ⟨dest, [], [], UInt64.ofInt k.BlockHeight, 0, 0, 0, 0, false⟩],
        ⟨[], gas - 9000, none⟩)
    | none =>
      -- evm.Create: nonce bump, access list, snapshot, account, value transfer, code
      ([.SetNonce msg.From (k.GetNonce msg.From + 1), .AddAddressToAccessList 0x2000, .Snapshot,
        .CreateAccount 0x2000, .SetNonce 0x2000 1, .SubBalance msg.From msg.Value,
        .AddBalance 0x2000 msg.Value, .SetCode 0x2000 []], ⟨[], gas, none⟩)
  LogsBloom := fun logs =>
    Filters.Bloom.Bytes (Filters.LogsBloom runKeccak256 (logs.map Log.ToEthereum))
  Keccak256 := runKeccak256
  Coinbase := .ok 0x3000

/-- The block state after the ante handler: the sender's EthAccount with nothing left, and the fees
    it paid in the fee collector. -/
def runStore (fees : Nat) : MultiStore :=
  (KV.Delta.set (.account runSender) (.account ⟨runSender, 0, .eth EmptyCodeHash.Hex⟩) *
    KV.Delta.set (.balance (runModuleAddress FeeCollectorName)) (.amount fees) *
    KV.Delta.set .supply (.amount fees) : MultiDelta) • ∅

/-- The keeper of the runs, at height 1, on a fresh context. -/
def runKeeper (store : MultiStore) (hooks : Option EvmHooks) (tracer : String) : Keeper :=
  ⟨⟨⟨store, []⟩, []⟩, ⟨"aphoton", true, true, []⟩, 1, [], tracer, false, hooks, none,
    runModuleAddress⟩

/-- A contract creation panics on a node started with the access list tracer, and succeeds on a
    node started with the default json tracer. -/
theorem ApplyTransaction_access_list_tracer_panics_on_create :
    let tx : Transaction := signedCreate
    let outcome := fun (tracer : String) =>
      (ApplyTransaction runEnv tx (runKeeper (runStore 100000) none tracer)).map fun r =>
        r.1.map fun res => (res.VmError, res.GasUsed)
    outcome TracerAccessList = .error "runtime error: invalid memory address or nil pointer dereference" ∧
      outcome TracerJSON = .ok (.ok ("", 21000)) := by
  decide +kernel

/-- A call whose hook fails: the response reports 25200 gas used (30000 consumed, 4800 refunded),
    and the fee collector keeps the whole 100000 the sender paid.  Without hooks the same call
    reports the same gas used and returns 74800 to the sender. -/
theorem ApplyTransaction_hook_failure_drops_refund :
    let tx : Transaction := signedCall
    let failing : EvmHooks := ⟨fun _ _ => Buffered.fail "hook failed"⟩
    let outcome := fun (hooks : Option EvmHooks) =>
      (ApplyTransaction runEnv tx (runKeeper (runStore 100000) hooks TracerJSON)).map fun r =>
        (r.1.map fun res => (res.VmError, res.GasUsed),
          r.2.ctxStack.initialCtx.store.Amount (.balance runSender),
          r.2.ctxStack.initialCtx.store.Amount (.balance (runModuleAddress FeeCollectorName)))
    outcome (some failing) = .ok (.ok (ErrPostTxProcessing, 25200), 0, 100000) ∧
      outcome none = .ok (.ok ("", 25200), 74800, 25200) := by
  decide +kernel

/-- Two calls in one block, the hook refusing the first: the first response reports a log with tx
    index 0 and log index 0 that is no longer stored, and the second reports (and stores) a log with
    the same two indices. -/
theorem ApplyTransaction_hook_failure_reuses_log_indices :
    let tx₁ : Transaction := signedCall
    let tx₂ : Transaction := signedCallAgain
    let hooks : EvmHooks :=
      ⟨fun txHash _ => if txHash = runEnv.TxHash tx₁ then Buffered.fail "hook failed" else pure ()⟩
    let indices : List Log → List (Nat × Nat) := fun logs => logs.map fun l => (l.TxIndex, l.Index)
    (do
      let (r₁, k₁) ←
        ApplyTransaction runEnv tx₁ (runKeeper (runStore 200000) (some hooks) TracerJSON)
      let (r₂, k₂) ← ApplyTransaction runEnv tx₂ k₁
      return (r₁.map (fun (res : MsgEthereumTxResponse) => indices res.Logs),
        indices (k₁.GetTxLogsTransient (runEnv.TxHash tx₁)),
        r₂.map (fun (res : MsgEthereumTxResponse) => indices res.Logs),
        indices (k₂.GetTxLogsTransient (runEnv.TxHash tx₂)))) =
      .ok (.ok [(0, 0)], [], .ok [(0, 0)], [(0, 0)]) := by
  set_option synthInstance.maxSize 256 in decide +kernel

/-- The go-ethereum of a self-destruct: a call runs code that sends the callee's balance to the
    caller and self-destructs (SELFDESTRUCT: AddBalance to the beneficiary, then Suicide). -/
def suicideEnv : Env :=
  { runEnv with
    Execute := fun coinbase msg gas k =>
      match msg.To with
      | some dest => ([.Snapshot, .AddBalance msg.From (k.GetBalance dest), .Suicide dest], ⟨[], gas - 5000, none⟩)
      | none => runEnv.Execute coinbase msg gas k }

/-- The runs' state with a contract at 0x4000: code 0x6000ff (PUSH1 0 SELFDESTRUCT) under its hash,
    slot 1 set to 5, and a balance of 10. -/
def contractStore (fees : Nat) : MultiStore :=
  (KV.Delta.set (.account runSender) (.account ⟨runSender, 0, .eth EmptyCodeHash.Hex⟩) *
    KV.Delta.set (.account 0x4000)
      (.account ⟨0x4000, 1, .eth (runEnv.Keccak256 [0x60, 0x00, 0xff]).Hex⟩) *
    KV.Delta.set (.evm (KeyPrefixCode ++ (runEnv.Keccak256 [0x60, 0x00, 0xff]).Bytes))
      (.bytes [0x60, 0x00, 0xff]) *
    KV.Delta.set (.evm (AddressStoragePrefix 0x4000 ++ (1 : Hash).Bytes)) (.bytes (5 : Hash).Bytes) *
    KV.Delta.set (.balance 0x4000) (.amount 10) *
    KV.Delta.set (.balance (runModuleAddress FeeCollectorName)) (.amount fees) *
    KV.Delta.set .supply (.amount (fees + 10)) : MultiDelta) • ∅

/-- A committed call in which the contract at 0x4000 self-destructs (Suicide returns true and
    marks it): once the block is committed the mark is gone and only the balance was cleared;
    the next block still reads the contract's code, its code hash and its storage slot. -/
theorem ApplyTransaction_suicided_contract_keeps_code_and_storage :
    let tx : Transaction := signedCall
    let after := fun (k : Keeper) => k.WithContext ⟨k.ctxStack.initialCtx.store.resetTransient, []⟩
    ∃ res k, ApplyTransaction suicideEnv tx (runKeeper (contractStore 100000) none TracerJSON) =
        .ok (.ok res, k) ∧
      res.VmError = "" ∧ k.HasSuicided 0x4000 = true ∧ (after k).HasSuicided 0x4000 = false ∧
      (after k).GetBalance 0x4000 = 0 ∧ (after k).GetCode 0x4000 = [0x60, 0x00, 0xff] ∧
      (after k).GetCodeHash 0x4000 = runEnv.Keccak256 [0x60, 0x00, 0xff] ∧
      (after k).ForEachStorage 0x4000 = .ok [(1, 5)] := by
  intro tx after
  -- one evaluation of the run, checked field by field
  have hrun : (ApplyTransaction suicideEnv tx (runKeeper (contractStore 100000) none TracerJSON)).map
      (fun r => match r.1 with
        | .ok res => res.VmError == "" && r.2.HasSuicided 0x4000 && !(after r.2).HasSuicided 0x4000 &&
            (after r.2).GetBalance 0x4000 == 0 && (after r.2).GetCode 0x4000 == [0x60, 0x00, 0xff] &&
            (after r.2).GetCodeHash 0x4000 == runEnv.Keccak256 [0x60, 0x00, 0xff] &&
            (after r.2).ForEachStorage 0x4000 == .ok [(1, 5)]
        | .error _ => false) = .ok true := by
    decide +kernel
  cases h : ApplyTransaction suicideEnv tx (runKeeper (contractStore 100000) none TracerJSON) with
  | error e =>
    rw [h] at hrun
    cases hrun
  | ok r =>
    obtain ⟨r₁, k⟩ := r
    rw [h] at hrun
    cases r₁ with
    | error e => cases hrun
    | ok res =>
      simp only [Except.map, Except.ok.injEq, Bool.and_eq_true, beq_iff_eq, Bool.not_eq_true'] at hrun
      obtain ⟨⟨⟨⟨⟨⟨hvm, hmark⟩, hreset⟩, hbal⟩, hcode⟩, hhash⟩, hslots⟩ := hrun
      exact ⟨res, k, rfl, hvm, hmark, hreset, hbal, hcode, hhash, hslots⟩

end AnconEvm.Evm
