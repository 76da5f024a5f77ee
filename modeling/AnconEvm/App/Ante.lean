import AnconEvm.Evm.MsgServer
/-
  The ante handler (app/ante/ante.go, app/ante/eth.go) and the fee deduction of the EVM keeper
  (x/evm/keeper/utils.go).

  `NewAnteHandler` routes on the FIRST extension option of the transaction: the Ethereum type URL
  selects the Ethereum decorators; any other option is refused; a transaction without options
  goes through the Cosmos SDK decorators.  The Cosmos SDK's own chain (signature checks against
  `GetSigners`, fee deduction from the fee payer, sequence increments, and the rest) is the
  parameter `CosmosEnv.CosmosAnteHandler`; so are the transaction's `ValidateBasic`, the node's
  minimum gas price and the x/auth memo limit.

  A decorator runs on the ante context through the EVM keeper, whose context stack is empty
  there, so every write lands in the ante context's store.  A decorator that fails ends the chain
  with its error; the caller (`runTx`) then drops every write of the chain.  Go panics recovered
  by `Recover` are errors as well.  The gas meters of the context are left out; addresses print
  in hex where the SDK prints bech32.
-/

namespace AnconEvm

/-- The mode baseapp runs a transaction in. -/
inductive ExecMode
  | check
  | recheck
  | simulate
  | deliver
  deriving DecidableEq, Repr

/-- ctx.IsCheckTx(): CheckTx, ReCheckTx and simulation run on the check state. -/
def ExecMode.IsCheckTx : ExecMode → Bool
  | .check | .recheck | .simulate => true
  | .deliver => false

/-- ctx.IsReCheckTx(). -/
def ExecMode.IsReCheckTx (mode : ExecMode) : Bool := mode == .recheck

/-- sdkerrors.ErrNoSignatures. -/
def ErrNoSignatures : String := "no signatures supplied"

/-- sdk.Msg, by the two kinds the app runs: the EVM module's MsgEthereumTx, and the messages of
    the other modules, by their type URL. -/
inductive Msg
  | ethereumTx (msg : Evm.MsgEthereumTx)
  | other (typeUrl : String)
  deriving DecidableEq, Repr

/-- An SDK transaction (the auth module's tx wrapper), by what the ante handlers read. -/
structure SdkTx where
  Msgs : List Msg
  /-- The type URLs of the extension options, in order. -/
  ExtensionOptions : List String
  Memo : String
  TimeoutHeight : UInt64
  /-- The fee of the AuthInfo, in the EVM denomination. -/
  Fee : Nat
  GasLimit : UInt64
  deriving DecidableEq, Repr

/-- The Cosmos SDK code the ante handler and baseapp call. -/
structure CosmosEnv where
  /-- The decorators of a tx without extension options (SetUpContext ... IncrementSequence). -/
  CosmosAnteHandler : ExecMode → SdkTx → StoreM Unit
  /-- sdk.Tx.ValidateBasic of the tx wrapper. -/
  ValidateBasic : SdkTx → Except String Unit
  /-- The node's minimum gas price in the EVM denomination (zero when unset). -/
  MinGasPrice : Nat
  /-- The x/auth parameter MaxMemoCharacters. -/
  MaxMemoCharacters : Nat
  /-- ValidateBasic of a message of another module. -/
  OtherValidateBasic : String → Except String Unit
  /-- The handler of a message of another module. -/
  OtherHandler : String → StoreM Unit

namespace Evm.Keeper

/-- authante.DeductFees: the fee must be a valid coin (a positive amount); it moves from the
    account to the fee collector. -/
def DeductFees (acc : Account) (fee : Int) (fees : String) (k : Keeper) : Except String Keeper :=
  if fee ≤ 0 then .error ("invalid fee amount: " ++ fees ++ ": insufficient fee")
  else
    match k.call (Bank.SendCoinsFromAccountToModule k.ModuleAddress acc.address FeeCollectorName
        fee.toNat) with
    | (.error err, _) => .error (err ++ ": insufficient funds")
    | (.ok (), k) => .ok k

/-- DeductFees moves the (positive) fee from the account's address to the fee collector. -/
theorem DeductFees_eq_ok {acc : Account} {fee : Int} {fees : String} {k k' : Keeper}
    (hk : k.view.AccountsKeyed) (h : DeductFees acc fee fees k = .ok k') :
    0 < fee ∧ k.StackOnly k' ∧
      Bank.Transferred acc.address (k.ModuleAddress FeeCollectorName) fee.toNat k.view k'.view := by
  unfold DeductFees at h
  split_ifs at h with hfee
  split at h
  · cases h
  · rename_i k₁ hcall
    cases h
    obtain ⟨d, hx, rfl⟩ := call_eq_ok hcall
    obtain ⟨-, -, htr⟩ := Bank.SendCoinsFromAccountToModule_eq_ok k.ModuleAddress hk hx
    exact ⟨by omega, Keeper.stackOnly_write k d, by simpa using htr⟩

/-- DeductTxCostsFromUserBalance: charge the sender gas limit times gas price.  The intrinsic gas
    is compared with the gas limit in CheckTx only. -/
def DeductTxCostsFromUserBalance (env : Env) (mode : ExecMode) (msgEthTx : MsgEthereumTx)
    (txData : Transaction) (denom : String) (homestead istanbul : Bool) (k : Keeper) :
    Except String (String × Keeper) := do
  let isContractCreation := txData.To.isNone
  let some signerAcc := msgEthTx.GetFrom.bind k.view.Account?
    | throw ("account not found for sender " ++ msgEthTx.From ++ ": account " ++ msgEthTx.From ++
        " does not exist: unknown address")
  let gasLimit := txData.Gas
  let intrinsicGas ←
    match env.IntrinsicGas txData.Data txData.AccessList isContractCreation homestead istanbul with
    | .ok gas => pure gas
    | .error err =>
      throw ("failed to retrieve intrinsic gas, contract creation = " ++ toString isContractCreation ++
        "; homestead = " ++ toString homestead ++ ", istanbul = " ++ toString istanbul ++
        ": failed to compute intrinsic gas cost: " ++ err)
  if mode.IsCheckTx && gasLimit < intrinsicGas then
    throw ("gas limit too low: " ++ toString gasLimit ++ " (gas limit) < " ++ toString intrinsicGas ++
      " (intrinsic gas): out of gas")
  let feeAmt := TxData.Fee txData
  let fees := toString feeAmt ++ denom
  match DeductFees signerAcc feeAmt fees k with
  | .error err =>
    throw ("failed to deduct full gas cost " ++ fees ++ " from the user " ++ msgEthTx.From ++
      " balance: " ++ err)
  | .ok k => return (fees, k)

/-- **The sender pays gas limit times gas price**, to the fee collector: the sender's account
    exists, and the fee is positive. -/
theorem DeductTxCostsFromUserBalance_eq_ok {env : Env} {mode : ExecMode} {msgEthTx : MsgEthereumTx}
    {txData : Transaction} {denom : String} {homestead istanbul : Bool} {k k' : Keeper}
    {fees : String} (hk : k.view.AccountsKeyed)
    (h : k.DeductTxCostsFromUserBalance env mode msgEthTx txData denom homestead istanbul =
      .ok (fees, k')) :
    ∃ signerAcc, msgEthTx.GetFrom.bind k.view.Account? = some signerAcc ∧ 0 < TxData.Fee txData ∧
      k.StackOnly k' ∧
      Bank.Transferred signerAcc.address (k.ModuleAddress FeeCollectorName) (TxData.Fee txData).toNat
        k.view k'.view := by
  unfold DeductTxCostsFromUserBalance at h
  dsimp only at h
  split at h
  · rename_i signerAcc hacc
    -- the intrinsic gas, then its check, then the deduction
    split at h
    · simp only [pure_bind] at h
      split at h
      · cases h
      · split at h
        · cases h
        · rename_i k₁ hdeduct
          cases h
          obtain ⟨hfee, hstack, htr⟩ := DeductFees_eq_ok hk hdeduct
          exact ⟨signerAcc, hacc, hfee, hstack, htr⟩
    · cases h
  · cases h

end Evm.Keeper

/-- CheckSenderBalance: the cost (fee and value) is not negative and the balance covers it. -/
def Evm.CheckSenderBalance (balance : Nat) (txData : Evm.Transaction) (denom : String) :
    Except String Unit :=
  let cost := Evm.TxData.Cost txData
  if cost < 0 then
    .error ("tx cost amount should never be negative: tx cost (" ++ toString cost ++ denom ++
      ") is negative and invalid: invalid coins")
  else if balance < cost then
    .error ("sender should have had enough funds to pay for tx cost = fee + amount: sender balance < tx cost (" ++
      toString balance ++ denom ++ " < " ++ toString cost ++ denom ++ "): insufficient funds")
  else .ok ()

namespace Ante

open Evm

/-- The error of a decorator handed a message that is not a MsgEthereumTx. -/
def castError (i : Nat) : String :=
  "failed to cast transaction " ++ toString i ++
    ": invalid transaction type, expected *types.MsgEthereumTx: unknown request"

/-- The extension option of Ethereum transactions. -/
def ExtensionOptionsEthereumTx : String := "/ethermint.evm.v1.ExtensionOptionsEthereumTx"

/-! ## The Ethereum decorators -/

/-- authante.MempoolFeeDecorator: in CheckTx, outside simulation, the fee must cover the node's
    minimum gas price times the gas limit. -/
def MempoolFee (cosmos : CosmosEnv) (mode : ExecMode) (denom : String) (tx : SdkTx) :
    Except String Unit :=
  if mode.IsCheckTx && mode != .simulate && cosmos.MinGasPrice > 0 then
    let requiredFee := cosmos.MinGasPrice * tx.GasLimit.toNat
    if tx.Fee < requiredFee then
      .error ("insufficient fees; got: " ++ toString tx.Fee ++ denom ++ " required: " ++
        toString requiredFee ++ denom ++ ": insufficient fee")
    else .ok ()
  else .ok ()

/-- authante.TxTimeoutHeightDecorator. -/
def TxTimeoutHeight (height : Int) (tx : SdkTx) : Except String Unit :=
  if tx.TimeoutHeight > 0 && UInt64.ofInt height > tx.TimeoutHeight then
    .error ("block height: " ++ toString height ++ ", timeout height: " ++ toString tx.TimeoutHeight ++
      ": tx timeout height")
  else .ok ()

/-- authante.ValidateMemoDecorator: the memo's length in bytes is bounded. -/
def ValidateMemo (cosmos : CosmosEnv) (tx : SdkTx) : Except String Unit :=
  let memoLength := tx.Memo.utf8ByteSize
  if memoLength > cosmos.MaxMemoCharacters then
    .error ("maximum number of characters is " ++ toString cosmos.MaxMemoCharacters ++ " but received " ++
      toString memoLength ++ " characters: memo too large")
  else .ok ()

/-- EthValidateBasicDecorator: the tx's ValidateBasic, where a tx without signatures is fine;
    skipped on ReCheckTx. -/
def EthValidateBasic (cosmos : CosmosEnv) (mode : ExecMode) (tx : SdkTx) : Except String Unit :=
  if mode.IsReCheckTx then .ok ()
  else
    match cosmos.ValidateBasic tx with
    | .error err => if err = ErrNoSignatures then .ok () else .error ("tx basic validation failed: " ++ err)
    | .ok () => .ok ()

/-- EthSigVerificationDecorator: exactly one MsgEthereumTx, whose signature recovers a sender
    under the chain's signer; the sender is written into its From field, and the message is what
    the following decorators see as the tx. -/
def EthSigVerification (env : Env) (height : Int) (msgs : List Msg) : Except String (List Msg) :=
  match msgs with
  | [.ethereumTx msgEthTx] =>
    match env.Sender height msgEthTx.AsTransaction with
    | .error err =>
      .error ("couldn't retrieve sender address (\x27" ++ msgEthTx.From ++
        "\x27) from the ethereum transaction: " ++ err ++
        ": tx intended signer does not match the given signer")
    | .ok sender => .ok [.ethereumTx { msgEthTx with From := sender.Hex }]
  | [.other _] => .error ("failed to cast transaction: invalid transaction type, " ++
      "expected *types.MsgEthereumTx: unknown request")
  | _ => .error "only 1 ethereum msg supported per tx: invalid request"

/-- What the signature check lets through: one MsgEthereumTx, whose sender is recovered. -/
theorem EthSigVerification_eq_ok {env : Env} {height : Int} {msgs msgs' : List Msg}
    (h : EthSigVerification env height msgs = .ok msgs') :
    ∃ msgEthTx sender, msgs = [.ethereumTx msgEthTx] ∧ env.Sender height msgEthTx.Data = .ok sender ∧
      msgs' = [.ethereumTx { msgEthTx with From := sender.Hex }] := by
  unfold EthSigVerification at h
  split at h
  · rename_i msgEthTx
    split at h
    · cases h
    · rename_i sender hsender
      cases h
      exact ⟨msgEthTx, sender, rfl, hsender, rfl⟩
  · cases h
  · cases h

/-- EthAccountVerificationDecorator, in CheckTx only: the sender is an externally owned account
    (created when missing) whose balance covers the cost. -/
def EthAccountVerification (mode : ExecMode) (msgs : List Msg) (k : Keeper) : Except String Keeper := do
  if !mode.IsCheckTx then return k
  let evmDenom := k.params.EvmDenom
  let mut k := k
  for (msg, i) in msgs.zipIdx do
    let .ethereumTx msgEthTx := msg | throw (castError i)
    let some fromAddr := msgEthTx.GetFrom
      | throw ("sender address should have been in the tx field from the previous AnteHandle " ++
          "call: from address cannot be empty: invalid address")
    let codeHash := k.GetCodeHash fromAddr
    if codeHash ≠ EmptyCodeHash then
      throw ("the sender is not EOA: address <" ++ fromAddr.Hex ++ ">, codeHash <" ++ codeHash.Hex ++
        ">: invalid type")
    if (k.view.Account? fromAddr).isNone then
      k := (k.call (Auth.SetAccount (Auth.NewAccountWithAddress fromAddr))).2
    match CheckSenderBalance (k.view.Amount (.balance fromAddr)) msgEthTx.Data evmDenom with
    | .error err => throw ("failed to check sender balance: " ++ err)
    | .ok () => pure ()
  return k

/-- The account check moves no coins: it only stores missing sender accounts. -/
theorem EthAccountVerification_eq_ok {mode : ExecMode} {msgs : List Msg} {k k' : Keeper}
    (h : EthAccountVerification mode msgs k = .ok k') :
    k.StackOnly k' ∧ Bank.CoinsKept k.view k'.view := by
  unfold EthAccountVerification at h
  split at h
  · cases h
    exact ⟨Keeper.StackOnly.refl k, Bank.CoinsKept.refl _⟩
  · obtain ⟨r, hr, h⟩ := Except.bind_eq_ok h
    cases h
    -- the invariant of the loop over the messages
    refine Except.forIn_invariant (fun b => k.StackOnly b ∧ Bank.CoinsKept k.view b.view)
      ⟨Keeper.StackOnly.refl k, Bank.CoinsKept.refl _⟩ ?_ hr
    clear hr
    rintro ⟨msg, i⟩ - b res ⟨hstack, hcoins⟩ hbody
    dsimp only at hbody
    split at hbody
    · split at hbody
      · split at hbody
        · -- the sender is a contract
          cases hbody
        · split at hbody
          · rename_i fromAddr _ _ hnone
            split at hbody
            · cases hbody
            · cases hbody
              have hnew : b.view.Account? fromAddr = none := Option.isNone_iff_eq_none.mp hnone
              exact ⟨hstack.trans (Keeper.stackOnly_call _ b),
                hcoins.trans (Keeper.coinsKept_SetAccount_new hnew)⟩
          · split at hbody
            · cases hbody
            · cases hbody
              exact ⟨hstack, hcoins⟩
      · cases hbody
    · cases hbody

/-- EthNonceVerificationDecorator: the tx nonce is the sender's account sequence; skipped on
    ReCheckTx. -/
def EthNonceVerification (mode : ExecMode) (msgs : List Msg) (k : Keeper) : Except String Unit := do
  if mode.IsReCheckTx then return
  for (msg, i) in msgs.zipIdx do
    let .ethereumTx msgEthTx := msg | throw (castError i)
    let some acc := msgEthTx.GetFrom.bind k.view.Account?
      | throw ("sequence not found for address " ++ msgEthTx.From ++ ": account " ++ msgEthTx.From ++
          " does not exist: unknown address")
    if msgEthTx.Data.Nonce ≠ acc.sequence then
      throw ("invalid nonce; got " ++ toString msgEthTx.Data.Nonce ++ ", expected " ++
        toString acc.sequence ++ ": incorrect account sequence")

/-- **The nonce check of one message**: outside ReCheckTx, the sender's account exists and its
    sequence is the tx nonce. -/
theorem EthNonceVerification_single {mode : ExecMode} {msgEthTx : MsgEthereumTx} {k : Keeper} :
    EthNonceVerification mode [.ethereumTx msgEthTx] k = .ok () ↔
      mode.IsReCheckTx = true ∨
        ∃ acc, msgEthTx.GetFrom.bind k.view.Account? = some acc ∧ msgEthTx.Data.Nonce = acc.sequence := by
  simp only [EthNonceVerification, List.zipIdx_cons, List.zipIdx_nil, List.forIn_cons, List.forIn_nil]
  by_cases hre : mode.IsReCheckTx = true
  · simp only [hre, if_true, true_or, iff_true]
    rfl
  · rw [if_neg hre]
    cases hacc : msgEthTx.GetFrom.bind k.view.Account? with
    | none =>
      simp only [reduceCtorEq, false_and, exists_false, hre, false_or, iff_false]
      exact fun h => nomatch h
    | some acc =>
      by_cases hn : msgEthTx.Data.Nonce = acc.sequence
      · simp only [hn, ne_eq, not_true_eq_false, if_false, Option.some.injEq, exists_eq_left', or_true,
          iff_true]
        rfl
      · simp only [hn, ne_eq, not_false_eq_true, if_true, Option.some.injEq, exists_eq_left', hre,
          Bool.false_eq_true, or_self, iff_false]
        exact fun h => nomatch h

/-- EthGasConsumeDecorator: reset the refund counter, deduct each message's fee, and emit the fee
    events. -/
def EthGasConsume (env : Env) (mode : ExecMode) (msgs : List Msg) (k : Keeper) :
    Except String Keeper := do
  let mut k := k.ResetRefundTransient
  let homestead := env.IsHomestead k.BlockHeight
  let istanbul := env.IsIstanbul k.BlockHeight
  let evmDenom := k.params.EvmDenom
  let mut events : List Event := []
  for (msg, i) in msgs.zipIdx do
    let .ethereumTx msgEthTx := msg | throw (castError i)
    match k.DeductTxCostsFromUserBalance env mode msgEthTx msgEthTx.Data evmDenom homestead istanbul with
    | .error err => throw ("failed to deduct transaction costs from user balance: " ++ err)
    | .ok (fees, k') =>
      k := k'
      events := events ++ [⟨"tx", [("fee", fees)]⟩]
  return events.foldl (fun k e => { k with ctxStack := k.ctxStack.emit e }) k

/-- **The gas consumption of one message** charges its sender the fee, to the fee collector. -/
theorem EthGasConsume_single {env : Env} {mode : ExecMode} {msgEthTx : MsgEthereumTx} {k k' : Keeper}
    (hk : k.view.AccountsKeyed) (h : EthGasConsume env mode [.ethereumTx msgEthTx] k = .ok k') :
    ∃ signerAcc, msgEthTx.GetFrom.bind k.view.Account? = some signerAcc ∧
      0 < TxData.Fee msgEthTx.Data ∧ k.StackOnly k' ∧
      Bank.Transferred signerAcc.address (k.ModuleAddress FeeCollectorName)
        (TxData.Fee msgEthTx.Data).toNat k.view k'.view := by
  simp only [EthGasConsume, List.zipIdx_cons, List.zipIdx_nil, List.forIn_cons, List.forIn_nil] at h
  obtain ⟨st, hst, h⟩ := Except.bind_eq_ok h
  cases h
  obtain ⟨x, hx, hstep⟩ := Except.bind_eq_ok hst
  clear hst
  split at hx
  · cases hx
  · rename_i fees k₁ hdeduct
    cases hx
    cases hstep
    -- the refund reset writes the transient store only
    have hreset := Keeper.coinsKept_setCounter KeyPrefixTransientRefund 0 k
    have hreset_stack := Keeper.stackOnly_call
      (StoreM.Set (.transient KeyPrefixTransientRefund) (Uint64ToBigEndian 0)) k
    obtain ⟨signerAcc, hacc, hfee, hstack, htr⟩ :=
      Keeper.DeductTxCostsFromUserBalance_eq_ok (hreset.keyed hk) hdeduct
    simp only [Keeper.Account?_setCounter] at hacc
    refine ⟨signerAcc, hacc, hfee, (hreset_stack.trans hstack).trans (Keeper.stackOnly_emit _ _), ?_⟩
    -- the fee events change no state
    show Bank.Transferred _ _ _ k.view (k₁.ctxStack.emit _).view
    rw [ContextStack.view_emit, ← hreset_stack.ModuleAddress]
    exact htr.coinsKept_left hreset

/-- CanTransferDecorator: the sender's balance covers the value of the topmost call. -/
def CanTransfer (env : Env) (msgs : List Msg) (k : Keeper) : Except String Unit := do
  for (msg, i) in msgs.zipIdx do
    let .ethereumTx msgEthTx := msg | throw (castError i)
    match msgEthTx.AsTransaction.AsMessage env k.BlockHeight with
    | .error err => throw ("failed to create an ethereum core.Message from signer: " ++ err)
    | .ok coreMsg =>
      if coreMsg.Value > 0 && k.GetBalance coreMsg.From < coreMsg.Value then
        throw ("failed to transfer " ++ toString coreMsg.Value ++
          " using the EVM block context transfer function: address " ++ coreMsg.From.Hex ++
          ": insufficient funds")

/-- EthIncrementSenderSequenceDecorator: increment the sequence of every signer of a call; a
    contract creation is left to the EVM, whose Create bumps the caller's nonce. -/
def EthIncrementSenderSequence (env : Env) (msgs : List Msg) (k : Keeper) : Except String Keeper := do
  let mut k := k
  for (msg, i) in msgs.zipIdx do
    let .ethereumTx msgEthTx := msg | throw (castError i)
    if msgEthTx.Data.To.isNone then continue
    let signers ← msgEthTx.GetSigners env k.BlockHeight
    for addr in signers do
      let some acc := k.view.Account? addr
        | throw ("signer account not found: account " ++ addr.Hex ++ " is nil: unknown address")
      k := (k.call (Auth.SetAccount { acc with sequence := acc.sequence + 1 })).2
  return k

/-- **The sequence increment of one message**: a contract creation is left alone; for a call,
    the account of the recovered sender is stored back with its sequence incremented. -/
theorem EthIncrementSenderSequence_single {env : Env} {msgEthTx : MsgEthereumTx} {k k' : Keeper}
    (h : EthIncrementSenderSequence env [.ethereumTx msgEthTx] k = .ok k') :
    (msgEthTx.Data.To = none ∧ k' = k) ∨
      (msgEthTx.Data.To ≠ none ∧ ∃ sender acc, env.Sender k.BlockHeight msgEthTx.Data = .ok sender ∧
        k.view.Account? sender = some acc ∧ k.StackOnly k' ∧
        k'.view = (KV.Delta.set (.account acc.address)
          (.account { acc with sequence := acc.sequence + 1 }) : MultiDelta) • k.view) := by
  simp only [EthIncrementSenderSequence, List.zipIdx_cons, List.zipIdx_nil, List.forIn_cons,
    List.forIn_nil, MsgEthereumTx.GetSigners] at h
  cases hdest : msgEthTx.Data.To with
  | none =>
    -- a creation: the loop goes on to the next message
    simp only [hdest, Option.isNone_none, if_true] at h
    cases h
    exact .inl ⟨rfl, rfl⟩
  | some dest =>
    simp only [hdest, Option.isNone_some, Bool.false_eq_true, if_false] at h
    refine .inr ⟨nofun, ?_⟩
    obtain ⟨b, hb, h⟩ := Except.bind_eq_ok h
    cases h
    obtain ⟨x, hx, hb⟩ := Except.bind_eq_ok hb
    obtain ⟨signers, hsigners, hx⟩ := Except.bind_eq_ok hx
    -- the signers are the recovered sender
    obtain ⟨sender, hsender, hsigners⟩ := Except.bind_eq_ok hsigners
    cases hsigners
    obtain ⟨st, hst, hx⟩ := Except.bind_eq_ok hx
    cases hx
    cases hb
    simp only [List.forIn_cons, List.forIn_nil] at hst
    obtain ⟨r, hr, hst⟩ := Except.bind_eq_ok hst
    split at hr
    · rename_i acc hacc
      cases hr
      cases hst
      exact ⟨sender, acc, hsender, hacc, Keeper.stackOnly_call _ _, ContextStack.view_write _ _⟩
    · cases hr

/-- The Ethereum decorator chain, outermost first.  EthSetUpContextDecorator only installs an
    infinite gas meter, and the gas meters are left out. -/
def EthAnteHandler (env : Env) (cosmos : CosmosEnv) (mode : ExecMode) (tx : SdkTx) (k : Keeper) :
    Except String Keeper := do
  MempoolFee cosmos mode k.params.EvmDenom tx
  TxTimeoutHeight k.BlockHeight tx
  ValidateMemo cosmos tx
  EthValidateBasic cosmos mode tx
  let msgs ← EthSigVerification env k.BlockHeight tx.Msgs
  let k ← EthAccountVerification mode msgs k
  EthNonceVerification mode msgs k
  let k ← EthGasConsume env mode msgs k
  CanTransfer env msgs k
  EthIncrementSenderSequence env msgs k

/-- **The steps of an accepted Ethereum transaction**: one MsgEthereumTx, whose recovered sender
    is written into its From field, then the account check, the nonce check, the fee and the
    sequence increment, each on the keeper the one before left. -/
theorem EthAnteHandler_eq_ok {env : Env} {cosmos : CosmosEnv} {mode : ExecMode} {tx : SdkTx}
    {k k' : Keeper} (h : EthAnteHandler env cosmos mode tx k = .ok k') :
    ∃ msgEthTx sender k₁ k₂, tx.Msgs = [.ethereumTx msgEthTx] ∧
      env.Sender k.BlockHeight msgEthTx.Data = .ok sender ∧
      EthAccountVerification mode [.ethereumTx { msgEthTx with From := sender.Hex }] k = .ok k₁ ∧
      EthNonceVerification mode [.ethereumTx { msgEthTx with From := sender.Hex }] k₁ = .ok () ∧
      EthGasConsume env mode [.ethereumTx { msgEthTx with From := sender.Hex }] k₁ = .ok k₂ ∧
      EthIncrementSenderSequence env [.ethereumTx { msgEthTx with From := sender.Hex }] k₂ = .ok k' := by
  unfold EthAnteHandler at h
  -- the checks that read the tx only
  obtain ⟨⟨⟩, -, h⟩ := Except.bind_eq_ok h
  obtain ⟨⟨⟩, -, h⟩ := Except.bind_eq_ok h
  obtain ⟨⟨⟩, -, h⟩ := Except.bind_eq_ok h
  obtain ⟨⟨⟩, -, h⟩ := Except.bind_eq_ok h
  obtain ⟨msgs, hsig, h⟩ := Except.bind_eq_ok h
  obtain ⟨k₁, h₁, h⟩ := Except.bind_eq_ok h
  obtain ⟨⟨⟩, h₂, h⟩ := Except.bind_eq_ok h
  obtain ⟨k₂, h₃, h⟩ := Except.bind_eq_ok h
  obtain ⟨⟨⟩, -, h₄⟩ := Except.bind_eq_ok h
  obtain ⟨msgEthTx, sender, hmsgs, hsender, rfl⟩ := EthSigVerification_eq_ok hsig
  exact ⟨msgEthTx, sender, k₁, k₂, hmsgs, hsender, h₁, h₂, h₃, h₄⟩

/-- NewAnteHandler: route on the first extension option. -/
def NewAnteHandler (env : Env) (cosmos : CosmosEnv) (mode : ExecMode) (tx : SdkTx) (k : Keeper) :
    Except String Keeper :=
  match tx.ExtensionOptions with
  | typeURL :: _ =>
    if typeURL = ExtensionOptionsEthereumTx then EthAnteHandler env cosmos mode tx k
    else .error ("rejecting tx with unsupported extension option: " ++ typeURL ++
      ": unknown extension options")
  | [] =>
    -- a plain Cosmos SDK transaction, whatever its messages
    match k.call (cosmos.CosmosAnteHandler mode tx) with
    | (.error err, _) => .error err
    | (.ok (), k) => .ok k

end Ante

end AnconEvm
