import AnconEvm.Evm.StateTransition
/-
  The gRPC queries that run the EVM (x/evm/keeper/grpc_query.go): `EthCall`, and the probes of
  `EstimateGas`'s binary search.

  A query runs on the query's context, whose multistore (a branch of the committed state) every
  step of the query shares.  `WithContext(ctx)` puts that context at the bottom of the context
  stack, and `RevertAll` only drops the cached contexts above it: a write the EVM makes before
  its first `Snapshot` lands in the shared store and stays there.  So the query context is
  threaded through the probes here: each probe returns the context as it leaves it, and the
  next probe starts on that one.
-/

namespace AnconEvm.Evm

/-- types.CallArgs: the JSON arguments of eth_call and eth_estimateGas. -/
structure CallArgs where
  From : Option Address
  To : Option Address
  Gas : Option UInt64
  GasPrice : Option Int
  Value : Option Int
  Data : Option Bytes
  AccessList : Option (List (Address × List Hash))
  deriving DecidableEq, Repr

/-- CallArgs.ToMessage: the zero address, no value, no data and gas price zero by default; the
    gas is the request's (or the cap, or half the uint64 range), at most the cap. -/
def CallArgs.ToMessage (args : CallArgs) (globalGasCap : UInt64) : Message :=
  let addr := args.From.getD 0
  let gas := if globalGasCap = 0 then UInt64.ofNat (MaxUint64 / 2) else globalGasCap
  let gas := args.Gas.getD gas
  let gas := if globalGasCap ≠ 0 ∧ globalGasCap < gas then globalGasCap else gas
  ⟨addr, args.To, 0, args.Value.getD 0, gas, args.GasPrice.getD 0, args.Data.getD [],
    args.AccessList.getD []⟩

/-- errors.Is(stacktrace.RootCause(err), core.ErrIntrinsicGas): the error ApplyMessage returns
    when the gas does not cover the intrinsic gas. -/
def IsErrIntrinsicGas (err : String) : Bool := err.endsWith "intrinsic gas too low"

/-- EthCall: the message of the arguments, run in query mode on the query context; the cached
    contexts are dropped after it. -/
def EthCall (env : Env) (coinbase : Address) (args : CallArgs) (gasCap : UInt64)
    (ctx : Context MultiStore Event) (k : Keeper) :
    Except String (Except String MsgEthereumTxResponse × Keeper) := do
  let k := k.WithContext ctx
  let msg := args.ToMessage gasCap
  let _ ← NewTracer env k.tracer msg k.BlockHeight k.debug
  let (res, k) ← ApplyMessage env coinbase msg true k
  return (res, { k with ctxStack := k.ctxStack.RevertAll })

/-- What a probe of EstimateGas reports: whether the gas failed, the response, and an error
    that ends the search. -/
structure ProbeResult where
  failed : Bool
  rsp : Option MsgEthereumTxResponse
  err : Option String
  deriving DecidableEq, Repr

/-- The `executable` closure of EstimateGas: run the arguments with `gas` on the query context,
    in query mode, and drop the cached contexts.  An intrinsic gas error is a failure that
    raises the gas; another error ends the search.  The query context comes back as the probe
    leaves it: `WithContext` and `RevertAll` do not undo what reached it. -/
def executable (env : Env) (coinbase : Address) (args : CallArgs) (gasCap : UInt64)
    (ctx : Context MultiStore Event) (k : Keeper) (gas : UInt64) :
    Except String (ProbeResult × Context MultiStore Event × Keeper) := do
  let args := { args with Gas := some gas }
  -- reset to the initial context
  let k := k.WithContext ctx
  let msg := args.ToMessage gasCap
  let _ ← NewTracer env k.tracer msg k.BlockHeight k.debug
  let (rsp, k) ← ApplyMessage env coinbase msg true k
  let k := { k with ctxStack := k.ctxStack.RevertAll }
  let ctx := k.ctxStack.initialCtx
  match rsp with
  | .error err =>
    if IsErrIntrinsicGas err then return (⟨true, none, none⟩, ctx, k)
    else return (⟨true, none, some err⟩, ctx, k)
  | .ok rsp => return (⟨rsp.VmError.length > 0, some rsp, none⟩, ctx, k)

/-- **The state a probe's ApplyMessage starts from** is the keeper on the query context as the
    previous probes left it. -/
def probeStart (ctx : Context MultiStore Event) (k : Keeper) : Keeper := k.WithContext ctx

/-- Probes of a contract creation from the runs' sender: the first (with 100000 gas) bumps its
    nonce and warms the new contract's address before its first snapshot, in the shared query
    context.  The next probe, whatever its gas, starts its ApplyMessage from `probeStart ctx₁ k₁`,
    with nonce 1 and the address in the access list; run alone it starts from `probeStart ctx k`,
    with nonce 0 and the address cold. -/
theorem executable_creation_probe_leaks_into_next :
    let args : CallArgs := ⟨some runSender, none, none, none, none, none, none⟩
    let k := runKeeper (runStore 0) none TracerJSON
    let ctx := k.ctxStack.initialCtx
    ∃ r₁ ctx₁ k₁, executable runEnv 0x3000 args 25000000 ctx k 100000 = .ok (r₁, ctx₁, k₁) ∧
      (probeStart ctx₁ k₁).GetNonce runSender = 1 ∧ (probeStart ctx k).GetNonce runSender = 0 ∧
      (probeStart ctx₁ k₁).AddressInAccessList 0x2000 = true ∧
      (probeStart ctx k).AddressInAccessList 0x2000 = false := by
  intro args k ctx
  have hprobe : (executable runEnv 0x3000 args 25000000 ctx k 100000).map
      (fun r => ((probeStart r.2.1 r.2.2).GetNonce runSender,
        (probeStart r.2.1 r.2.2).AddressInAccessList 0x2000)) = .ok (1, true) := by
    decide +kernel
  cases h : executable runEnv 0x3000 args 25000000 ctx k 100000 with
  | error e =>
    rw [h] at hprobe
    cases hprobe
  | ok r =>
    obtain ⟨r₁, ctx₁, k₁⟩ := r
    rw [h] at hprobe
    have hread := Prod.mk.inj (Except.ok.inj hprobe)
    exact ⟨r₁, ctx₁, k₁, rfl, hread.1, by decide +kernel, hread.2, by decide +kernel⟩

end AnconEvm.Evm
