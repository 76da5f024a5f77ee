import AnconEvm.App.Block
import AnconEvm.FeeMarket.Keeper
/-
  The chain: the app's ABCI calls block after block (app/app.go, with baseapp and Tendermint
  around them), and what the JSON-RPC backend reads of the blocks Tendermint keeps.

  For each block Tendermint calls BeginBlock, DeliverTx for each transaction, EndBlock and Commit
  (`RunBlock`).  The app runs the modules' begin and end blockers in the orders app.go sets.  The
  EVM module's BeginBlock points its keeper at the block's context, its EndBlock emits the block
  bloom (`Evm/EndBlock.lean`), and the fee market's EndBlock, the last one, stores the next base
  fee (`FeeMarket/Keeper.lean`); the other Cosmos SDK modules' blockers are a parameter.  Commit
  writes the block state and empties the transient stores, and Tendermint keeps the block's
  results, which its BlockResults call returns by height.

  1. Every node a run reaches keeps each block with the bloom of its logs: the backend's
     BlockBloom reads that bloom back at the block's height (`Node.Inv`; a commit keeps it,
     `Node.Inv.commit`, and so do a block, `RunBlock_inv`, and a run, `RunBlocks_inv`).  So
     eth_getLogs finds every kept block with a matching log (`GetFilteredBlocks_RunBlocks`).
  2. The fee market refines the EIP-1559 rule over whole runs that change none of its
     parameters (governance can, through the parameter subspace).  With a change denominator of at
     least two the rule keeps a positive fee positive (`eip1559Update_pos`), so the stored fee
     never reads back as unset, and after every run the fee market holds the fee and gas the rule
     gives (`RunBlocks_baseFee`).
-/

namespace AnconEvm

open Evm Filters

namespace Evm.Keeper

/-- BeginBlock (x/evm/keeper/abci.go): the keeper takes the block's context, with its height and
    header hash.  The chain id it also takes is left out. -/
def BeginBlock (ctx : Context MultiStore Event) (BlockHeight : Int) (HeaderHash : Bytes)
    (k : Keeper) : Keeper :=
  { k.WithContext ctx with BlockHeight := BlockHeight, HeaderHash := HeaderHash }

@[simp] theorem hooks_BeginBlock (ctx : Context MultiStore Event) (BlockHeight : Int)
    (HeaderHash : Bytes) (k : Keeper) : (k.BeginBlock ctx BlockHeight HeaderHash).hooks = k.hooks :=
  rfl

end Evm.Keeper

namespace BaseApp

/-! ## Blocks and nodes -/

/-- A block as Tendermint delivers it to the app: its header hash, what its context gives the fee
    market (the consensus MaxGas and the gas its block gas meter consumed), and its transactions.
    Its height is the one after the node's last. -/
structure Block where
  HeaderHash : Bytes
  MaxGas : Option Int
  GasConsumedToLimit : Option UInt64
  Txs : List SdkTx

/-- The context the fee market's EndBlock reads for a block at a height. -/
def Block.Context (block : Block) (height : Int) : FeeMarket.BlockContext :=
  ⟨height, block.MaxGas, block.GasConsumedToLimit⟩

/-- A block's gas target: its gas limit, which reads the consensus MaxGas only, over the
    elasticity multiplier. -/
def Block.GasTarget (params : FeeMarket.Params) (block : Block) : Int :=
  FeeMarket.gasLimit (block.Context 0) / params.ElasticityMultiplier.toNat

/-- What Tendermint keeps of a block (ctypes.ResultBlockResults): its height, the results of its
    DeliverTx calls and the events of its end blockers.  The begin-block events, which no modelled
    code reads, are left out. -/
structure ResultBlockResults where
  Height : Int
  TxsResults : List (Except String (List (Option MsgEthereumTxResponse)))
  EndBlockEvents : List Event

/-- A node between two blocks: the last height, the app's committed state, and the blocks
    Tendermint keeps, in order. -/
structure Node where
  LastBlockHeight : Int
  /-- The committed multistore of the EVM, auth and bank stores, transient stores included. -/
  store : MultiStore
  /-- The EVM module's parameter subspace, which its keeper reads. -/
  evmParams : Evm.Params
  /-- The fee market module's store and parameter subspace. -/
  feeMarket : FeeMarket.State
  blocks : List ResultBlockResults

/-- The parameter subspaces of the x/params keeper that the modelled modules read (app.go): the
    EVM module's and the fee market's.  A passed governance proposal can change them. -/
structure Subspaces where
  evm : Evm.Params
  feeMarket : FeeMarket.Params

/-- The other Cosmos SDK modules' block calls: the begin blockers app.go orders around the EVM
    module's (upgrade, capability, mint, distribution, slashing, evidence, staking, ibc) and the
    end blockers it runs before the EVM module's (crisis, gov, staking).  Each takes the height
    and the block state.  The end blockers also emit events, and gov's executes the passed
    proposals, whose parameter changes go to the subspaces. -/
structure SdkBlockers where
  BeginBlocker : Int → MultiStore → MultiStore
  EndBlocker : Int → MultiStore → Subspaces → MultiStore × Subspaces × List Event

/-- One block: BeginBlock, the DeliverTx calls, EndBlock and Commit.  A panic in an end blocker
    halts the chain. -/
def RunBlock (env : Env) (cosmos : CosmosEnv) (sdk : SdkBlockers) (k : Keeper) (block : Block)
    (node : Node) : Except String Node := do
  let height := node.LastBlockHeight + 1
  -- BeginBlock: the EVM module's only points its keeper at the block's context
  let s := sdk.BeginBlocker height node.store
  -- the keeper reads its parameters from the EVM subspace
  let k := { k with params := node.evmParams }.BeginBlock ⟨s, []⟩ height block.HeaderHash
  let delivered := DeliverTxs env cosmos k block.Txs s
  -- EndBlock, in app.go's order: crisis, gov and staking, then the EVM module, then the fee market
  let sdkEnd := sdk.EndBlocker height delivered.2 ⟨node.evmParams, node.feeMarket.params⟩
  let evmKeeper ← (k.WithContext ⟨sdkEnd.1, []⟩).EndBlock
  let feeMarketEnd ← FeeMarket.EndBlock (block.Context height)
    { node.feeMarket with params := sdkEnd.2.1.feeMarket }
  -- Commit: the block state is written, and the transient stores are emptied
  return ⟨height, evmKeeper.ctxStack.initialCtx.store.resetTransient, sdkEnd.2.1.evm,
    feeMarketEnd.1, node.blocks ++ [⟨height, delivered.1,
      sdkEnd.2.2 ++ evmKeeper.ctxStack.initialCtx.events ++ feeMarketEnd.2⟩]⟩

/-- Blocks one after another, each on the node the one before left. -/
def RunBlocks (env : Env) (cosmos : CosmosEnv) (sdk : SdkBlockers) (k : Keeper) :
    List Block → Node → Except String Node
  | [], node => .ok node
  | block :: blocks, node => do
    let node ← RunBlock env cosmos sdk k block node
    RunBlocks env cosmos sdk k blocks node

/-- No end blocker changes the fee market's parameters: no passed proposal changes its
    subspace. -/
def SdkBlockers.KeepsFeeMarketParams (sdk : SdkBlockers) : Prop :=
  ∀ height s ps, (sdk.EndBlocker height s ps).2.1.feeMarket = ps.feeMarket

/-- What a block does to the height and the fee market, when the end blockers keep its
    parameters: the next height, and the fee market's EndBlock on the block's context. -/
theorem RunBlock_eq_ok {env : Env} {cosmos : CosmosEnv} {sdk : SdkBlockers} {k : Keeper}
    {block : Block} {node node' : Node} (hkeep : sdk.KeepsFeeMarketParams)
    (h : RunBlock env cosmos sdk k block node = .ok node') :
    node'.LastBlockHeight = node.LastBlockHeight + 1 ∧ ∃ evs,
      FeeMarket.EndBlock (block.Context (node.LastBlockHeight + 1)) node.feeMarket =
        .ok (node'.feeMarket, evs) := by
  unfold RunBlock at h
  obtain ⟨_, -, h⟩ := Except.bind_eq_ok h
  obtain ⟨feeMarketEnd, hfee, h⟩ := Except.bind_eq_ok h
  cases h
  rw [hkeep] at hfee
  exact ⟨rfl, feeMarketEnd.2, hfee⟩

/-- Tendermint's BlockResults, the client call the backend makes: the kept results at a
    height. -/
def Node.BlockResults (node : Node) (height : Int) : Except String ResultBlockResults :=
  match node.blocks.find? (·.Height = height) with
  | some result => .ok result
  | none => .error ("could not find results for height #" ++ toString height)

/-- The end-block events of the results at a height, which the backend's BlockBloom reads. -/
def Node.EndBlockEvents (node : Node) (height : Int) : Except String (List Event) :=
  (node.BlockResults height).map (·.EndBlockEvents)

/-- A block appended after a kept one leaves the results at its height. -/
theorem find?_Height_append_of_mem {blocks : List ResultBlockResults} {result : ResultBlockResults}
    (hmem : result ∈ blocks) (new : ResultBlockResults) :
    (blocks ++ [new]).find? (·.Height = result.Height) =
      blocks.find? (·.Height = result.Height) := by
  obtain ⟨r, hr⟩ : ∃ r, blocks.find? (·.Height = result.Height) = some r :=
    Option.isSome_iff_exists.mp (List.find?_isSome.mpr ⟨result, hmem, by simp⟩)
  rw [List.find?_append, hr]
  rfl

/-! ## The block bloom over a chain -/

/-- The other modules' blockers write no transient key of the EVM module. -/
structure SdkBlockers.WritesNoTransient (sdk : SdkBlockers) : Prop where
  beginBlocker : ∀ height s, TransientKept [] s (sdk.BeginBlocker height s)
  endBlocker : ∀ height s ps, TransientKept [] s (sdk.EndBlocker height s ps).1

/-- The end blockers before the EVM module's emit no block_bloom event. -/
def SdkBlockers.EmitsNoBlockBloom (sdk : SdkBlockers) : Prop :=
  ∀ height s ps, ∀ e ∈ (sdk.EndBlocker height s ps).2.2, e.type ≠ EventTypeBlockBloom

/-- The bloom of the logs a kept block's transactions committed. -/
def ResultBlockResults.Bloom (Keccak256 : Bytes → Hash) (result : ResultBlockResults) : Bloom :=
  LogsBloom Keccak256 ((blockLogs result.TxsResults).map Log.ToEthereum)

/-- What every node of a chain run satisfies: the last commit left no transient key, no kept
    block is above the last height, and the backend's BlockBloom reads back every kept block's
    bloom at its height. -/
structure Node.Inv (Keccak256 : Bytes → Hash) (node : Node) : Prop where
  noTransient : ∀ t, node.store[MultiKey.transient t]? = none
  height_le : ∀ result ∈ node.blocks, result.Height ≤ node.LastBlockHeight
  blockBloom : ∀ result ∈ node.blocks,
    Rpc.BlockBloom node.EndBlockEvents result.Height = .ok (result.Bloom Keccak256)

/-- BlockBloom reads the client's call at the height it is asked for only. -/
theorem BlockBloom_congr {f g : Int → Except String (List Event)} {height : Int}
    (h : f height = g height) : Rpc.BlockBloom f height = Rpc.BlockBloom g height := by
  simp only [Rpc.BlockBloom, h]

/-- A store without transient keys holds no bloom. -/
theorem blockBloomOf_of_noTransient {s : MultiStore} (hs : ∀ t, s[MultiKey.transient t]? = none)
    (heightBz : Bytes) : blockBloomOf heightBz s = 0 := by
  simp [blockBloomOf, MultiStore.Get, hs]

/-- **Committing a block at the next height keeps the invariant**, when its end-block events
    carry the bloom of its logs after events of other types: the kept blocks are found as before,
    and no kept block is at the new height. -/
theorem Node.Inv.commit {Keccak256 : Bytes → Hash} {node : Node} (hinv : node.Inv Keccak256)
    (s : MultiStore) (evmParams : Evm.Params) (feeMarket : FeeMarket.State)
    (result : ResultBlockResults)
    {pre post : List Event} (hheight : result.Height = node.LastBlockHeight + 1)
    (hpre : ∀ e ∈ pre, e.type ≠ EventTypeBlockBloom)
    (hevents : result.EndBlockEvents =
      pre ++ [EmitBlockBloomEvent (result.Bloom Keccak256)] ++ post) :
    (⟨node.LastBlockHeight + 1, s.resetTransient, evmParams, feeMarket, node.blocks ++ [result]⟩ :
      Node).Inv Keccak256 := by
  refine ⟨fun t => MultiStore.getElem?_resetTransient_transient t s, ?_, ?_⟩
  · intro r hmem
    rcases List.mem_append.mp hmem with hold | hnew
    · have := hinv.height_le r hold
      show r.Height ≤ node.LastBlockHeight + 1
      omega
    · rw [List.mem_singleton.mp hnew, hheight]
  · intro r hmem
    rcases List.mem_append.mp hmem with hold | hnew
    · -- a kept block: its results are found as before
      refine (BlockBloom_congr ?_).trans (hinv.blockBloom r hold)
      simp only [Node.EndBlockEvents, Node.BlockResults, find?_Height_append_of_mem hold]
    · -- the new block: it is the first at its height, and its events carry its bloom
      rw [List.mem_singleton.mp hnew]
      apply Rpc.BlockBloom_EmitBlockBloomEvent hpre
      show _ = Except.ok (pre ++ EmitBlockBloomEvent (result.Bloom Keccak256) :: post)
      have hnone : node.blocks.find? (fun r => decide (r.Height = result.Height)) = none := by
        rw [List.find?_eq_none]
        intro r hr
        have := hinv.height_le r hr
        simp only [decide_eq_true_eq]
        omega
      simp [Node.EndBlockEvents, Node.BlockResults, List.find?_append, hnone]
      show Except.ok result.EndBlockEvents = _
      rw [hevents]
      simp

section

variable {env : Env} {cosmos : CosmosEnv} {sdk : SdkBlockers} {k : Keeper}
  {Keccak256 : Bytes → Hash}
  (hgeth : ∀ logs, env.LogsBloom logs = Bloom.Bytes (LogsBloom Keccak256 (logs.map Log.ToEthereum)))
  (hcosmos : cosmos.WritesNoTransient) (hhooks : ∀ hooks ∈ k.hooks, hooks.WritesNoTransient)
  (hsdk : sdk.WritesNoTransient) (hevents : sdk.EmitsNoBlockBloom)
include hgeth hcosmos hhooks hsdk hevents

/-- **A block keeps the invariant.**  The block starts without bloom, its transactions leave the
    bloom of their logs, the end blockers before the EVM module's keep it, and the EVM module's
    emits it first among the block_bloom events. -/
theorem RunBlock_inv {block : Block} {node node' : Node} (hinv : node.Inv Keccak256)
    (h : RunBlock env cosmos sdk k block node = .ok node') : node'.Inv Keccak256 := by
  let height := node.LastBlockHeight + 1
  let s := sdk.BeginBlocker height node.store
  let kb := { k with params := node.evmParams }.BeginBlock ⟨s, []⟩ height block.HeaderHash
  let delivered := DeliverTxs env cosmos kb block.Txs s
  let ps : Subspaces := ⟨node.evmParams, node.feeMarket.params⟩
  let sdkEnd := sdk.EndBlocker height delivered.2 ps
  let new : ResultBlockResults := ⟨height, delivered.1, []⟩
  -- the bloom the block's transactions leave, kept by the end blockers before the EVM module's
  have hfresh : blockBloomOf kb.heightBz s = 0 := by
    rw [blockBloomOf_of_kept (hsdk.beginBlocker height node.store) (by simp)]
    exact blockBloomOf_of_noTransient hinv.noTransient _
  have hdelivered : blockBloomOf kb.heightBz delivered.2 =
      BigEndian.decode (Bloom.Bytes (new.Bloom Keccak256)) :=
    blockBloomOf_DeliverTxs_LogsBloom hgeth hcosmos (by simpa [kb] using hhooks) hfresh rfl
  have hend : blockBloomOf kb.heightBz sdkEnd.1 =
      BigEndian.decode (Bloom.Bytes (new.Bloom Keccak256)) := by
    rw [blockBloomOf_of_kept (hsdk.endBlocker height delivered.2 ps) (by simp)]
    exact hdelivered
  obtain ⟨evmKeeper, hevm, hctx⟩ := Keeper.EndBlock_WithContext hend
  -- what the commit leaves
  unfold RunBlock at h
  obtain ⟨evmKeeper', hevm', h⟩ := Except.bind_eq_ok h
  rw [hevm] at hevm'
  cases hevm'
  obtain ⟨feeMarketEnd, -, h⟩ := Except.bind_eq_ok h
  cases h
  rw [hctx]
  exact hinv.commit _ _ _ _ rfl (hevents height delivered.2 ps) rfl

/-- **Every node a run reaches keeps the invariant.** -/
theorem RunBlocks_inv {blocks : List Block} {node node' : Node} (hinv : node.Inv Keccak256)
    (h : RunBlocks env cosmos sdk k blocks node = .ok node') : node'.Inv Keccak256 := by
  induction blocks generalizing node with
  | nil =>
    cases h
    exact hinv
  | cons block blocks ih =>
    obtain ⟨node₁, h₁, h⟩ := Except.bind_eq_ok h
    exact ih (RunBlock_inv hgeth hcosmos hhooks hsdk hevents hinv h₁) h

end

/-- **eth_getLogs never skips a block with a matching log.**  Run blocks from a node that keeps
    the invariant (a genesis node without transient keys and blocks does), with go-ethereum's
    LogsBloom, Cosmos SDK code and hooks that write no transient key, and end blockers before the
    EVM module's that emit no block_bloom event.  Then on the node reached, for every kept block
    with a log that the criteria match, the range filter of eth_getLogs returns the block's height
    whenever the range holds it. -/
theorem GetFilteredBlocks_RunBlocks {env : Env} {cosmos : CosmosEnv} {sdk : SdkBlockers}
    {k : Keeper} {Keccak256 : Bytes → Hash}
    (hgeth : ∀ logs, env.LogsBloom logs = Bloom.Bytes (LogsBloom Keccak256 (logs.map Log.ToEthereum)))
    (hcosmos : cosmos.WritesNoTransient) (hhooks : ∀ hooks ∈ k.hooks, hooks.WritesNoTransient)
    (hsdk : sdk.WritesNoTransient) (hevents : sdk.EmitsNoBlockBloom)
    {blocks : List Block} {node₀ node : Node} (h₀ : node₀.Inv Keccak256)
    (hrun : RunBlocks env cosmos sdk k blocks node₀ = .ok node)
    {result : ResultBlockResults} (hkept : result ∈ node.blocks)
    {fromHeight toHeight begin endBlock : Int} {addresses : List Address}
    {topics : List (List Hash)} {fromBlock toBlock : Option Int} {log : EthLog} {heights : List Int}
    (hrange : fromHeight ≤ result.Height ∧ result.Height ≤ toHeight)
    (hlog : log ∈ FilterLogs ((blockLogs result.TxsResults).map Log.ToEthereum) fromBlock toBlock
      addresses topics)
    (h : GetFilteredBlocks (Rpc.BlockBloom node.EndBlockEvents) fromHeight toHeight
      (NewRangeFilter Keccak256 begin endBlock addresses topics).bloomFilters (addresses.length > 0) =
        .ok heights) :
    result.Height ∈ heights := by
  have hread := (RunBlocks_inv hgeth hcosmos hhooks hsdk hevents h₀ hrun).blockBloom result hkept
  -- every group of the range filter matches the block's bloom
  have hmatch : ∀ filter ∈ (NewRangeFilter Keccak256 begin endBlock addresses topics).bloomFilters,
      checkMatches (result.Bloom Keccak256) filter = true :=
    checkMatches_createBloomFilters hlog
  have hpass := matchesFilters_of_forall (addresses.length > 0) hmatch
  exact mem_foldlM_GetFilteredBlocks (mem_heights.mpr hrange) hread hpass h

/-- A chain of one block with a funded call, from a genesis node, under the runs' go-ethereum:
    the call's log is found by eth_getLogs for the called address, and the range filter keeps
    the block's height. -/
theorem GetFilteredBlocks_RunBlocks_call :
    let sdk : SdkBlockers := ⟨fun _ s => s, fun _ s ps => (s, ps, [])⟩
    let call : MsgEthereumTx := ⟨signedCall, ""⟩
    let tx : SdkTx := ⟨[.ethereumTx call], [Ante.ExtensionOptionsEthereumTx], "", 0, 100000, 100000⟩
    let s₀ : MultiStore :=
      (KV.Delta.set (.balance runSender) (.amount 200000) * KV.Delta.set .supply (.amount 200000) :
        MultiDelta) • runStore 0
    let node₀ : Node :=
      ⟨0, s₀.resetTransient, ⟨"aphoton", true, true, []⟩, ⟨∅, FeeMarket.DefaultParams⟩, []⟩
    let block : Block := ⟨[], some 10000000, some 21000, [tx]⟩
    let log : EthLog := ⟨0x4000, .nil, [], 1,
      0x8868fe7169dce59c9331dc2fc5d9aea9a2e1477ef66f16d122e002bd4e1160da, 0, 0, 0, false⟩
    ∃ node, RunBlocks runEnv runCosmosEnv sdk (runKeeper ∅ none TracerJSON) [block] node₀ = .ok node ∧
      ∃ result ∈ node.blocks, log ∈ FilterLogs ((blockLogs result.TxsResults).map Log.ToEthereum)
        none none [0x4000] [] ∧
      ∃ heights, GetFilteredBlocks (Rpc.BlockBloom node.EndBlockEvents) 1 1
        (NewRangeFilter runEnv.Keccak256 1 1 [0x4000] []).bloomFilters
          ([(0x4000 : Address)].length > 0) = .ok heights ∧ result.Height ∈ heights := by
  intro sdk call tx s₀ node₀ block log
  obtain ⟨node, hrun, hfound⟩ := Except.map_eq_ok (show (RunBlocks runEnv runCosmosEnv sdk
      (runKeeper ∅ none TracerJSON) [block] node₀).map (fun node => decide (∃ result ∈ node.blocks,
        result.Height = 1 ∧
        log ∈ FilterLogs ((blockLogs result.TxsResults).map Log.ToEthereum) none none [0x4000] [] ∧
        GetFilteredBlocks (Rpc.BlockBloom node.EndBlockEvents) 1 1
          (NewRangeFilter runEnv.Keccak256 1 1 [0x4000] []).bloomFilters
            ([(0x4000 : Address)].length > 0) = .ok [1])) = .ok true by decide +kernel)
  obtain ⟨result, hkept, hheight, hlog, hblocks⟩ := of_decide_eq_true hfound
  -- the runs' blooms are go-ethereum's LogsBloom over their Keccak-256
  have hgeth : ∀ logs, runEnv.LogsBloom logs =
      Bloom.Bytes (LogsBloom runEnv.Keccak256 (logs.map Log.ToEthereum)) := by
    intro logs
    dsimp only [runEnv]
  have h₀ : node₀.Inv runEnv.Keccak256 :=
    ⟨fun t => MultiStore.getElem?_resetTransient_transient t _,
      fun _ h => absurd h List.not_mem_nil, fun _ h => absurd h List.not_mem_nil⟩
  refine ⟨node, hrun, result, hkept, hlog, [1], hblocks, ?_⟩
  exact GetFilteredBlocks_RunBlocks hgeth runCosmosEnv_writesNoTransient
    (fun _ h => absurd h (Option.not_mem_none _))
    ⟨fun _ s => TransientKept.refl [] s, fun _ s _ => TransientKept.refl [] s⟩
    (fun _ _ _ _ h => absurd h List.not_mem_nil) h₀ hrun hkept ⟨hheight.ge, hheight.le⟩ hlog
    hblocks

/-! ## The fee market over a chain -/

/-- **The fee market refines the EIP-1559 rule over whole runs.**  From a node past the fee
    market's enable height, with base fees on, a change denominator of at least two, a positive
    parent fee, and blocks that each have a block gas meter and a positive gas target that fits a
    uint64, every run whose end blockers change no fee market parameter (no passed proposal
    changes its subspace) leaves the parent fee and gas that the rule gives for the blocks'
    targets and gas. -/
theorem RunBlocks_baseFee {env : Env} {cosmos : CosmosEnv} {sdk : SdkBlockers} {k : Keeper}
    {blocks : List Block} {node₀ node : Node} {g₀ : UInt64}
    (hnofee : node₀.feeMarket.params.NoBaseFee = false)
    (henable : node₀.feeMarket.params.EnableHeight ≤ node₀.LastBlockHeight)
    (hd : 2 ≤ node₀.feeMarket.params.BaseFeeChangeDenominator.toNat)
    (hfee₀ : 0 < FeeMarket.parentBaseFee node₀.feeMarket.params node₀.feeMarket.store)
    (hgas₀ : FeeMarket.GetBlockGasUsed node₀.feeMarket.store = .ok g₀)
    (hblocks : ∀ block ∈ blocks, 0 < block.GasTarget node₀.feeMarket.params ∧
      block.GasTarget node₀.feeMarket.params ≤ MaxUint64 ∧ block.GasConsumedToLimit.isSome)
    (hkeep : sdk.KeepsFeeMarketParams) (hrun : RunBlocks env cosmos sdk k blocks node₀ = .ok node) :
    ∃ g, FeeMarket.GetBlockGasUsed node.feeMarket.store = .ok g ∧
      (FeeMarket.parentBaseFee node.feeMarket.params node.feeMarket.store, (g.toNat : Int)) =
        FeeMarket.eip1559Run node₀.feeMarket.params.BaseFeeChangeDenominator.toNat
          (FeeMarket.parentBaseFee node₀.feeMarket.params node₀.feeMarket.store, g₀.toNat)
          (blocks.map fun block => (block.GasTarget node₀.feeMarket.params,
            ((block.GasConsumedToLimit.getD 0).toNat : Int))) := by
  -- induction on the blocks, from any node that meets the hypotheses
  induction blocks generalizing node₀ g₀ with
  | nil =>
    cases hrun
    exact ⟨g₀, hgas₀, rfl⟩
  | cons block blocks ih =>
    obtain ⟨node₁, h₁, hrest⟩ := Except.bind_eq_ok hrun
    obtain ⟨hheight, evs, hend⟩ := RunBlock_eq_ok hkeep h₁
    obtain ⟨htarget, hfit, hmeter⟩ := hblocks block List.mem_cons_self
    obtain ⟨g₁, hg₁⟩ := Option.isSome_iff_exists.mp hmeter
    -- the gas limit reads the consensus MaxGas only, whatever the height
    have htarget' : 0 < FeeMarket.gasLimit (block.Context (node₀.LastBlockHeight + 1)) /
        node₀.feeMarket.params.ElasticityMultiplier.toNat := htarget
    have hfit' : FeeMarket.gasLimit (block.Context (node₀.LastBlockHeight + 1)) /
        node₀.feeMarket.params.ElasticityMultiplier.toNat ≤ MaxUint64 := hfit
    have hpast : node₀.feeMarket.params.EnableHeight <
        (block.Context (node₀.LastBlockHeight + 1)).BlockHeight := by
      show _ < node₀.LastBlockHeight + 1
      omega
    obtain ⟨hparams, hfee₁, hgas₁⟩ := FeeMarket.EndBlock_eip1559Update hnofee hpast hgas₀
      htarget' hfit' hd hfee₀ hg₁ hend
    -- the rule keeps the fee positive, so the next block meets the hypotheses too
    have hpos : 0 < FeeMarket.parentBaseFee node₁.feeMarket.params node₁.feeMarket.store := by
      rw [hfee₁]
      exact FeeMarket.eip1559Update_pos hfee₀ htarget (Int.natCast_nonneg _)
        (by exact_mod_cast hd)
    obtain ⟨g, hg, heq⟩ := ih (hparams ▸ hnofee) (by rw [hparams, hheight]; omega)
      (hparams ▸ hd) hpos hgas₁ (fun b hb => hparams ▸ hblocks b (List.mem_cons_of_mem _ hb))
      hrest
    refine ⟨g, hg, ?_⟩
    rw [heq, hfee₁, hparams]
    simp only [List.map_cons, hg₁, Option.getD_some]
    rfl

/-- Two blocks above and below their gas target, with a governance proposal passed at the first
    that turns contract creation off in the EVM subspace: the fee market ends where the rule
    does, and the EVM parameters carry the change. -/
theorem RunBlocks_baseFee_two_blocks :
    let sdk : SdkBlockers := ⟨fun _ s => s, fun height s ps =>
      (s, if height = 2 then { ps with evm := { ps.evm with EnableCreate := false } } else ps, [])⟩
    let node₀ : Node := ⟨1, runStore 0, ⟨"aphoton", true, true, []⟩,
      ⟨FeeMarket.SetBlockGasUsed 5000000 ∅, ⟨false, 8, 2, 1000000000, 0⟩⟩, []⟩
    let blocks : List Block :=
      [⟨[], some 10000000, some 7000000, []⟩, ⟨[], some 10000000, some 3000000, []⟩]
    ∃ node g, RunBlocks runEnv runCosmosEnv sdk (runKeeper ∅ none TracerJSON) blocks node₀ =
        .ok node ∧ node.evmParams.EnableCreate = false ∧
      FeeMarket.GetBlockGasUsed node.feeMarket.store = .ok g ∧
      (FeeMarket.parentBaseFee node.feeMarket.params node.feeMarket.store, (g.toNat : Int)) =
        FeeMarket.eip1559Run 8 (1000000000, 5000000) [(5000000, 7000000), (5000000, 3000000)] := by
  intro sdk node₀ blocks
  obtain ⟨node, hrun, hcreate⟩ := Except.map_eq_ok (show (RunBlocks runEnv runCosmosEnv sdk
    (runKeeper ∅ none TracerJSON) blocks node₀).map (fun node => node.evmParams.EnableCreate) =
      .ok false by decide +kernel)
  have hgas₀ : FeeMarket.GetBlockGasUsed node₀.feeMarket.store = .ok 5000000 := by decide
  -- the proposal changes the EVM subspace only
  have hkeep : sdk.KeepsFeeMarketParams := by
    intro height s ps
    dsimp only [sdk]
    split <;> rfl
  obtain ⟨g, hg, heq⟩ := RunBlocks_baseFee rfl (by decide) (by decide) (by decide) hgas₀
    (by decide) hkeep hrun
  -- the targets are half the gas limit, and the fee starts from the initial one
  exact ⟨node, g, hrun, hcreate, hg, heq.trans (by decide)⟩

end BaseApp

end AnconEvm
