import AnconEvm.Evm.Types
import AnconEvm.Lib.GoSlice
/-
  The two forms of an EVM log (x/evm/types/logs.go): go-ethereum's `ethtypes.Log`, which the EVM
  emits and JSON-RPC returns, and the module's protobuf `types.Log`, with the address and the
  hashes as hex strings, which the transient store and the tx response hold.

  `NewLogFromEth` and `ToEthereum` translate one log each way, and `NewLogsFromEth` and
  `LogsToEthereum` translate slices of them; all four build their slices with Go's append loop
  (`Lib/GoSlice.lean`), which returns `nil` for an input without elements.  Every field comes
  back as it was (`HexToAddress_Hex`, `HexToHash_Hex`) except the topic slice of a log without
  topics: the EVM's LOG0 emits an empty non-nil topic slice, and the round trip returns it as
  `nil`.  The address strings are lowercase here: EIP-55 mixed case changes no address that
  `HexToAddress` reads.  `Log.ToEthereum` reads the model's stored form, whose hashes are
  already decoded, as go-ethereum's log.
-/

namespace AnconEvm.Evm

/-- go-ethereum's `ethtypes.Log`, with the nil-ness of its topic slice.  `TxIndex` and `Index`
    are Go `uint`s, 64 bits wide on the platforms the node runs on. -/
structure EthLog where
  Address : Address
  Topics : GoSlice Hash
  Data : Bytes
  BlockNumber : UInt64
  TxHash : Hash
  TxIndex : UInt64
  BlockHash : Hash
  Index : UInt64
  Removed : Bool
  deriving DecidableEq, Repr

/-- The module's protobuf `types.Log`: the address and the hashes as hex strings. -/
structure ProtoLog where
  Address : String
  Topics : GoSlice String
  Data : Bytes
  BlockNumber : UInt64
  TxHash : String
  TxIndex : UInt64
  BlockHash : String
  Index : UInt64
  Removed : Bool
  deriving DecidableEq, Repr

/-- Log.ToEthereum: parse the strings back. -/
def ProtoLog.ToEthereum (log : ProtoLog) : EthLog where
  Address := HexToAddress log.Address
  Topics := GoSlice.appendAll HexToHash log.Topics.elems
  Data := log.Data
  BlockNumber := log.BlockNumber
  TxHash := HexToHash log.TxHash
  TxIndex := log.TxIndex
  Index := log.Index
  BlockHash := HexToHash log.BlockHash
  Removed := log.Removed

/-- NewLogFromEth: write the address and the hashes as hex strings. -/
def NewLogFromEth (log : EthLog) : ProtoLog where
  Address := log.Address.Hex
  Topics := GoSlice.appendAll Hash.Hex log.Topics.elems
  Data := log.Data
  BlockNumber := log.BlockNumber
  TxHash := log.TxHash.Hex
  TxIndex := log.TxIndex
  Index := log.Index
  BlockHash := log.BlockHash.Hex
  Removed := log.Removed

/-- NewLogsFromEth. -/
def NewLogsFromEth (ethlogs : GoSlice EthLog) : GoSlice ProtoLog :=
  GoSlice.appendAll NewLogFromEth ethlogs.elems

/-- LogsToEthereum. -/
def LogsToEthereum (logs : GoSlice ProtoLog) : GoSlice EthLog :=
  GoSlice.appendAll ProtoLog.ToEthereum logs.elems

/-- The topic slice after a round trip: the same topics, in a nil slice when there are none. -/
def roundTripTopics (topics : GoSlice Hash) : GoSlice Hash :=
  if topics.elems = [] then .nil else topics

/-- **One log through both conversions**: every field comes back, and the topic slice comes back
    nil when it has no topics. -/
theorem ToEthereum_NewLogFromEth (log : EthLog) :
    (NewLogFromEth log).ToEthereum = { log with Topics := roundTripTopics log.Topics } := by
  have htopics : GoSlice.appendAll HexToHash (GoSlice.appendAll Hash.Hex log.Topics.elems).elems =
      roundTripTopics log.Topics := by
    rw [GoSlice.elems_appendAll, GoSlice.appendAll_eq, List.map_map, roundTripTopics]
    -- parsing a written hash gives it back
    have hid : HexToHash ∘ Hash.Hex = id := funext HexToHash_Hex
    simp only [hid, List.map_id, List.map_eq_nil_iff]
    cases log.Topics with
    | nil => rfl
    | mk ts => simp
  simp only [ProtoLog.ToEthereum, NewLogFromEth, htopics, HexToAddress_Hex, HexToHash_Hex]

/-- A topic slice survives the round trip unless it is empty and non-nil. -/
theorem roundTripTopics_eq_iff (topics : GoSlice Hash) :
    roundTripTopics topics = topics ↔ topics ≠ .mk [] := by
  cases topics with
  | nil => simp [roundTripTopics]
  | mk ts =>
    cases ts with
    | nil => simp [roundTripTopics]
    | cons t ts => simp [roundTripTopics]

/-- A one-log slice through both conversions. -/
theorem LogsToEthereum_NewLogsFromEth_single (log : EthLog) :
    LogsToEthereum (NewLogsFromEth (.mk [log])) =
      .mk [{ log with Topics := roundTripTopics log.Topics }] := by
  simp only [LogsToEthereum, NewLogsFromEth, GoSlice.elems_mk, GoSlice.appendAll_eq,
    List.map_cons, List.map_nil, reduceCtorEq, if_false, ToEthereum_NewLogFromEth]

/-- **The log round trip**: `LogsToEthereum(NewLogsFromEth([l])) = [l]` exactly when `l`'s topic
    slice is not an empty non-nil one. -/
theorem LogsToEthereum_NewLogsFromEth_iff (log : EthLog) :
    LogsToEthereum (NewLogsFromEth (.mk [log])) = .mk [log] ↔ log.Topics ≠ .mk [] := by
  rw [LogsToEthereum_NewLogsFromEth_single, ← roundTripTopics_eq_iff]
  constructor
  · intro h
    have hlog := List.cons.inj (GoSlice.mk.inj h)
    exact congrArg EthLog.Topics hlog.1
  · intro h
    rw [h]

/-- A LOG0 log, which the EVM emits with an empty non-nil topic slice, comes back from the round
    trip with a nil topic slice: JSON-RPC then returns `"topics": null` for it. -/
theorem LogsToEthereum_NewLogsFromEth_LOG0_topics_nil :
    let log : EthLog := ⟨0x1234, .mk [], [1], 1, 0xab, 0, 0xcd, 0, false⟩
    LogsToEthereum (NewLogsFromEth (.mk [log])) = .mk [{ log with Topics := .nil }] ∧
      LogsToEthereum (NewLogsFromEth (.mk [log])) ≠ .mk [log] := by
  intro log
  refine ⟨LogsToEthereum_NewLogsFromEth_single log, ?_⟩
  rw [Ne, LogsToEthereum_NewLogsFromEth_iff]
  simp [log]

end AnconEvm.Evm

namespace AnconEvm

/-- Log.ToEthereum on the model's stored form: go-ethereum's Log, with the topics rebuilt by Go's
    append loop.  The model's logs hold the address and hashes already decoded from hex. -/
def Log.ToEthereum (log : Log) : Evm.EthLog :=
  ⟨log.Address, GoSlice.appendAll id log.Topics, log.Data, log.BlockNumber, log.TxHash,
    UInt64.ofNat log.TxIndex, log.BlockHash, UInt64.ofNat log.Index, log.Removed⟩

end AnconEvm
