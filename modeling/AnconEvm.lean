import AnconEvm.Lib.KVStore
import AnconEvm.Lib.AssocList
import AnconEvm.Lib.Journal
import AnconEvm.Lib.BigEndian
import AnconEvm.Lib.ByteOrder
import AnconEvm.Lib.Buffered
import AnconEvm.Lib.Except
import AnconEvm.Lib.GoSlice
import AnconEvm.Lib.ForLoop
import AnconEvm.Lib.GoStrings
import AnconEvm.Lib.GoNumbers
import AnconEvm.Lib.Regex
import AnconEvm.Lib.Bloom
import AnconEvm.Sdk.Types
import AnconEvm.Types.ChainId
import AnconEvm.Keeper.ContextStack
import AnconEvm.FeeMarket.Keeper
import AnconEvm.Evm.Types
import AnconEvm.Evm.Logs
import AnconEvm.Evm.TxData
import AnconEvm.Rpc.Filters
import AnconEvm.Rpc.BlockNumber
import AnconEvm.App.MultiStore
import AnconEvm.App.Bank
import AnconEvm.Evm.Keeper
import AnconEvm.Evm.StateDB
import AnconEvm.Evm.TxLogs
import AnconEvm.Evm.Genesis
import AnconEvm.Evm.StateTransition
import AnconEvm.Evm.GasRefund
import AnconEvm.Evm.Query
import AnconEvm.Evm.BinSearch
import AnconEvm.Evm.MsgServer
import AnconEvm.App.Ante
import AnconEvm.App.AnteSafety
import AnconEvm.App.BaseApp
import AnconEvm.Evm.Snapshots
import AnconEvm.Evm.Invariant
import AnconEvm.Evm.World
import AnconEvm.Evm.Setters
import AnconEvm.Evm.GenesisRoundTrip
import AnconEvm.App.Reachable
import AnconEvm.Evm.Transient
import AnconEvm.Evm.AccessList
import AnconEvm.Evm.BlockBloom
import AnconEvm.Evm.EndBlock
import AnconEvm.App.Block
import AnconEvm.App.Chain
