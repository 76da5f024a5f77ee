import AnconEvm.Evm.StateTransition
import AnconEvm.Evm.Genesis
/-
  The EVM module's message (x/evm/types/msg.go, legacy_tx.go, tx_data.go) and its message server
  (x/evm/keeper/msg_server.go).

  A `MsgEthereumTx` carries the transaction data, unpacked (`Transaction`), and the `From` field
  the ante handler fills in with the recovered sender.  Its signer is the sender the signature
  recovers: go-ethereum's latest signer for the tx's chain id recovers the same sender as the
  chain's signer at the block height for the transactions the chain accepts, so both are
  `Env.Sender` here.

  `EthereumTx` runs `ApplyTransaction` on the context it is given; the events it emits are left
  out.
-/

namespace AnconEvm.Evm

/-- types.MsgEthereumTx. -/
structure MsgEthereumTx where
  Data : Transaction
  From : String
  deriving DecidableEq, Repr

/-- TxData.Validate (LegacyTx): the gas price and the amount are not negative.  The recipient is
    an address already. -/
def TxData.Validate (data : Transaction) : Except String Unit := do
  if data.GasPrice < 0 then
    throw ("gas price cannot be negative " ++ toString data.GasPrice ++ ": invalid gas price")
  if data.Value < 0 then
    throw ("amount cannot be negative " ++ toString data.Value ++ ": invalid transaction amount")

/-- TxData.Fee: gas price times gas limit. -/
def TxData.Fee (data : Transaction) : Int := data.GasPrice * data.Gas.toNat

/-- TxData.Cost: the fee and the value. -/
def TxData.Cost (data : Transaction) : Int := TxData.Fee data + data.Value

namespace MsgEthereumTx

/-- MsgEthereumTx.ValidateBasic: a valid From address when it is set, and valid tx data. -/
def ValidateBasic (msg : MsgEthereumTx) : Except String Unit := do
  if msg.From ≠ "" then
    match ValidateAddress msg.From with
    | .error err => throw ("invalid from address: " ++ err)
    | .ok () => pure ()
  TxData.Validate msg.Data

/-- MsgEthereumTx.GetFrom: the address of the From field, none while it is empty. -/
def GetFrom (msg : MsgEthereumTx) : Option Address :=
  if msg.From = "" then none else some (HexToAddress msg.From)

/-- The From field the ante handler writes gives the sender back. -/
theorem GetFrom_Hex (msg : MsgEthereumTx) (sender : Address) :
    GetFrom { msg with From := sender.Hex } = some sender := by
  have hne : sender.Hex ≠ "" := by
    simp [Address.Hex]
  simp only [GetFrom, hne, if_false, HexToAddress_Hex]

/-- MsgEthereumTx.GetSigners: the sender the signature recovers; a failed recovery panics. -/
def GetSigners (env : Env) (height : Int) (msg : MsgEthereumTx) : Except String (List Address) := do
  let sender ← env.Sender height msg.Data
  return [sender]

/-- MsgEthereumTx.AsTransaction. -/
def AsTransaction (msg : MsgEthereumTx) : Transaction := msg.Data

end MsgEthereumTx

/-- The message server's EthereumTx: point the keeper at the context, and apply the transaction. -/
def EthereumTx (env : Env) (ctx : Context MultiStore Event) (msg : MsgEthereumTx) (k : Keeper) :
    Except String (Except String MsgEthereumTxResponse × Keeper) := do
  let k := k.WithContext ctx
  match ← ApplyTransaction env msg.AsTransaction k with
  | (.error err, k) => return (.error ("failed to apply transaction: " ++ err), k)
  | (.ok res, k) => return (.ok res, k)

end AnconEvm.Evm
