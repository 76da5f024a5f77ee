import AnconEvm.Evm.Types
import AnconEvm.Lib.GoSlice
/-
  The Ethereum transaction in the module's protobuf form (x/evm/types: legacy_tx.go,
  access_list_tx.go, access_list.go, tx_data.go, msg.go), and the app's transaction codec
  (encoding/config.go).

  The decoder turns go-ethereum's transaction into a MsgEthereumTx (`FromEthereumTx`), whose
  data stores every field in another form: the recipient as a hex string (empty for a
  creation), the amounts as `sdk.Int` (at most 256 bits, else `NewIntFromBigInt` panics), the
  signature values as the shortest big-endian bytes of the number (none for zero), the access
  list as strings.  The encoder goes back (`AsTransaction`, then go-ethereum's
  `MarshalBinary`).  go-ethereum's own `NewTx` copies the inner data it is given, and its copy
  turns every nil integer into zero and a nil access list into an empty one (`EthTxData.copy`);
  every transaction go-ethereum holds is such a copy.

  go-ethereum's integers are `Int`; a transaction's signature values are never negative (the
  shortest bytes of a number drop its sign).
-/

namespace AnconEvm.Evm

/-! ## go-ethereum's transactions -/

/-- ethtypes.AccessTuple. -/
structure EthAccessTuple where
  Address : Address
  StorageKeys : List Hash
  deriving DecidableEq, Repr

/-- ethtypes.LegacyTx; a nil integer is `none`. -/
structure EthLegacyTx where
  Nonce : UInt64
  GasPrice : Option Int
  Gas : UInt64
  To : Option Address
  Value : Option Int
  Data : Bytes
  V : Option Int
  R : Option Int
  S : Option Int
  deriving DecidableEq, Repr

/-- ethtypes.AccessListTx; a nil integer is `none`, and the access list a Go slice. -/
structure EthAccessListTx where
  ChainID : Option Int
  Nonce : UInt64
  GasPrice : Option Int
  Gas : UInt64
  To : Option Address
  Value : Option Int
  Data : Bytes
  AccessList : GoSlice EthAccessTuple
  V : Option Int
  R : Option Int
  S : Option Int
  deriving DecidableEq, Repr

/-- ethtypes.TxData of the two transaction types the module supports. -/
inductive EthTxData
  | legacy (tx : EthLegacyTx)
  | accessList (tx : EthAccessListTx)
  deriving DecidableEq, Repr

/-- The integer a copy holds: a nil one becomes zero. -/
def copyInt (x : Option Int) : Option Int := some (x.getD 0)

/-- TxData.copy: go-ethereum's deep copy, with zero for nil integers and a non-nil access
    list. -/
def EthTxData.copy : EthTxData → EthTxData
  | .legacy tx => .legacy { tx with
      GasPrice := copyInt tx.GasPrice, Value := copyInt tx.Value,
      V := copyInt tx.V, R := copyInt tx.R, S := copyInt tx.S }
  | .accessList tx => .accessList { tx with
      ChainID := copyInt tx.ChainID, GasPrice := copyInt tx.GasPrice, Value := copyInt tx.Value,
      AccessList := .mk tx.AccessList.elems,
      V := copyInt tx.V, R := copyInt tx.R, S := copyInt tx.S }

@[simp] theorem copyInt_copyInt (x : Option Int) : copyInt (copyInt x) = copyInt x := rfl

@[simp] theorem copyInt_some_getD (x : Option Int) : copyInt (some (x.getD 0)) = copyInt x := rfl

theorem EthTxData.copy_copy (data : EthTxData) : data.copy.copy = data.copy := by
  cases data <;> rfl

/-- ethtypes.Transaction: inner data that is a copy, as `NewTx` and the decoder make it. -/
structure EthTransaction where
  inner : EthTxData
  copied : inner.copy = inner

/-- ethtypes.NewTx: a transaction holding a copy of the data. -/
def NewTx (inner : EthTxData) : EthTransaction := ⟨inner.copy, inner.copy_copy⟩

theorem EthTransaction.ext {t t' : EthTransaction} (h : t.inner = t'.inner) : t = t' := by
  cases t
  cases t'
  cases h
  rfl

/-- A transaction is the transaction of its own data. -/
theorem NewTx_inner (t : EthTransaction) : NewTx t.inner = t :=
  EthTransaction.ext t.copied

/-- go-ethereum's deriveChainId: the chain id a legacy transaction's V encodes (EIP-155), with
    uint64 arithmetic when V fits 64 bits. -/
def deriveChainId (v : Int) : Int :=
  if v.natAbs < 2 ^ 64 then
    if v.natAbs = 27 ∨ v.natAbs = 28 then 0
    else (((v.natAbs + 2 ^ 64 - 35) % 2 ^ 64) / 2 : Nat)
  else (v - 35) / 2

namespace EthTransaction

/-- tx.Type(). -/
def TxType (tx : EthTransaction) : Nat :=
  match tx.inner with
  | .legacy _ => 0
  | .accessList _ => 1

/-- tx.Nonce(). -/
def Nonce (tx : EthTransaction) : UInt64 :=
  match tx.inner with
  | .legacy d => d.Nonce
  | .accessList d => d.Nonce

/-- tx.Gas(). -/
def Gas (tx : EthTransaction) : UInt64 :=
  match tx.inner with
  | .legacy d => d.Gas
  | .accessList d => d.Gas

/-- tx.GasPrice(). -/
def GasPrice (tx : EthTransaction) : Int :=
  match tx.inner with
  | .legacy d => d.GasPrice.getD 0
  | .accessList d => d.GasPrice.getD 0

/-- tx.Value(). -/
def Value (tx : EthTransaction) : Int :=
  match tx.inner with
  | .legacy d => d.Value.getD 0
  | .accessList d => d.Value.getD 0

/-- tx.To(). -/
def To (tx : EthTransaction) : Option Address :=
  match tx.inner with
  | .legacy d => d.To
  | .accessList d => d.To

/-- tx.Data(). -/
def Data (tx : EthTransaction) : Bytes :=
  match tx.inner with
  | .legacy d => d.Data
  | .accessList d => d.Data

/-- tx.AccessList(): nil for a legacy transaction. -/
def AccessList (tx : EthTransaction) : GoSlice EthAccessTuple :=
  match tx.inner with
  | .legacy _ => .nil
  | .accessList d => d.AccessList

/-- tx.ChainId(): derived from V for a legacy transaction. -/
def ChainId (tx : EthTransaction) : Int :=
  match tx.inner with
  | .legacy d => deriveChainId (d.V.getD 0)
  | .accessList d => d.ChainID.getD 0

/-- tx.RawSignatureValues(). -/
def RawSignatureValues (tx : EthTransaction) : Option Int × Option Int × Option Int :=
  match tx.inner with
  | .legacy d => (d.V, d.R, d.S)
  | .accessList d => (d.V, d.R, d.S)

end EthTransaction

/-! ## The protobuf transaction data -/

/-- sdk.NewIntFromBigInt: panics beyond 256 bits. -/
def NewIntFromBigInt (i : Int) : Except String Int :=
  if i.natAbs < 2 ^ 256 then .ok i else .error "NewIntFromBigInt() out of bound"

/-- types.AccessTuple. -/
structure AccessTuple where
  Address : String
  StorageKeys : List String
  deriving DecidableEq, Repr

/-- types.LegacyTx. -/
structure LegacyTx where
  Nonce : UInt64
  GasPrice : Option Int
  GasLimit : UInt64
  To : String
  Amount : Option Int
  Data : Bytes
  V : Bytes
  R : Bytes
  S : Bytes
  deriving DecidableEq, Repr

/-- types.AccessListTx. -/
structure AccessListTx where
  ChainID : Option Int
  Nonce : UInt64
  GasPrice : Option Int
  GasLimit : UInt64
  To : String
  Amount : Option Int
  Data : Bytes
  Accesses : GoSlice AccessTuple
  V : Bytes
  R : Bytes
  S : Bytes
  deriving DecidableEq, Repr

/-- types.TxData of the two supported types. -/
inductive TxData
  | legacy (tx : LegacyTx)
  | accessList (tx : AccessListTx)
  deriving DecidableEq, Repr

/-- NewAccessList: nil for a nil list, else the strings of every tuple. -/
def NewAccessList (ethAccessList : Option (GoSlice EthAccessTuple)) : GoSlice AccessTuple :=
  match ethAccessList with
  | none => .nil
  | some al =>
    .mk (al.elems.map fun tuple => ⟨tuple.Address.Hex, tuple.StorageKeys.map Hash.Hex⟩)

/-- AccessList.ToEthAccessList: the tuples parsed back, by Go's append loop. -/
def ToEthAccessList (al : GoSlice AccessTuple) : GoSlice EthAccessTuple :=
  GoSlice.appendAll (fun tuple => ⟨HexToAddress tuple.Address, tuple.StorageKeys.map HexToHash⟩)
    al.elems

/-- The bytes SetSignatureValues stores for a signature value: `v.Bytes()`, nothing for nil. -/
def sigBytes (x : Option Int) : Bytes := (x.map bigBytes).getD []

/-- One value of rawSignatureValues: nil for no bytes. -/
def sigValue (bz : Bytes) : Option Int := if bz.length > 0 then some (bigSetBytes bz) else none

/-- The recipient string of the proto data: the address's hex, empty for a creation. -/
def toHex (addr : Option Address) : String := (addr.map Address.Hex).getD ""

/-- GetTo: nil for the empty string, else the parsed address. -/
def GetTo (addr : String) : Option Address := if addr = "" then none else some (HexToAddress addr)

/-- An amount as the proto data holds it: `sdk.NewIntFromBigInt` of a non-nil integer. -/
def newSdkInt (x : Int) : Except String (Option Int) := do return some (← NewIntFromBigInt x)

/-- newLegacyTx (with SetSignatureValues, which ignores the chain id for this type). -/
def newLegacyTx (tx : EthTransaction) : Except String LegacyTx := do
  let (v, r, s) := tx.RawSignatureValues
  let amount ← newSdkInt tx.Value
  let gasPrice ← newSdkInt tx.GasPrice
  return ⟨tx.Nonce, gasPrice, tx.Gas, toHex tx.To, amount, tx.Data, sigBytes v, sigBytes r,
    sigBytes s⟩

/-- newAccessListTx (with SetSignatureValues, which stores the chain id). -/
def newAccessListTx (tx : EthTransaction) : Except String AccessListTx := do
  let (v, r, s) := tx.RawSignatureValues
  let amount ← newSdkInt tx.Value
  let gasPrice ← newSdkInt tx.GasPrice
  let accesses := if tx.AccessList ≠ .nil then NewAccessList (some tx.AccessList) else .nil
  let chainID ← newSdkInt tx.ChainId
  return ⟨chainID, tx.Nonce, gasPrice, tx.Gas, toHex tx.To, amount, tx.Data, accesses,
    sigBytes v, sigBytes r, sigBytes s⟩

/-- NewTxDataFromTx: the access list type, or legacy for any other. -/
def NewTxDataFromTx (tx : EthTransaction) : Except String TxData :=
  if tx.TxType = 1 then .accessList <$> newAccessListTx tx else .legacy <$> newLegacyTx tx

/-- MsgEthereumTx.FromEthereumTx: the data the message gets (its size and hash fields, which
    AsTransaction does not read, are left out); a panic of the conversion is an error. -/
def FromEthereumTx (tx : EthTransaction) : Except String TxData := NewTxDataFromTx tx

/-- LegacyTx.AsEthereumData. -/
def LegacyTx.AsEthereumData (tx : LegacyTx) : EthTxData :=
  .legacy ⟨tx.Nonce, tx.GasPrice, tx.GasLimit, GetTo tx.To, tx.Amount, tx.Data, sigValue tx.V,
    sigValue tx.R, sigValue tx.S⟩

/-- AccessListTx.GetAccessList: nil for nil accesses. -/
def AccessListTx.GetAccessList (tx : AccessListTx) : GoSlice EthAccessTuple :=
  if tx.Accesses = .nil then .nil else ToEthAccessList tx.Accesses

/-- AccessListTx.AsEthereumData. -/
def AccessListTx.AsEthereumData (tx : AccessListTx) : EthTxData :=
  .accessList ⟨tx.ChainID, tx.Nonce, tx.GasPrice, tx.GasLimit, GetTo tx.To, tx.Amount, tx.Data,
    tx.GetAccessList, sigValue tx.V, sigValue tx.R, sigValue tx.S⟩

/-- MsgEthereumTx.AsTransaction: go-ethereum's transaction of the data. -/
def TxData.AsTransaction : TxData → EthTransaction
  | .legacy tx => NewTx tx.AsEthereumData
  | .accessList tx => NewTx tx.AsEthereumData

/-! ## The round trip -/

/-- A signature value comes back as its magnitude: the bytes of a number drop its sign, and no
    bytes (a zero or a nil value) read back as nil, which the copy makes zero. -/
theorem copyInt_sigValue_sigBytes (x : Option Int) :
    copyInt (sigValue (sigBytes x)) = copyInt (x.map fun v => (v.natAbs : Int)) := by
  cases x with
  | none => rfl
  | some v =>
    by_cases hv : v = 0
    · subst hv
      rfl
    · have hlen : (bigBytes v).length > 0 :=
        List.length_pos_iff.mpr ((bigBytes_eq_nil_iff v).not.mpr hv)
      simp [sigBytes, sigValue, hlen]

theorem copyInt_sigValue_sigBytes_of_nonneg {x : Option Int} (h : 0 ≤ x.getD 0) :
    copyInt (sigValue (sigBytes x)) = copyInt x := by
  rw [copyInt_sigValue_sigBytes]
  cases x with
  | none => rfl
  | some v =>
    simp only [Option.map_some, copyInt, Option.getD_some] at h ⊢
    rw [Int.natAbs_of_nonneg h]

/-- A recipient comes back from its hex string, and a creation from the empty string. -/
@[simp] theorem GetTo_toHex (addr : Option Address) : GetTo (toHex addr) = addr := by
  cases addr with
  | none => rfl
  | some a =>
    have hne : a.Hex ≠ "" := by simp [Address.Hex]
    simp [toHex, GetTo, hne, HexToAddress_Hex]

theorem newSdkInt_of_lt {x : Int} (h : x.natAbs < 2 ^ 256) : newSdkInt x = .ok (some x) := by
  unfold newSdkInt NewIntFromBigInt
  rw [if_pos h]
  rfl

/-- GetAccessList reads the tuples of the accesses, nil or not. -/
@[simp] theorem AccessListTx.elems_GetAccessList (tx : AccessListTx) :
    tx.GetAccessList.elems = (ToEthAccessList tx.Accesses).elems := by
  unfold AccessListTx.GetAccessList
  split
  · simp_all [ToEthAccessList]
  · rfl

/-- The tuples of an access list come back from their strings. -/
@[simp] theorem elems_ToEthAccessList_NewAccessList (al : GoSlice EthAccessTuple) :
    (ToEthAccessList (NewAccessList (some al))).elems = al.elems := by
  simp [ToEthAccessList, NewAccessList, HexToAddress_Hex, HexToHash_Hex, Function.comp_def]

/-- The transactions the decoder keeps whole: the amounts, and the chain id the access list type
    stores, fit an `sdk.Int` (at most 256 bits), and no signature value is negative (none that
    go-ethereum decodes or signs is). -/
structure EthTransaction.Fits (tx : EthTransaction) : Prop where
  value : tx.Value.natAbs < 2 ^ 256
  gasPrice : tx.GasPrice.natAbs < 2 ^ 256
  chainId : tx.TxType = 1 → tx.ChainId.natAbs < 2 ^ 256
  v : 0 ≤ tx.RawSignatureValues.1.getD 0
  r : 0 ≤ tx.RawSignatureValues.2.1.getD 0
  s : 0 ≤ tx.RawSignatureValues.2.2.getD 0

/-- The accesses newAccessListTx stores, nil for a nil list, read back as the list's tuples. -/
@[simp] theorem elems_ToEthAccessList_accesses (al : GoSlice EthAccessTuple) :
    (ToEthAccessList (if ¬al = .nil then NewAccessList (some al) else .nil)).elems = al.elems := by
  split
  · exact elems_ToEthAccessList_NewAccessList al
  · simp_all [ToEthAccessList]

/-- What newLegacyTx stores for a transaction that fits. -/
theorem newLegacyTx_of_fits {tx : EthTransaction} (h : tx.Fits) :
    newLegacyTx tx = .ok ⟨tx.Nonce, some tx.GasPrice, tx.Gas, toHex tx.To, some tx.Value, tx.Data,
      sigBytes tx.RawSignatureValues.1, sigBytes tx.RawSignatureValues.2.1,
      sigBytes tx.RawSignatureValues.2.2⟩ := by
  simp [newLegacyTx, newSdkInt_of_lt h.value, newSdkInt_of_lt h.gasPrice]

/-- What newAccessListTx stores for a transaction of that type that fits. -/
theorem newAccessListTx_of_fits {tx : EthTransaction} (h : tx.Fits) (htype : tx.TxType = 1) :
    newAccessListTx tx = .ok ⟨some tx.ChainId, tx.Nonce, some tx.GasPrice, tx.Gas, toHex tx.To,
      some tx.Value, tx.Data,
      (if tx.AccessList ≠ .nil then NewAccessList (some tx.AccessList) else .nil),
      sigBytes tx.RawSignatureValues.1, sigBytes tx.RawSignatureValues.2.1,
      sigBytes tx.RawSignatureValues.2.2⟩ := by
  simp [newAccessListTx, newSdkInt_of_lt h.value, newSdkInt_of_lt h.gasPrice,
    newSdkInt_of_lt (h.chainId htype)]

/-- **The data of a transaction gives it back**: for a transaction that fits, the message
    FromEthereumTx makes holds data whose AsTransaction is the transaction itself, with its type,
    nonce, gas price, gas, recipient, value, data, access list, chain id and raw signature values,
    and so its hash.  Zero and nil values come back as zero by NewTx's copy, which is how the
    transaction held them. -/
theorem AsTransaction_FromEthereumTx (t : EthTransaction) (h : t.Fits) :
    ∃ data, FromEthereumTx t = .ok data ∧ TxData.AsTransaction data = t := by
  obtain ⟨inner, copied⟩ := t
  cases inner with
  | legacy d =>
    have htype : EthTransaction.TxType ⟨.legacy d, copied⟩ ≠ 1 := by
      simp [EthTransaction.TxType]
    have hv : 0 ≤ d.V.getD 0 := h.v
    have hr : 0 ≤ d.R.getD 0 := h.r
    have hs : 0 ≤ d.S.getD 0 := h.s
    refine ⟨_, by
      rw [FromEthereumTx, NewTxDataFromTx, if_neg htype, newLegacyTx_of_fits h]; rfl, ?_⟩
    apply EthTransaction.ext
    -- the data read back and the transaction's own have the same copy
    refine Eq.trans ?_ copied
    simp [TxData.AsTransaction, NewTx, LegacyTx.AsEthereumData, EthTxData.copy,
      EthTransaction.Nonce, EthTransaction.GasPrice, EthTransaction.Gas, EthTransaction.To,
      EthTransaction.Value, EthTransaction.Data, EthTransaction.RawSignatureValues,
      copyInt_sigValue_sigBytes_of_nonneg hv,
      copyInt_sigValue_sigBytes_of_nonneg hr, copyInt_sigValue_sigBytes_of_nonneg hs]
  | accessList d =>
    have htype : EthTransaction.TxType ⟨.accessList d, copied⟩ = 1 := rfl
    have hv : 0 ≤ d.V.getD 0 := h.v
    have hr : 0 ≤ d.R.getD 0 := h.r
    have hs : 0 ≤ d.S.getD 0 := h.s
    refine ⟨_, by
      rw [FromEthereumTx, NewTxDataFromTx, if_pos htype, newAccessListTx_of_fits h htype]
      rfl, ?_⟩
    apply EthTransaction.ext
    refine Eq.trans ?_ copied
    simp [TxData.AsTransaction, NewTx, AccessListTx.AsEthereumData,
      EthTxData.copy, EthTransaction.ChainId, EthTransaction.Nonce,
      EthTransaction.GasPrice, EthTransaction.Gas, EthTransaction.To, EthTransaction.Value,
      EthTransaction.Data, EthTransaction.AccessList, EthTransaction.RawSignatureValues,
      copyInt_sigValue_sigBytes_of_nonneg hv, copyInt_sigValue_sigBytes_of_nonneg hr,
      copyInt_sigValue_sigBytes_of_nonneg hs]
    exact elems_ToEthAccessList_accesses d.AccessList

/-! ## The app's transaction codec -/

/-- An `sdk.Tx` as the app's codec tells them apart: an Ethereum message (by the data
    AsTransaction reads), or a transaction of the SDK's own codec. -/
inductive CodecTx (σ : Type)
  | ethereum (data : TxData)
  | other (tx : σ)

section Codec

variable {σ : Type} (MarshalBinary : EthTransaction → Bytes)
  (UnmarshalBinary : Bytes → Except String EthTransaction)

/-- txConfig.TxEncoder: an Ethereum message is encoded as go-ethereum encodes its transaction,
    any other by the SDK's encoder. -/
def TxEncoder (sdkEncoder : σ → Except String Bytes) : CodecTx σ → Except String Bytes
  | .ethereum data => .ok (MarshalBinary (TxData.AsTransaction data))
  | .other tx => sdkEncoder tx

/-- txConfig.TxDecoder: bytes go-ethereum decodes become an Ethereum message, any others go to
    the SDK's decoder. -/
def TxDecoder (sdkDecoder : Bytes → Except String (CodecTx σ)) (txBytes : Bytes) :
    Except String (CodecTx σ) :=
  match UnmarshalBinary txBytes with
  | .ok tx => .ethereum <$> FromEthereumTx tx
  | .error _ => sdkDecoder txBytes

/-- **The wire codec round trips**: the data of every transaction that fits gives the transaction
    back, and so bytes that go-ethereum decodes to such a transaction are encoded back to
    themselves, given that go-ethereum's encoding inverts its decoding. -/
theorem TxEncoder_TxDecoder (sdkEncoder : σ → Except String Bytes)
    (sdkDecoder : Bytes → Except String (CodecTx σ))
    (hcanonical : ∀ b t, UnmarshalBinary b = .ok t → MarshalBinary t = b) :
    (∀ t : EthTransaction, t.Fits →
      ∃ data, FromEthereumTx t = .ok data ∧ TxData.AsTransaction data = t) ∧
    ∀ b t, UnmarshalBinary b = .ok t → t.Fits →
      (TxDecoder UnmarshalBinary sdkDecoder b).bind (TxEncoder MarshalBinary sdkEncoder) =
        .ok b := by
  refine ⟨AsTransaction_FromEthereumTx, ?_⟩
  intro b t hdec hfits
  obtain ⟨data, hfrom, hback⟩ := AsTransaction_FromEthereumTx t hfits
  have hdecoded : TxDecoder UnmarshalBinary sdkDecoder b = .ok (.ethereum data) := by
    simp [TxDecoder, hdec, hfrom]
  rw [hdecoded]
  show Except.ok (MarshalBinary (TxData.AsTransaction data)) = .ok b
  rw [hback, hcanonical b t hdec]

/-- An unsigned creation, with zero value and zero signature values, survives the codec.  The
    codec is go-ethereum's at this transaction: the RLP list (header 0xcd) of the nonce, the gas
    price, the gas 0xcf08, the empty recipient, the value, the code 0x6000 and v, r, s, with
    every zero as the empty string 0x80. -/
theorem TxEncoder_TxDecoder_unsigned_creation :
    let tx :=
      NewTx (.legacy ⟨0, some 0, 53000, none, some 0, [0x60, 0x00], some 0, some 0, some 0⟩)
    let rlp : Bytes :=
      [0xcd, 0x80, 0x80, 0x82, 0xcf, 0x08, 0x80, 0x80, 0x82, 0x60, 0x00, 0x80, 0x80, 0x80]
    let marshal : EthTransaction → Bytes := fun t => if t.inner = tx.inner then rlp else []
    let unmarshal : Bytes → Except String EthTransaction :=
      fun b => if b = rlp then .ok tx else .error "rlp: expected input list"
    (TxDecoder unmarshal (fun _ => .error "" : Bytes → Except String (CodecTx Unit)) rlp).bind
      (TxEncoder marshal (fun _ => .error "")) = .ok rlp := by
  intro tx rlp marshal unmarshal
  -- the encoding inverts the decoding: only the RLP bytes decode, and to this transaction
  have hcanonical : ∀ b t, unmarshal b = .ok t → marshal t = b := by
    intro b t h
    by_cases hb : b = rlp
    · simp only [unmarshal, hb, if_true, Except.ok.injEq] at h
      subst h
      simp [marshal, hb]
    · simp [unmarshal, hb] at h
  have hfits : tx.Fits := ⟨by decide, by decide, by decide, by decide, by decide, by decide⟩
  exact (TxEncoder_TxDecoder marshal unmarshal (fun _ => .error "") (fun _ => .error "")
    hcanonical).2 rlp tx (if_pos rfl) hfits

end Codec

/-! ## The chain id of a signature

  A legacy transaction carries its chain id in the signature's v value (EIP-155): v is
  `{0,1} + CHAIN_ID * 2 + 35`, or `{0,1} + 27` without a chain id.  DeriveChainID reads a v of at
  most 64 bits as a uint64 and a longer one with big.Int arithmetic; both give `(v - 35) / 2`
  from 35 on. -/

/-- big.Int.BitLen: the length of the absolute value in bits. -/
def BitLen (v : Int) : Nat := v.natAbs.size

/-- DeriveChainID: the chain id of a signature's v value; a nil integer is `none`. -/
def DeriveChainID (v : Option Int) : Option Int :=
  match v with
  | none => none
  | some v =>
    if v < 1 then none
    else if BitLen v ≤ 64 then
      -- v.Uint64(): the value itself, which fits
      let v := v.toNat
      if v = 27 ∨ v = 28 then some 0
      else if v < 35 then none
      else some ((v - 35) / 2 : Nat)
    else some ((v - 35) / 2)

/-- LegacyTx.GetChainID: the chain id of the raw signature values. -/
def LegacyTx.GetChainID (tx : LegacyTx) : Option Int := DeriveChainID (sigValue tx.V)

/-- A positive value has at most 64 bits exactly below `2 ^ 64`. -/
theorem BitLen_le_64_iff {v : Int} (hv : 0 ≤ v) : BitLen v ≤ 64 ↔ v < 2 ^ 64 := by
  rw [BitLen, Nat.size_le]
  omega

/-- **Both paths divide `v - 35` by two** from 35 on: the uint64 path for a v of at most 64 bits,
    the big.Int path above. -/
theorem DeriveChainID_of_ge {v : Int} (hv : 35 ≤ v) : DeriveChainID (some v) = some ((v - 35) / 2) := by
  have hpos : ¬ v < 1 := by omega
  simp only [DeriveChainID, hpos, if_false]
  split
  · -- the uint64 path: v.toNat is v, neither 27 nor 28 and not below 35
    have hlegacy : ¬ (v.toNat = 27 ∨ v.toNat = 28) := by omega
    have hlow : ¬ v.toNat < 35 := by omega
    simp only [hlegacy, hlow, if_false, Option.some.injEq]
    omega
  · rfl

/-- The big.Int path on the 80-bit value of the Go test. -/
example : DeriveChainID (some (2 ^ 79)) = some 302231454903657293676526 := by
  rw [DeriveChainID_of_ge (by norm_num)]
  norm_num

/-- The values without EIP-155, 27 and 28, give the chain id 0. -/
theorem DeriveChainID_legacy {v : Int} (hv : v = 27 ∨ v = 28) : DeriveChainID (some v) = some 0 := by
  have hpos : ¬ v < 1 := by omega
  have hbits : BitLen v ≤ 64 := (BitLen_le_64_iff (by omega)).mpr (by omega)
  have hlegacy : v.toNat = 27 ∨ v.toNat = 28 := by omega
  simp only [DeriveChainID, hpos, hbits, hlegacy, if_true, if_false]

/-- Every other value below 35, and every non-positive one, has no chain id. -/
theorem DeriveChainID_of_lt {v : Int} (hv : v < 35) (h27 : v ≠ 27) (h28 : v ≠ 28) :
    DeriveChainID (some v) = none := by
  by_cases hpos : v < 1
  · simp only [DeriveChainID, hpos, if_true]
  · have hbits : BitLen v ≤ 64 := (BitLen_le_64_iff (by omega)).mpr (by omega)
    have hlegacy : ¬ (v.toNat = 27 ∨ v.toNat = 28) := by omega
    have hlow : v.toNat < 35 := by omega
    simp only [DeriveChainID, hpos, hbits, hlegacy, hlow, if_true, if_false]

/-- **DeriveChainID inverts the EIP-155 encoding**: `2c + 35 + b` gives `c` for either parity
    bit, on the uint64 path and on the big.Int path; 27 and 28 give 0; nil, non-positive values
    and every other value below 35 give nil. -/
theorem DeriveChainID_inverts_eip155 :
    (∀ c b : Nat, b ≤ 1 → DeriveChainID (some (2 * c + 35 + b : Nat)) = some (c : Int)) ∧
    DeriveChainID (some 27) = some 0 ∧ DeriveChainID (some 28) = some 0 ∧
    DeriveChainID none = none ∧ (∀ v : Int, v ≤ 0 → DeriveChainID (some v) = none) ∧
    (∀ v : Int, v < 35 → v ≠ 27 → v ≠ 28 → DeriveChainID (some v) = none) := by
  refine ⟨?_, DeriveChainID_legacy (.inl rfl), DeriveChainID_legacy (.inr rfl), rfl,
    fun v hv => DeriveChainID_of_lt (by omega) (by omega) (by omega), fun v hv h27 h28 =>
    DeriveChainID_of_lt hv h27 h28⟩
  intro c b hb
  rw [DeriveChainID_of_ge (by omega), Option.some.injEq]
  omega

end AnconEvm.Evm
