import AnconEvm.Sdk.Types
/-
  The EVM module's types (x/evm/types) and the go-ethereum values they are built from.

  An Ethereum address is 20 bytes and a hash 32, both read as big-endian numbers, so they are
  `BitVec 160` and `BitVec 256` here; `Bytes()` is the fixed-width encoding and `BytesToHash`
  keeps the LAST 32 bytes of a longer slice, as go-ethereum's `SetBytes` does.  The genesis types
  keep the hex STRINGS of the source, since what `Validate` checks is the parsed string:
  `Hash.Hex` writes "0x" and 64 lowercase digits, and `HexToHash` parses any string the way
  go-ethereum's `FromHex` does (an optional "0x", a leading "0" for odd lengths, decoding up to
  the first invalid pair).  Strings are character lists; the hex helpers only produce ASCII.
-/

namespace AnconEvm

/-- common.Address. -/
abbrev Address := BitVec 160

/-- common.Hash. -/
abbrev Hash := BitVec 256

/-- Address.Bytes(): the 20 big-endian bytes. -/
def Address.Bytes (a : Address) : Bytes := BigEndian.encodeFixed 20 a.toNat

/-- Hash.Bytes(): the 32 big-endian bytes. -/
def Hash.Bytes (h : Hash) : Bytes := BigEndian.encodeFixed 32 h.toNat

/-- common.BytesToHash: the value of the last 32 bytes. -/
def BytesToHash (bz : Bytes) : Hash := BitVec.ofNat 256 (BigEndian.decode (bz.drop (bz.length - 32)))

/-- common.BytesToAddress: the value of the last 20 bytes. -/
def BytesToAddress (bz : Bytes) : Address :=
  BitVec.ofNat 160 (BigEndian.decode (bz.drop (bz.length - 20)))

@[simp] theorem length_Address_Bytes (a : Address) : a.Bytes.length = 20 :=
  BigEndian.length_encodeFixed 20 a.toNat

@[simp] theorem length_Hash_Bytes (h : Hash) : h.Bytes.length = 32 :=
  BigEndian.length_encodeFixed 32 h.toNat

/-- **A hash is read back from any key that ends with its bytes**: this is how a storage
    iterator's full key (prefix, address, slot) gives back the slot. -/
theorem BytesToHash_append_Bytes (pre : Bytes) (h : Hash) : BytesToHash (pre ++ h.Bytes) = h := by
  have hdrop : (pre ++ h.Bytes).drop ((pre ++ h.Bytes).length - 32) = h.Bytes := by
    rw [List.length_append, length_Hash_Bytes, Nat.add_sub_cancel, List.drop_left]
  rw [BytesToHash, hdrop, Hash.Bytes, BigEndian.decode_encodeFixed_of_lt h.isLt]
  exact BitVec.eq_of_toNat_eq (by simp)

theorem BytesToHash_Bytes (h : Hash) : BytesToHash h.Bytes = h := by
  simpa using BytesToHash_append_Bytes [] h

theorem BytesToAddress_Bytes (a : Address) : BytesToAddress a.Bytes = a := by
  have hdrop : a.Bytes.drop (a.Bytes.length - 20) = a.Bytes := by
    rw [length_Address_Bytes, Nat.sub_self, List.drop_zero]
  rw [BytesToAddress, hdrop, Address.Bytes, BigEndian.decode_encodeFixed_of_lt a.isLt]
  exact BitVec.eq_of_toNat_eq (by simp)

theorem Address.Bytes_injective {a b : Address} (h : a.Bytes = b.Bytes) : a = b := by
  rw [← BytesToAddress_Bytes a, h, BytesToAddress_Bytes]

theorem Hash.Bytes_injective {a b : Hash} (h : a.Bytes = b.Bytes) : a = b := by
  rw [← BytesToHash_Bytes a, h, BytesToHash_Bytes]

/-! ## Hex strings -/

/-- The lowercase hex digit of a nibble. -/
def hexDigit (n : Nat) : Char := if n < 10 then Char.ofNat (48 + n) else Char.ofNat (87 + n)

/-- The value of a hex digit of either case (Go's fromHexChar). -/
def fromHexChar (c : Char) : Option Nat :=
  if '0' ≤ c ∧ c ≤ '9' then some (c.toNat - 48)
  else if 'a' ≤ c ∧ c ≤ 'f' then some (c.toNat - 87)
  else if 'A' ≤ c ∧ c ≤ 'F' then some (c.toNat - 55)
  else none

/-- The two digits of a byte, high half first. -/
def byteHex (b : UInt8) : List Char := [hexDigit (b.toNat / 16), hexDigit (b.toNat % 16)]

/-- common.Bytes2Hex (hex.EncodeToString). -/
def Bytes2Hex (bz : Bytes) : String := String.ofList (bz.flatMap byteHex)

/-- Go's hex decoding as common.Hex2Bytes uses it: the bytes of the leading valid digit pairs
    (the error that stops it is dropped). -/
def hexDecode : List Char → Bytes
  | a :: b :: rest =>
    match fromHexChar a, fromHexChar b with
    | some x, some y => UInt8.ofNat (16 * x + y) :: hexDecode rest
    | _, _ => []
  | _ => []

/-- The characters after an optional "0x" or "0X". -/
def strip0x : List Char → List Char
  | '0' :: c :: rest => if c = 'x' ∨ c = 'X' then rest else '0' :: c :: rest
  | cs => cs

/-- common.FromHex: strip "0x", pad an odd length with a leading "0", decode. -/
def FromHex (s : String) : Bytes :=
  let cs := strip0x s.toList
  hexDecode (if cs.length % 2 = 1 then '0' :: cs else cs)

/-- common.HexToHash. -/
def HexToHash (s : String) : Hash := BytesToHash (FromHex s)

/-- common.HexToAddress. -/
def HexToAddress (s : String) : Address := BytesToAddress (FromHex s)

/-- Hash.Hex() (and Hash.String()): "0x" and 64 lowercase digits. -/
def Hash.Hex (h : Hash) : String := "0x" ++ Bytes2Hex h.Bytes

/-- Address.Hex(), without the EIP-55 mixed case, which no check of the module reads:
    `IsHexAddress` ignores case and distinct addresses give distinct strings either way. -/
def Address.Hex (a : Address) : String := "0x" ++ Bytes2Hex a.Bytes

/-- ethermint.IsEmptyHash: the string parses to the zero hash. -/
def IsEmptyHash (hash : String) : Bool := HexToHash hash == 0

/-- common.IsHexAddress: 40 hex digits after an optional "0x". -/
def IsHexAddress (s : String) : Bool :=
  let cs := strip0x s.toList
  cs.length == 40 && cs.all fun c => (fromHexChar c).isSome

theorem fromHexChar_hexDigit {n : Nat} (h : n < 16) : fromHexChar (hexDigit n) = some n := by
  rcases n with _ | _ | _ | _ | _ | _ | _ | _ | _ | _ | _ | _ | _ | _ | _ | _ | n
  all_goals first | rfl | omega

theorem hexDecode_flatMap_byteHex (bz : Bytes) : hexDecode (bz.flatMap byteHex) = bz := by
  induction bz with
  | nil => rfl
  | cons b bz ih =>
    have hb := b.toNat_lt
    have hhi : fromHexChar (hexDigit (b.toNat / 16)) = some (b.toNat / 16) :=
      fromHexChar_hexDigit (by omega)
    have hlo : fromHexChar (hexDigit (b.toNat % 16)) = some (b.toNat % 16) :=
      fromHexChar_hexDigit (by omega)
    have hbyte : UInt8.ofNat (16 * (b.toNat / 16) + b.toNat % 16) = b := by
      rw [show 16 * (b.toNat / 16) + b.toNat % 16 = b.toNat by omega]
      exact UInt8.ofNat_toNat
    simp only [List.flatMap_cons, byteHex, List.cons_append, List.nil_append, hexDecode, hhi,
      hlo, hbyte, ih]

theorem length_flatMap_byteHex (bz : Bytes) : (bz.flatMap byteHex).length = 2 * bz.length := by
  induction bz with
  | nil => rfl
  | cons b bz ih =>
    simp only [List.flatMap_cons, List.length_append, ih, List.length_cons]
    simp [byteHex]
    omega

/-- **Hex round trip**: a hash written with `Hex` parses back to itself. -/
theorem HexToHash_Hex (h : Hash) : HexToHash h.Hex = h := by
  have hlen : (h.Bytes.flatMap byteHex).length % 2 = 0 := by
    rw [length_flatMap_byteHex]
    omega
  have hstrip : strip0x (Hash.Hex h).toList = h.Bytes.flatMap byteHex := by
    simp [Hash.Hex, Bytes2Hex, strip0x]
  simp only [HexToHash, FromHex, hstrip, hlen, Nat.zero_ne_one, if_false,
    hexDecode_flatMap_byteHex, BytesToHash_Bytes]

/-- **Hex round trip** for addresses. -/
theorem HexToAddress_Hex (a : Address) : HexToAddress a.Hex = a := by
  have hlen : (a.Bytes.flatMap byteHex).length % 2 = 0 := by
    rw [length_flatMap_byteHex]
    omega
  have hstrip : strip0x (Address.Hex a).toList = a.Bytes.flatMap byteHex := by
    simp [Address.Hex, Bytes2Hex, strip0x]
  simp only [HexToAddress, FromHex, hstrip, hlen, Nat.zero_ne_one, if_false,
    hexDecode_flatMap_byteHex, BytesToAddress_Bytes]

/-- **Only the zero hash is "empty"** among the strings `Hex` writes. -/
theorem IsEmptyHash_Hex (h : Hash) : IsEmptyHash h.Hex = (h == 0) := by
  rw [IsEmptyHash, HexToHash_Hex]

/-! ## Store keys and logs -/

/-- types.EmptyCodeHash: Keccak256 of the empty string. -/
def EmptyCodeHash : Hash := 0xc5d2460186f7233c927e7db2dcc703c0e500b653ca82273b7bfad8045d85a470

/-- types.KeyPrefixCode. -/
def KeyPrefixCode : Bytes := [1]

/-- types.KeyPrefixStorage. -/
def KeyPrefixStorage : Bytes := [2]

/-- types.KeyPrefixTransientSuicided. -/
def KeyPrefixTransientSuicided : Bytes := [1]

/-- types.KeyPrefixTransientBloom. -/
def KeyPrefixTransientBloom : Bytes := [2]

/-- types.KeyPrefixTransientTxIndex. -/
def KeyPrefixTransientTxIndex : Bytes := [3]

/-- types.KeyPrefixTransientRefund. -/
def KeyPrefixTransientRefund : Bytes := [4]

/-- types.KeyPrefixTransientAccessListAddress. -/
def KeyPrefixTransientAccessListAddress : Bytes := [5]

/-- types.KeyPrefixTransientAccessListSlot. -/
def KeyPrefixTransientAccessListSlot : Bytes := [6]

/-- types.KeyPrefixTransientTxHash. -/
def KeyPrefixTransientTxHash : Bytes := [7]

/-- types.KeyPrefixTransientLogSize. -/
def KeyPrefixTransientLogSize : Bytes := [8]

/-- types.KeyPrefixTransientTxLogs. -/
def KeyPrefixTransientTxLogs : Bytes := [9]

/-- types.AddressStoragePrefix: the storage prefix followed by the address. -/
def AddressStoragePrefix (address : Address) : Bytes := KeyPrefixStorage ++ address.Bytes

/-- A storage slot of an account in genesis form (types.State): key and value as hex strings. -/
structure State where
  Key : String
  Value : String
  deriving DecidableEq, Repr

/-- types.NewState. -/
def NewState (key value : Hash) : State := ⟨key.Hex, value.Hex⟩

/-- The message of types.ErrInvalidState. -/
def ErrInvalidState : String := "invalid storage state"

/-- State.Validate: the key must not be the empty hash; the value may be. -/
def State.Validate (s : State) : Except String Unit :=
  if IsEmptyHash s.Key then .error ("state key hash cannot be empty: " ++ ErrInvalidState)
  else .ok ()

/-- **A slot in genesis form is refused exactly when its key is slot 0.** -/
theorem State.Validate_NewState (key value : Hash) :
    (NewState key value).Validate =
      if key = 0 then .error ("state key hash cannot be empty: " ++ ErrInvalidState) else .ok () := by
  simp only [State.Validate, NewState, IsEmptyHash_Hex, beq_iff_eq]

/-- The loop of Storage.Validate: the index of the state, and the keys seen so far. -/
def Storage.validateFrom : List State → Nat → List String → Except String Unit
  | [], _, _ => .ok ()
  | state :: rest, i, seen =>
    if seen.contains state.Key then
      .error ("duplicate state key " ++ toString i ++ ": " ++ state.Key ++ ": " ++ ErrInvalidState)
    else do
      state.Validate
      Storage.validateFrom rest (i + 1) (state.Key :: seen)

/-- Storage.Validate: no key twice, and every state valid. -/
def Storage.Validate (storage : List State) : Except String Unit :=
  Storage.validateFrom storage 0 []

/-- An Ethereum log (ethtypes.Log).  The store keeps its protobuf form types.Log, which
    NewLogFromEth and ToEthereum translate both ways; this form does not tell a nil topic list
    from an empty one, the one difference the translation loses (`Evm/Logs.lean`). -/
structure Log where
  Address : Address
  Topics : List Hash
  Data : Bytes
  BlockNumber : UInt64
  TxHash : Hash
  TxIndex : Nat
  BlockHash : Hash
  Index : Nat
  Removed : Bool
  deriving DecidableEq, Repr

end AnconEvm
