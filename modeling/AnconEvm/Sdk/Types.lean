import AnconEvm.Lib.BigEndian
import AnconEvm.Lib.Except
import AnconEvm.Lib.KVStore
/-
  The Cosmos SDK and Go values the modules read and write.

  Byte strings are lists of bytes; a module's `KVStore` is a `KV.Store` of byte strings, so that
  iteration is in byte order as the SDK's iterators are.  Go's `*big.Int` is an `Int`: its
  `Bytes()` is the SHORTEST big-endian encoding of the ABSOLUTE value (empty for `0`), and
  `SetBytes` reads a big-endian string back.  `big.Int.Div` is Euclidean division, which is
  Lean's `Int` division (`Int.ediv`); it panics on a zero divisor, which `bigDiv` reports as an
  error.
-/

namespace AnconEvm

/-- A Go byte slice. -/
abbrev Bytes := List UInt8

/-- A module's key-value store. -/
abbrev KVStore := KV.Store Bytes Bytes

namespace KVStore

/-- store.Get: the stored value, or nil (empty) for an absent key. -/
def Get (store : KVStore) (key : Bytes) : Bytes := store[key]?.getD []

/-- store.Set. -/
def Set (store : KVStore) (key value : Bytes) : KVStore := store.insert key value

@[simp] theorem Get_Set_self (store : KVStore) (key value : Bytes) :
    Get (Set store key value) key = value := by
  simp [Get, Set]

@[simp] theorem Get_Set_of_ne {key key' : Bytes} (store : KVStore) (value : Bytes) (h : key ≠ key') :
    Get (Set store key value) key' = Get store key' := by
  simp [Get, Set, Std.ExtTreeMap.getElem?_insert, h]

end KVStore

/-- An ABCI event: its type and its key-value attributes. -/
structure Event where
  /-- The event type, e.g. "block_gas". -/
  type : String
  /-- The attributes, in the order they were added. -/
  attributes : List (String × String)
  deriving DecidableEq, Repr

/-- Go's math.MaxUint64. -/
def MaxUint64 : Nat := 2 ^ 64 - 1

/-- big.Int.Bytes: the shortest big-endian encoding of the absolute value. -/
def bigBytes (x : Int) : Bytes := BigEndian.encodeMin x.natAbs

/-- new(big.Int).SetBytes: the non-negative value of a big-endian string. -/
def bigSetBytes (bz : Bytes) : Int := BigEndian.decode bz

/-- big.Int.Div, which panics on a zero divisor. -/
def bigDiv (x y : Int) : Except String Int :=
  if y = 0 then .error "division by zero" else .ok (x / y)

/-- big.Int.IsUint64. -/
def IsUint64 (x : Int) : Bool := 0 ≤ x && x ≤ MaxUint64

/-- sdk.Uint64ToBigEndian: the eight big-endian bytes of a uint64. -/
def Uint64ToBigEndian (i : UInt64) : Bytes := BigEndian.encodeFixed 8 i.toNat

/-- sdk.BigEndianToUint64: zero for an empty slice, else the first eight bytes (Go's
    binary.BigEndian.Uint64 panics on fewer). -/
def BigEndianToUint64 (bz : Bytes) : Except String UInt64 :=
  if bz.length = 0 then .ok 0
  else if bz.length < 8 then .error "index out of range"
  else .ok (UInt64.ofNat (BigEndian.decode (bz.take 8)))

@[simp] theorem bigSetBytes_bigBytes (x : Int) : bigSetBytes (bigBytes x) = x.natAbs := by
  simp [bigSetBytes, bigBytes]

/-- **Only zero has no bytes**: the encoding a reader cannot tell from an absent value. -/
@[simp] theorem bigBytes_eq_nil_iff (x : Int) : bigBytes x = [] ↔ x = 0 := by
  simp [bigBytes]

theorem bigDiv_of_ne_zero {x y : Int} (hy : y ≠ 0) : bigDiv x y = .ok (x / y) := by
  simp [bigDiv, hy]

theorem BigEndianToUint64_Uint64ToBigEndian (i : UInt64) :
    BigEndianToUint64 (Uint64ToBigEndian i) = .ok i := by
  have hlen : (Uint64ToBigEndian i).length = 8 := BigEndian.length_encodeFixed 8 i.toNat
  have htake : (Uint64ToBigEndian i).take 8 = Uint64ToBigEndian i := by
    rw [List.take_of_length_le (Nat.le_of_eq hlen)]
  have hval : BigEndian.decode (Uint64ToBigEndian i) = i.toNat :=
    BigEndian.decode_encodeFixed_of_lt i.toNat_lt
  simp only [BigEndianToUint64, hlen, htake, hval]
  simp

end AnconEvm
