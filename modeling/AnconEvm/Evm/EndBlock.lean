import AnconEvm.Evm.BlockBloom
import AnconEvm.Rpc.Filters
/-
  The block bloom from the end of a block to JSON-RPC: the EVM module's EndBlock
  (x/evm/keeper/abci.go, with EmitBlockBloomEvent of x/evm/keeper/keeper.go) and the backend's
  BlockBloom (ethereum/rpc/backend/backend.go), which reads it back from the block results.

  During a block each transaction ORs the bloom of its logs into one integer, kept under the
  block height in the transient store (`Evm/BlockBloom.lean`).  EndBlock writes the integer's
  bytes right-aligned into a 256-byte ethtypes.Bloom and emits them as the "bloom" attribute of a
  "block_bloom" event; the backend takes the first such attribute among the block's end-block
  events and turns its bytes back into a Bloom.

  1. A bloom is its big-endian integer: the integer's shortest bytes, right-aligned, give the
     bloom back (`BytesToBloom_bigBytes`), and the OR of two blooms' integers is the integer of
     their bytewise merge (`decode_Bytes_or`).
  2. A Go string holds bytes, and gives them back (`goBytes_goString`).
  3. What EndBlock emits, BlockBloom reads back, whatever the other modules' end blockers emit
     around it as long as none emits a "block_bloom" event before it
     (`BlockBloom_EmitBlockBloomEvent`).
-/

namespace AnconEvm.Evm

open Filters

/-! ## A bloom as an integer -/

theorem length_Bloom_Bytes (b : Bloom) : (Bloom.Bytes b).length = 256 := List.length_ofFn

theorem decode_Bytes_lt (b : Bloom) : BigEndian.decode (Bloom.Bytes b) < 256 ^ 256 := by
  have hlt := BigEndian.decode_lt (Bloom.Bytes b)
  rwa [length_Bloom_Bytes] at hlt

/-- **The integer of a merge is the OR of the integers.** -/
theorem decode_Bytes_or (a b : Bloom) :
    BigEndian.decode (Bloom.Bytes (Bloom.or a b)) =
      BigEndian.decode (Bloom.Bytes a) ||| BigEndian.decode (Bloom.Bytes b) := by
  rw [Bloom.Bytes, Bloom.ofFn_or,
    BigEndian.decode_zipWith_or (by rw [List.length_ofFn, List.length_ofFn])]
  rfl

theorem decode_Bytes_empty : BigEndian.decode (Bloom.Bytes Bloom.empty) = 0 := by
  rw [Bloom.Bytes, Bloom.ofFn_empty, ← List.append_nil (List.replicate _ 0),
    BigEndian.decode_replicate_zero_append]
  rfl

/-- A bloom's own bytes give it back. -/
theorem BytesToBloom_Bytes (b : Bloom) : BytesToBloom (Bloom.Bytes b) = .ok b := by
  unfold BytesToBloom
  rw [length_Bloom_Bytes, if_neg (show ¬ 256 > BloomByteLength from Nat.lt_irrefl 256)]
  have hnopad : BloomByteLength - 256 = 0 := rfl
  rw [hnopad, List.replicate_zero, List.nil_append]
  exact congrArg Except.ok (funext fun i => Bloom.getD_ofFn b i)

/-- **The shortest bytes of a bloom's integer, right-aligned, give the bloom back**: the bytes
    EndBlock reads lose only leading zeros. -/
theorem BytesToBloom_bigBytes (b : Bloom) :
    BytesToBloom (bigBytes (BigEndian.decode (Bloom.Bytes b))) = .ok b := by
  have hlt := decode_Bytes_lt b
  -- the shortest encoding fits in 256 bytes, and padded it is the fixed-width one
  have hfixed : BigEndian.encodeFixed 256 (BigEndian.decode (Bloom.Bytes b)) = Bloom.Bytes b := by
    have hdecode := BigEndian.encodeFixed_decode (Bloom.Bytes b)
    rwa [length_Bloom_Bytes] at hdecode
  have hbig : bigBytes (BigEndian.decode (Bloom.Bytes b)) =
      BigEndian.encodeMin (BigEndian.decode (Bloom.Bytes b)) := by
    rw [bigBytes, Int.natAbs_natCast]
  unfold BytesToBloom
  have hfits : ¬ (BigEndian.encodeMin (BigEndian.decode (Bloom.Bytes b))).length > BloomByteLength :=
    Nat.not_lt.mpr (BigEndian.length_encodeMin_le hlt)
  rw [hbig, if_neg hfits]
  have hpad : BloomByteLength - (BigEndian.encodeMin (BigEndian.decode (Bloom.Bytes b))).length =
      256 - (BigEndian.encodeMin (BigEndian.decode (Bloom.Bytes b))).length := rfl
  rw [hpad, BigEndian.replicate_append_encodeMin hlt, hfixed]
  exact congrArg Except.ok (funext fun i => Bloom.getD_ofFn b i)

/-! ## Go strings -/

/-- Go's string(b).  A Go string is a run of bytes; here each character holds one byte. -/
def goString (b : Bytes) : String := String.ofList (b.map Char.ofUInt8)

/-- Go's []byte(s). -/
def goBytes (s : String) : Bytes := s.toList.map Char.toUInt8

@[simp] theorem goBytes_goString (b : Bytes) : goBytes (goString b) = b := by
  have hbyte : ∀ x : UInt8, (Char.ofUInt8 x).toUInt8 = x := by
    intro x
    simp [Char.ofUInt8, Char.toUInt8]
  simp [goBytes, goString, Function.comp_def, hbyte]

/-! ## EndBlock -/

/-- types.EventTypeBlockBloom. -/
def EventTypeBlockBloom : String := "block_bloom"

/-- types.AttributeKeyEthereumBloom. -/
def AttributeKeyEthereumBloom : String := "bloom"

/-- EmitBlockBloomEvent: the bloom's bytes as the "bloom" attribute of a "block_bloom" event. -/
def EmitBlockBloomEvent (bloom : Bloom) : Event :=
  ⟨EventTypeBlockBloom, [(AttributeKeyEthereumBloom, goString (Bloom.Bytes bloom))]⟩

namespace Keeper

/-- EndBlock: the block bloom of the transient store, as an ethtypes.Bloom, emitted into the
    block's context.  The infinite gas meter it runs under is left out. -/
def EndBlock (k : Keeper) : Except String Keeper := do
  let bloom ← BytesToBloom (bigBytes k.GetBlockBloomTransient)
  return { k with ctxStack := k.ctxStack.emit (EmitBlockBloomEvent bloom) }

/-- **EndBlock emits the bloom whose integer the transient store holds.** -/
theorem EndBlock_of_bloom {k : Keeper} {b : Bloom}
    (h : k.GetBlockBloomTransient = BigEndian.decode (Bloom.Bytes b)) :
    k.EndBlock = .ok { k with ctxStack := k.ctxStack.emit (EmitBlockBloomEvent b) } := by
  rw [EndBlock, h, BytesToBloom_bigBytes]
  rfl

/-- EndBlock on the block's context emits the bloom event into it and leaves the block state. -/
theorem EndBlock_WithContext {k : Keeper} {s : MultiStore} {b : Bloom}
    (h : blockBloomOf k.heightBz s = BigEndian.decode (Bloom.Bytes b)) :
    ∃ k', (k.WithContext ⟨s, []⟩).EndBlock = .ok k' ∧
      k'.ctxStack.initialCtx = ⟨s, [EmitBlockBloomEvent b]⟩ := by
  refine ⟨_, EndBlock_of_bloom ((GetBlockBloomTransient_eq _).trans h), ?_⟩
  simp [WithContext, ContextStack.Reset, ContextStack.emit]

end Keeper

/-! ## The backend reads the bloom back -/

namespace Rpc

/-- EVMBackend.BlockBloom: among the end-block events of the block results at a height, the
    first "bloom" attribute of a "block_bloom" event, as a bloom.  `BlockResults` is the
    Tendermint client's call, with its end-block events. -/
def BlockBloom (BlockResults : Int → Except String (List Event)) (height : Int) :
    Except String Bloom := do
  let endBlockEvents ← BlockResults height
  let bloomAttr := endBlockEvents.findSome? fun event =>
    if event.type ≠ EventTypeBlockBloom then none
    else event.attributes.find? fun attr => attr.1 = AttributeKeyEthereumBloom
  match bloomAttr with
  | some attr => BytesToBloom (goBytes attr.2)
  | none => .error "block bloom event is not found"

/-- **The backend reads back the bloom EndBlock emitted**, when no end blocker before the EVM
    module's emits a "block_bloom" event; what the later ones emit does not matter. -/
theorem BlockBloom_EmitBlockBloomEvent {BlockResults : Int → Except String (List Event)}
    {height : Int} {pre post : List Event} {b : Bloom}
    (hpre : ∀ e ∈ pre, e.type ≠ EventTypeBlockBloom)
    (hresults : BlockResults height = .ok (pre ++ EmitBlockBloomEvent b :: post)) :
    BlockBloom BlockResults height = .ok b := by
  -- the events before the EVM module's give no attribute
  have hnone : pre.findSome? (fun event =>
      if event.type ≠ EventTypeBlockBloom then none
      else event.attributes.find? fun attr => attr.1 = AttributeKeyEthereumBloom) = none := by
    rw [List.findSome?_eq_none_iff]
    intro e he
    rw [if_pos (hpre e he)]
  simp only [BlockBloom, hresults, Except.ok_bind, List.findSome?_append, hnone, Option.none_or,
    List.findSome?_cons]
  simp [EmitBlockBloomEvent, BytesToBloom_Bytes]

end Rpc

end AnconEvm.Evm
