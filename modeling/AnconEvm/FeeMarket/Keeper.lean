import AnconEvm.Sdk.Types
/-
  The fee market module (x/feemarket): its store, the EIP-1559 base fee of `CalculateBaseFee`,
  `EndBlock`, and the genesis import and export.

  The module keeps two values in its store, under one-byte keys: the gas the parent block used
  (eight big-endian bytes) and the base fee (the SHORTEST big-endian bytes of a `big.Int`).  At
  the end of every block `CalculateBaseFee` reads both back as the PARENT values of the next
  fee, and `EndBlock` stores the new fee and this block's gas.

  The recurrence is exact as long as the fee stays positive (`EndBlock_parent_reads`).  A fee
  of `0` is stored as NO bytes, which `GetBaseFee` reads as "unset", so the next block starts
  again from `InitialBaseFee`.  With a change denominator of at least two the EIP-1559 rule
  never takes a positive fee to `0` (`eip1559Update_pos`), and one EndBlock is one step of the
  rule (`EndBlock_eip1559Update`).
-/

namespace AnconEvm.FeeMarket

open KVStore

/-! ## Keys, parameters, state -/

/-- types.KeyPrefixBlockGasUsed. -/
def KeyPrefixBlockGasUsed : Bytes := [1]

/-- types.KeyPrefixBaseFee. -/
def KeyPrefixBaseFee : Bytes := [2]

theorem KeyPrefixBlockGasUsed_ne_KeyPrefixBaseFee : KeyPrefixBlockGasUsed ≠ KeyPrefixBaseFee := by
  decide

/-- The module parameters (types.Params); the int64 fields are `Int`, as only comparisons and
    conversions to `big.Int` read them. -/
structure Params where
  NoBaseFee : Bool
  BaseFeeChangeDenominator : UInt32
  ElasticityMultiplier : UInt32
  InitialBaseFee : Int
  EnableHeight : Int
  deriving DecidableEq, Repr

/-- What `EndBlock` reads of the block's sdk.Context. -/
structure BlockContext where
  BlockHeight : Int
  /-- ConsensusParams().Block.MaxGas; none when the consensus params are nil. -/
  MaxGas : Option Int
  /-- BlockGasMeter().GasConsumedToLimit(); none when the block gas meter is nil. -/
  GasConsumedToLimit : Option UInt64
  deriving DecidableEq, Repr

/-- The module's state: its KVStore and its parameter subspace. -/
structure State where
  store : KVStore
  params : Params

/-! ## The keeper's store accessors -/

/-- GetBlockGasUsed: the parent block's gas, zero when unset. -/
def GetBlockGasUsed (store : KVStore) : Except String UInt64 :=
  let bz := Get store KeyPrefixBlockGasUsed
  if bz.length = 0 then .ok 0 else BigEndianToUint64 bz

/-- SetBlockGasUsed. -/
def SetBlockGasUsed (gas : UInt64) (store : KVStore) : KVStore :=
  Set store KeyPrefixBlockGasUsed (Uint64ToBigEndian gas)

/-- GetBaseFee: the stored base fee, nil when the stored bytes are empty. -/
def GetBaseFee (store : KVStore) : Option Int :=
  let bz := Get store KeyPrefixBaseFee
  if bz.length = 0 then none else some (bigSetBytes bz)

/-- SetBaseFee: stores baseFee.Bytes(). -/
def SetBaseFee (baseFee : Int) (store : KVStore) : KVStore :=
  Set store KeyPrefixBaseFee (bigBytes baseFee)

/-- **The base fee read back**: the absolute value of what was stored, except that a stored `0`
    reads as unset. -/
theorem GetBaseFee_SetBaseFee (b : Int) (store : KVStore) :
    GetBaseFee (SetBaseFee b store) = if b = 0 then none else some (b.natAbs : Int) := by
  by_cases hb : b = 0
  · subst hb
    have h0 : bigBytes 0 = [] := (bigBytes_eq_nil_iff 0).mpr rfl
    simp [GetBaseFee, SetBaseFee, h0]
  · have hne : bigBytes b ≠ [] := fun h => hb ((bigBytes_eq_nil_iff b).mp h)
    simp [GetBaseFee, SetBaseFee, hb, hne]

theorem GetBaseFee_SetBaseFee_of_pos {b : Int} (hb : 0 < b) (store : KVStore) :
    GetBaseFee (SetBaseFee b store) = some b := by
  rw [GetBaseFee_SetBaseFee, if_neg (by omega)]
  congr 1
  omega

theorem GetBlockGasUsed_SetBlockGasUsed (gas : UInt64) (store : KVStore) :
    GetBlockGasUsed (SetBlockGasUsed gas store) = .ok gas := by
  have hlen : (Uint64ToBigEndian gas).length = 8 := BigEndian.length_encodeFixed 8 gas.toNat
  simp only [GetBlockGasUsed, SetBlockGasUsed, Get_Set_self, hlen]
  exact BigEndianToUint64_Uint64ToBigEndian gas

/-- Writing the gas used leaves the base fee alone. -/
@[simp] theorem GetBaseFee_SetBlockGasUsed (gas : UInt64) (store : KVStore) :
    GetBaseFee (SetBlockGasUsed gas store) = GetBaseFee store := by
  simp only [GetBaseFee, SetBlockGasUsed, Get_Set_of_ne _ _ KeyPrefixBlockGasUsed_ne_KeyPrefixBaseFee]

/-- Writing the base fee leaves the gas used alone. -/
@[simp] theorem GetBlockGasUsed_SetBaseFee (b : Int) (store : KVStore) :
    GetBlockGasUsed (SetBaseFee b store) = GetBlockGasUsed store := by
  simp only [GetBlockGasUsed, SetBaseFee,
    Get_Set_of_ne _ _ KeyPrefixBlockGasUsed_ne_KeyPrefixBaseFee.symm]

/-! ## EIP-1559 base fee -/

/-- The base fee `CalculateBaseFee` takes for the parent block: the stored one, or the initial
    one when the store has none. -/
def parentBaseFee (params : Params) (store : KVStore) : Int :=
  (GetBaseFee store).getD params.InitialBaseFee

/-- The block gas limit: the consensus MaxGas when it is set (> -1), else math.MaxUint64. -/
def gasLimit (ctx : BlockContext) : Int :=
  match ctx.MaxGas with
  | some maxGas => if maxGas > -1 then maxGas else MaxUint64
  | none => MaxUint64

/-- CalculateBaseFee: none when NoBaseFee is set, the initial fee up to EnableHeight, and from
    then on the EIP-1559 update of the parent fee by the parent's distance to its gas target. -/
def CalculateBaseFee (params : Params) (ctx : BlockContext) (store : KVStore) :
    Except String (Option Int) := do
  if params.NoBaseFee then return none
  if ctx.BlockHeight ≤ params.EnableHeight then return some params.InitialBaseFee
  let parentGasUsed ← GetBlockGasUsed store
  let parentGasTargetBig ← bigDiv (gasLimit ctx) params.ElasticityMultiplier.toNat
  if !IsUint64 parentGasTargetBig then return some params.InitialBaseFee
  let parentGasTarget := parentGasTargetBig.toNat
  let baseFeeChangeDenominator : Int := params.BaseFeeChangeDenominator.toNat
  if parentGasUsed.toNat = parentGasTarget then return some (parentBaseFee params store)
  if parentGasUsed.toNat > parentGasTarget then
    -- above the target the fee rises, by at least one
    let gasUsedDelta : Int := (parentGasUsed.toNat - parentGasTarget : Nat)
    let y ← bigDiv (parentBaseFee params store * gasUsedDelta) parentGasTargetBig
    let baseFeeDelta ← bigDiv y baseFeeChangeDenominator
    return some (parentBaseFee params store + max baseFeeDelta 1)
  -- below the target it falls, never under zero
  let gasUsedDelta : Int := (parentGasTarget - parentGasUsed.toNat : Nat)
  let y ← bigDiv (parentBaseFee params store * gasUsedDelta) parentGasTargetBig
  let baseFeeDelta ← bigDiv y baseFeeChangeDenominator
  return some (max (parentBaseFee params store - baseFeeDelta) 0)

/-- **What the fee computation reads of the store**: the parent fee and the parent gas, nothing
    else. -/
theorem CalculateBaseFee_congr {params : Params} {ctx : BlockContext} {store store' : KVStore}
    (hfee : parentBaseFee params store = parentBaseFee params store')
    (hgas : GetBlockGasUsed store = GetBlockGasUsed store') :
    CalculateBaseFee params ctx store = CalculateBaseFee params ctx store' := by
  simp only [CalculateBaseFee, hfee, hgas]

/-- A stored base fee is never negative: it is the value of its bytes. -/
theorem GetBaseFee_nonneg {store : KVStore} {f : Int} (h : GetBaseFee store = some f) : 0 ≤ f := by
  unfold GetBaseFee at h
  dsimp only at h
  split at h
  · cases h
  · cases h
    exact Int.natCast_nonneg _

theorem parentBaseFee_nonneg {params : Params} (store : KVStore) (hinit : 0 ≤ params.InitialBaseFee) :
    0 ≤ parentBaseFee params store := by
  unfold parentBaseFee
  cases hget : GetBaseFee store with
  | none => exact hinit
  | some f => exact GetBaseFee_nonneg hget

/-- With a non-negative initial fee every computed fee is non-negative: the rise adds to the
    parent fee and the fall stops at zero. -/
theorem CalculateBaseFee_nonneg {params : Params} {ctx : BlockContext} {store : KVStore}
    {b : Int} (hinit : 0 ≤ params.InitialBaseFee)
    (h : CalculateBaseFee params ctx store = .ok (some b)) : 0 ≤ b := by
  have hparent := parentBaseFee_nonneg store hinit
  unfold CalculateBaseFee at h
  split at h
  · cases h
  split at h
  · cases h
    exact hinit
  obtain ⟨g, -, h⟩ := Except.bind_eq_ok h
  obtain ⟨t, -, h⟩ := Except.bind_eq_ok h
  split at h
  · -- the gas target overflows a uint64: the initial fee
    cases h
    exact hinit
  dsimp only at h
  split at h
  · -- exactly at the target: the parent fee
    cases h
    exact hparent
  split at h
  · -- above the target: the parent fee plus at least one
    obtain ⟨y, -, h⟩ := Except.bind_eq_ok h
    obtain ⟨d, -, h⟩ := Except.bind_eq_ok h
    cases h
    omega
  · -- below the target: the fall, cut at zero
    obtain ⟨y, -, h⟩ := Except.bind_eq_ok h
    obtain ⟨d, -, h⟩ := Except.bind_eq_ok h
    cases h
    omega

/-- The EIP-1559 rule the fee follows: a parent fee `b`, its gas `u` against the target `t`, and
    the change denominator `d`.  A statement of the rule, not a translation of the code. -/
def eip1559Update (b t u d : Int) : Int :=
  if u = t then b
  else if u > t then b + max (b * (u - t) / t / d) 1
  else max (b - b * (t - u) / t / d) 0

/-- With a positive target that fits a uint64 and a non-zero denominator, the fee after the
    enable height is the EIP-1559 rule applied to the parent fee and gas. -/
theorem CalculateBaseFee_eq_eip1559Update {params : Params} {ctx : BlockContext}
    {store : KVStore} {u : UInt64} (hnofee : params.NoBaseFee = false)
    (hheight : params.EnableHeight < ctx.BlockHeight) (hgas : GetBlockGasUsed store = .ok u)
    (htarget : 0 < gasLimit ctx / params.ElasticityMultiplier.toNat)
    (hfit : gasLimit ctx / params.ElasticityMultiplier.toNat ≤ MaxUint64)
    (hd : params.BaseFeeChangeDenominator ≠ 0) :
    CalculateBaseFee params ctx store = .ok (some (eip1559Update (parentBaseFee params store)
      (gasLimit ctx / params.ElasticityMultiplier.toNat) u.toNat
      params.BaseFeeChangeDenominator.toNat)) := by
  -- the divisor of the target is not zero, since `x / 0 = 0`
  have hem : (params.ElasticityMultiplier.toNat : Int) ≠ 0 := by
    intro h0
    rw [h0, Int.ediv_zero] at htarget
    exact absurd htarget (lt_irrefl 0)
  have hd' : (params.BaseFeeChangeDenominator.toNat : Int) ≠ 0 := by
    have : params.BaseFeeChangeDenominator.toNat ≠ 0 := by
      intro h0
      exact hd (UInt32.toNat_inj.mp h0)
    exact_mod_cast this
  have hheight' : ¬ ctx.BlockHeight ≤ params.EnableHeight := by omega
  simp only [CalculateBaseFee, hnofee, hheight', hgas, bigDiv_of_ne_zero hem, Except.ok_bind,
    Bool.false_eq_true, if_false]
  generalize gasLimit ctx / params.ElasticityMultiplier.toNat = t at htarget hfit ⊢
  have ht : t ≠ 0 := by omega
  have huint : IsUint64 t = true := by
    simp only [IsUint64, Bool.and_eq_true, decide_eq_true_eq]
    omega
  simp only [huint, Bool.not_true, Bool.false_eq_true, if_false, bigDiv_of_ne_zero ht,
    bigDiv_of_ne_zero hd', Except.ok_bind, eip1559Update]
  -- the code compares and subtracts the gas as naturals, the rule as integers
  obtain ⟨n, rfl⟩ := Int.eq_ofNat_of_zero_le (le_of_lt htarget)
  simp only [Int.toNat_natCast, Nat.cast_inj, gt_iff_lt, Nat.cast_lt]
  by_cases heq : u.toNat = n
  · simp only [heq, if_true]
    rfl
  by_cases hgt : n < u.toNat
  · have hsub : ((u.toNat - n : Nat) : Int) = u.toNat - n := by omega
    simp only [heq, hgt, hsub, if_true, if_false]
    rfl
  · have hsub : ((n - u.toNat : Nat) : Int) = n - u.toNat := by omega
    simp only [heq, hgt, hsub, if_false]
    rfl

/-! ## EndBlock -/

/-- EndBlock: stores the computed base fee and this block's gas, and emits a "block_gas" event.
    With NoBaseFee it does nothing; without a block gas meter it logs an error after storing the
    fee. -/
def EndBlock (ctx : BlockContext) (s : State) : Except String (State × List Event) := do
  let some baseFee ← CalculateBaseFee s.params ctx s.store | return (s, [])
  let s := { s with store := SetBaseFee baseFee s.store }
  match ctx.GasConsumedToLimit with
  | none => return (s, [])
  | some gasUsed =>
    return ({ s with store := SetBlockGasUsed gasUsed s.store },
      [⟨"block_gas", [("height", toString ctx.BlockHeight), ("amount", toString gasUsed)]⟩])

/-- **EndBlock's writes**: with a computed fee and a block gas meter, the store gets the fee and
    the block's gas, and one event is emitted. -/
theorem EndBlock_of_fee {ctx : BlockContext} {s : State} {b : Int} {g : UInt64}
    (hfee : CalculateBaseFee s.params ctx s.store = .ok (some b))
    (hgas : ctx.GasConsumedToLimit = some g) :
    EndBlock ctx s = .ok (⟨SetBlockGasUsed g (SetBaseFee b s.store), s.params⟩,
      [⟨"block_gas", [("height", toString ctx.BlockHeight), ("amount", toString g)]⟩]) := by
  simp only [EndBlock, hfee, hgas]
  rfl

/-- **The recurrence across one block**: the next block reads as its parent fee the fee this
    block computed, except a fee of `0`, which reads back as the initial fee; and it reads this
    block's gas as the parent gas. -/
theorem EndBlock_parent_reads {ctx : BlockContext} {s s' : State} {evs : List Event} {b : Int}
    {g : UInt64} (hinit : 0 ≤ s.params.InitialBaseFee)
    (hfee : CalculateBaseFee s.params ctx s.store = .ok (some b))
    (hgas : ctx.GasConsumedToLimit = some g) (h : EndBlock ctx s = .ok (s', evs)) :
    parentBaseFee s'.params s'.store = (if b = 0 then s.params.InitialBaseFee else b) ∧
      GetBlockGasUsed s'.store = .ok g := by
  rw [EndBlock_of_fee hfee hgas] at h
  cases h
  have hb : 0 ≤ b := CalculateBaseFee_nonneg hinit hfee
  constructor
  · show (GetBaseFee (SetBlockGasUsed g (SetBaseFee b s.store))).getD _ = _
    rw [GetBaseFee_SetBlockGasUsed, GetBaseFee_SetBaseFee]
    by_cases h0 : b = 0
    · simp [h0]
    · simp only [h0, if_false, Option.getD_some]
      omega
  · exact GetBlockGasUsed_SetBlockGasUsed g _

theorem EndBlock_parent_reads_above_target :
    let s₀ : State := ⟨SetBlockGasUsed 6000000 ∅, ⟨false, 8, 2, 1000000000, 0⟩⟩
    let block : BlockContext := ⟨2, some 10000000, some 7000000⟩
    ∃ s₁ evs, EndBlock block s₀ = .ok (s₁, evs) ∧
      parentBaseFee s₁.params s₁.store = 1025000000 ∧ GetBlockGasUsed s₁.store = .ok 7000000 := by
  intro s₀ block
  -- the parent used 6000000 of its target 5000000: the fee rises by an eighth of a fifth
  have hfee : CalculateBaseFee s₀.params block s₀.store = .ok (some 1025000000) := by decide
  obtain ⟨s₁, evs, h⟩ : ∃ s₁ evs, EndBlock block s₀ = .ok (s₁, evs) := ⟨_, _, EndBlock_of_fee hfee rfl⟩
  exact ⟨s₁, evs, h, EndBlock_parent_reads (by decide) hfee rfl h⟩

/-! ## The rule over a chain -/

/-- The EIP-1559 rule over a chain of blocks: from the parent's fee and gas, each block's fee
    from its gas target and its parent's gas, and the block's gas is the next block's parent gas.
    A statement of the rule, not a translation of the code. -/
def eip1559Run (d : Int) : Int × Int → List (Int × Int) → Int × Int
  | parent, [] => parent
  | (fee, gas), (target, gasUsed) :: blocks =>
    eip1559Run d (eip1559Update fee target gas d, gasUsed) blocks

/-- **The rule keeps a positive fee positive** when the change denominator is at least two: a
    fall is at most half the fee. -/
theorem eip1559Update_pos {b t u d : Int} (hb : 0 < b) (ht : 0 < t) (hu : 0 ≤ u) (hd : 2 ≤ d) :
    0 < eip1559Update b t u d := by
  unfold eip1559Update
  split_ifs with heq hgt
  · exact hb
  · have hrise := le_max_right (b * (u - t) / t / d) 1
    omega
  · -- below the target the fee falls by less than itself
    have hprod : b * (t - u) ≤ b * t := Int.mul_le_mul_of_nonneg_left (by omega) hb.le
    have hy : b * (t - u) / t ≤ b := Int.ediv_le_of_le_mul ht hprod
    have hbd : b * 2 ≤ b * d := Int.mul_le_mul_of_nonneg_left hd hb.le
    have hdelta : b * (t - u) / t / d < b := Int.ediv_lt_of_lt_mul (by omega) (by omega)
    have hfall := le_max_left (b - b * (t - u) / t / d) 0
    omega

/-- **One EndBlock is one step of the rule.**  Past the enable height, with a block gas meter, a
    positive gas target that fits a uint64, a change denominator of at least two and a positive
    parent fee, the next block reads the rule's fee as its parent fee and this block's gas as its
    parent gas; the parameters stay. -/
theorem EndBlock_eip1559Update {ctx : BlockContext} {s s' : State} {evs : List Event}
    {g g' : UInt64} (hnofee : s.params.NoBaseFee = false)
    (hheight : s.params.EnableHeight < ctx.BlockHeight) (hgas : GetBlockGasUsed s.store = .ok g)
    (htarget : 0 < gasLimit ctx / s.params.ElasticityMultiplier.toNat)
    (hfit : gasLimit ctx / s.params.ElasticityMultiplier.toNat ≤ MaxUint64)
    (hd : 2 ≤ s.params.BaseFeeChangeDenominator.toNat) (hfee : 0 < parentBaseFee s.params s.store)
    (hmeter : ctx.GasConsumedToLimit = some g') (h : EndBlock ctx s = .ok (s', evs)) :
    s'.params = s.params ∧
      parentBaseFee s'.params s'.store = eip1559Update (parentBaseFee s.params s.store)
        (gasLimit ctx / s.params.ElasticityMultiplier.toNat) g.toNat
        s.params.BaseFeeChangeDenominator.toNat ∧
      GetBlockGasUsed s'.store = .ok g' := by
  have hd0 : s.params.BaseFeeChangeDenominator ≠ 0 := by
    intro h0
    rw [h0] at hd
    exact absurd hd (by decide)
  rw [EndBlock_of_fee (CalculateBaseFee_eq_eip1559Update hnofee hheight hgas htarget hfit hd0)
    hmeter] at h
  cases h
  -- the new fee is positive, so it does not read back as unset
  have hpos := eip1559Update_pos hfee htarget (Int.natCast_nonneg g.toNat)
    (show (2 : Int) ≤ s.params.BaseFeeChangeDenominator.toNat by exact_mod_cast hd)
  refine ⟨rfl, ?_, GetBlockGasUsed_SetBlockGasUsed g' _⟩
  show (GetBaseFee (SetBlockGasUsed g' (SetBaseFee _ s.store))).getD _ = _
  rw [GetBaseFee_SetBlockGasUsed, GetBaseFee_SetBaseFee_of_pos hpos]
  rfl

/-! ## Parameters and genesis -/

/-- The check of a non-negative int64 parameter. -/
def validateNonNegative (name : String) (value : Int) : Except String Unit :=
  if value < 0 then .error (name ++ " cannot be negative: " ++ toString value) else .ok ()

/-- validateBaseFeeChangeDenominator. -/
def validateBaseFeeChangeDenominator (value : UInt32) : Except String Unit :=
  if value = 0 then .error "base fee change denominator cannot be 0" else .ok ()

/-- validateInitialBaseFee. -/
def validateInitialBaseFee (value : Int) : Except String Unit :=
  validateNonNegative "initial base fee" value

/-- validateEnableHeight. -/
def validateEnableHeight (value : Int) : Except String Unit :=
  validateNonNegative "enable height" value

/-- Params.Validate: the checks of the parameter validators, in their order and with their
    messages (the bool and elasticity validators only check the Go type). -/
def Params.Validate (p : Params) : Except String Unit := do
  validateBaseFeeChangeDenominator p.BaseFeeChangeDenominator
  validateInitialBaseFee p.InitialBaseFee
  validateEnableHeight p.EnableHeight

/-- DefaultParams. -/
def DefaultParams : Params where
  NoBaseFee := true
  BaseFeeChangeDenominator := 8
  ElasticityMultiplier := 2
  InitialBaseFee := 1000000000
  EnableHeight := 2 ^ 63 - 1

theorem validateNonNegative_eq_ok_iff (name : String) (value : Int) :
    validateNonNegative name value = .ok () ↔ 0 ≤ value := by
  unfold validateNonNegative
  split
  · constructor
    · intro h
      cases h
    · intro h
      omega
  · constructor
    · intro _
      omega
    · intro _
      rfl

theorem Params.Validate_eq_ok_iff (p : Params) :
    p.Validate = .ok () ↔
      p.BaseFeeChangeDenominator ≠ 0 ∧ 0 ≤ p.InitialBaseFee ∧ 0 ≤ p.EnableHeight := by
  rw [← validateNonNegative_eq_ok_iff "initial base fee",
    ← validateNonNegative_eq_ok_iff "enable height"]
  unfold Params.Validate validateBaseFeeChangeDenominator validateInitialBaseFee
    validateEnableHeight
  by_cases hd : p.BaseFeeChangeDenominator = 0
  · simp [hd, bind, Except.bind]
  · cases validateNonNegative "initial base fee" p.InitialBaseFee <;>
      simp [hd, bind, Except.bind]

/-- The default parameters pass their own check. -/
theorem DefaultParams_Validate : DefaultParams.Validate = .ok () := by
  decide

/-- validateBool: only the Go type is checked, which the Lean type fixes. -/
def validateBool (_ : Bool) : Except String Unit := .ok ()

/-- validateElasticityMultiplier: only the Go type is checked, so `0` passes. -/
def validateElasticityMultiplier (_ : UInt32) : Except String Unit := .ok ()

/-- The validators of ParamSetPairs, in its order: what the parameter subspace runs on every
    value it sets. -/
def Params.ValidateParamSetPairs (p : Params) : Except String Unit := do
  validateBool p.NoBaseFee
  validateBaseFeeChangeDenominator p.BaseFeeChangeDenominator
  validateElasticityMultiplier p.ElasticityMultiplier
  validateInitialBaseFee p.InitialBaseFee
  validateEnableHeight p.EnableHeight

/-- The pair validators and Params.Validate accept the same parameters, with the same messages:
    neither looks at the elasticity multiplier. -/
theorem Params.ValidateParamSetPairs_eq_Validate (p : Params) :
    p.ValidateParamSetPairs = p.Validate := by
  simp only [Params.ValidateParamSetPairs, Params.Validate, validateBool,
    validateElasticityMultiplier, Except.ok_bind]

/-- After the enable height an elasticity multiplier of `0` makes the gas target a division by
    zero, which panics in Go. -/
theorem CalculateBaseFee_of_ElasticityMultiplier_zero {params : Params} {ctx : BlockContext}
    {store : KVStore} {u : UInt64} (hnofee : params.NoBaseFee = false)
    (hheight : params.EnableHeight < ctx.BlockHeight) (hgas : GetBlockGasUsed store = .ok u)
    (hem : params.ElasticityMultiplier = 0) :
    CalculateBaseFee params ctx store = .error "division by zero" := by
  have hheight' : ¬ ctx.BlockHeight ≤ params.EnableHeight := by omega
  simp only [CalculateBaseFee, hnofee, hheight', hgas, hem, Bool.false_eq_true, if_false,
    Except.ok_bind]
  rfl

/-- Parameters with ElasticityMultiplier = 0 pass Params.Validate and every pair validator, and
    the first block after the enable height panics in CalculateBaseFee, so in EndBlock.  With
    the default multiplier 2, a block whose MaxGas is 1 has target 0, and the block after one
    that used gas divides by it as well. -/
theorem CalculateBaseFee_zero_target_panics :
    let params : Params := ⟨false, 8, 0, 1000000000, 0⟩
    let block : BlockContext := ⟨1, some 10000000, some 0⟩
    params.Validate = .ok () ∧ params.ValidateParamSetPairs = .ok () ∧
      CalculateBaseFee params block ∅ = .error "division by zero" ∧
      EndBlock block ⟨∅, params⟩ = .error "division by zero" ∧
      CalculateBaseFee { params with ElasticityMultiplier := 2 } ⟨1, some 1, some 0⟩
        (SetBlockGasUsed 1 ∅) = .error "division by zero" := by
  exact ⟨by decide, by decide, rfl, rfl, rfl⟩

/-- types.GenesisState. -/
structure GenesisState where
  Params : Params
  BaseFee : Int
  BlockGas : UInt64
  deriving DecidableEq, Repr

/-- GenesisState.Validate. -/
def GenesisState.Validate (gs : GenesisState) : Except String Unit := do
  if gs.BaseFee < 0 then throw ("base fee cannot be negative: " ++ toString gs.BaseFee)
  gs.Params.Validate

/-- DefaultGenesisState. -/
def DefaultGenesisState : GenesisState := ⟨DefaultParams, 0, 0⟩

/-- SetParams: the parameter subspace checks every pair and panics on an invalid one. -/
def SetParams (params : Params) (s : State) : Except String State :=
  match params.Validate with
  | .error err => .error ("value from ParamSetPair is invalid: " ++ err)
  | .ok () => .ok { s with params }

/-- InitGenesis. -/
def InitGenesis (data : GenesisState) (s : State) : Except String State := do
  let s ← SetParams data.Params s
  return { s with store := SetBlockGasUsed data.BlockGas (SetBaseFee data.BaseFee s.store) }

/-- ExportGenesis: an unset base fee is exported as zero. -/
def ExportGenesis (s : State) : Except String GenesisState := do
  let blockGas ← GetBlockGasUsed s.store
  return ⟨s.params, (GetBaseFee s.store).getD 0, blockGas⟩

theorem GenesisState.Validate_eq_ok_iff (gs : GenesisState) :
    gs.Validate = .ok () ↔ 0 ≤ gs.BaseFee ∧ gs.Params.Validate = .ok () := by
  unfold GenesisState.Validate
  by_cases hneg : gs.BaseFee < 0
  · simp [hneg, bind, Except.bind, throw, throwThe, MonadExceptOf.throw]
  · have hnonneg : 0 ≤ gs.BaseFee := by omega
    simp [hneg, hnonneg]

theorem SetParams_of_Validate {params : Params} (s : State) (h : params.Validate = .ok ()) :
    SetParams params s = .ok { s with params } := by
  simp only [SetParams, h]

/-- **Genesis round trip**: a valid genesis state is exported as it was imported, a base fee of
    `0` included, since the export reads "unset" as zero. -/
theorem ExportGenesis_InitGenesis {gs : GenesisState} {s s' : State}
    (hvalid : gs.Validate = .ok ()) (h : InitGenesis gs s = .ok s') : ExportGenesis s' = .ok gs := by
  obtain ⟨hfee, hparams⟩ := (GenesisState.Validate_eq_ok_iff gs).mp hvalid
  simp only [InitGenesis, SetParams_of_Validate s hparams] at h
  cases h
  have hread : (GetBaseFee (SetBaseFee gs.BaseFee s.store)).getD 0 = gs.BaseFee := by
    rw [GetBaseFee_SetBaseFee]
    by_cases h0 : gs.BaseFee = 0
    · simp [h0]
    · simp only [h0, if_false, Option.getD_some]
      omega
  simp only [ExportGenesis, GetBlockGasUsed_SetBlockGasUsed, GetBaseFee_SetBlockGasUsed, hread]
  rfl

theorem ExportGenesis_InitGenesis_default :
    ∃ s', InitGenesis DefaultGenesisState ⟨∅, DefaultParams⟩ = .ok s' ∧
      ExportGenesis s' = .ok DefaultGenesisState :=
  ⟨_, rfl, ExportGenesis_InitGenesis (by decide) rfl⟩

/-- An empty block under BaseFeeChangeDenominator = 1 takes the fee from the initial 10⁹ to `0`;
    stored as no bytes, it is read back as unset, and the next block takes the initial fee, not
    `0`, as its parent fee. -/
theorem EndBlock_zero_baseFee_read_as_unset :
    let params : Params := ⟨false, 1, 2, 1000000000, 0⟩
    let block : BlockContext := ⟨2, some 10000000, some 0⟩
    ∃ s₀ s₁ evs, InitGenesis ⟨params, 1000000000, 0⟩ ⟨∅, DefaultParams⟩ = .ok s₀ ∧
      CalculateBaseFee params block s₀.store = .ok (some 0) ∧
      EndBlock block s₀ = .ok (s₁, evs) ∧
      GetBaseFee (SetBaseFee 0 s₀.store) = none ∧
      parentBaseFee s₁.params s₁.store = 1000000000 := by
  exact ⟨_, _, _, rfl, rfl, rfl, rfl, rfl⟩

end AnconEvm.FeeMarket
