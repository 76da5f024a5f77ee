import AnconEvm.Evm.StateTransition
/-
  The gas accounting of ApplyMessage (x/evm/keeper/state_transition.go): after the EVM returns
  its leftover gas `l`, the refund is the consumed gas `G - l` over the quotient 2, capped by the
  refund counter `r`; a query adds it to the leftover gas, a transaction pays it back through
  RefundGas.  Either way the gas used is `G - l - min(r, (G - l) / 2)`.

  All of it is uint64 arithmetic.  It is exact because the refund is at most half of the consumed
  gas: the leftover gas plus the refund stays at most the gas limit, so neither the addition nor
  the final subtraction wraps, and RefundGas's two consistency checks never fire.  The only error
  left is the fee collector's failure to pay the refund (ErrInsufficientFunds), and only outside a
  query.

  Steps:
    1. `GasToRefund_eq_ok`, `toNat_refund`: the refund, as a minimum of naturals.
    2. `toNat_add_refund`: the leftover gas plus the refund does not wrap and stays within `G`.
    3. `RefundGas_of_le`: RefundGas returns that leftover gas or the bank's error.
    4. `ApplyMessage_gas_accounting`: the gas used of both modes.
-/

namespace AnconEvm.Evm

/-- The keeper the EVM starts on in ApplyMessage: the access list prepared under Berlin. -/
def preparedKeeper (env : Env) (msg : Message) (k : Keeper) : Keeper :=
  if env.IsBerlin k.BlockHeight then
    k.PrepareAccessList msg.From msg.To (env.ActivePrecompiles k.BlockHeight) msg.AccessList
  else k

/-- The refund of `consumed` gas at quotient 2 under the counter `r`, as GasToRefund computes it. -/
def refundOf (consumed r : UInt64) : UInt64 := if consumed / 2 > r then r else consumed / 2

/-! ## The refund -/

theorem GasToRefund_eq_ok {k : Keeper} {r : UInt64} (hr : k.GetRefund = .ok r) (consumed : UInt64) :
    GasToRefund consumed 2 k = .ok (refundOf consumed r) := by
  unfold GasToRefund refundOf
  rw [hr]
  by_cases hlt : consumed / 2 > r
  · simp only [bind, Except.bind, hlt, if_true, pure, Except.pure]
  · simp only [bind, Except.bind, hlt, if_false, pure, Except.pure]

/-- The refund is the smaller of half the consumed gas and the counter. -/
theorem toNat_refund (consumed r : UInt64) :
    (refundOf consumed r).toNat = min (consumed.toNat / 2) r.toNat := by
  unfold refundOf
  have hdiv : (consumed / 2).toNat = consumed.toNat / 2 := UInt64.toNat_div consumed 2
  split
  · rename_i hlt
    rw [gt_iff_lt, UInt64.lt_iff_toNat_lt, hdiv] at hlt
    omega
  · rename_i hge
    rw [gt_iff_lt, UInt64.lt_iff_toNat_lt, hdiv] at hge
    omega

section Leftover

variable {G l r : UInt64} (hl : l ≤ G)
include hl

/-- **The leftover gas plus the refund does not wrap** and stays within the gas limit: the
    refund is at most half of the consumed gas `G - l`. -/
theorem toNat_add_refund :
    (l + refundOf (G - l) r).toNat = l.toNat + min ((G.toNat - l.toNat) / 2) r.toNat ∧
      (l + refundOf (G - l) r).toNat ≤ G.toNat := by
  have hle : l.toNat ≤ G.toNat := UInt64.le_iff_toNat_le.mp hl
  have hsub : (G - l).toNat = G.toNat - l.toNat := UInt64.toNat_sub_of_le G l hl
  have href := toNat_refund (G - l) r
  rw [hsub] at href
  have hG : G.toNat < 2 ^ 64 := UInt64.toNat_lt_size G
  have hsum : l.toNat + (refundOf (G - l) r).toNat < 2 ^ 64 := by omega
  rw [UInt64.toNat_add, Nat.mod_eq_of_lt hsum, href]
  omega

/-- The gas used after the refund, `G - (l + refund)`, in naturals. -/
theorem toNat_gasUsed :
    (G - (l + refundOf (G - l) r)).toNat =
      G.toNat - l.toNat - min r.toNat ((G.toNat - l.toNat) / 2) := by
  obtain ⟨hsum, hleG⟩ := toNat_add_refund (r := r) hl
  rw [UInt64.toNat_sub_of_le G _ (UInt64.le_iff_toNat_le.mpr hleG), hsum]
  omega

/-- A response's gas used is accounted for the gas limit `G`, the EVM's leftover gas `l` and the
    refund counter `r`: the leftover gas after the refund, `l + min((G - l) / 2, r)`,
    is exact and within `G`, and the gas used is `G` minus it, between the rounded-up half of the
    consumed gas and `G`. -/
structure GasAccounted (G l r : UInt64) (rsp : MsgEthereumTxResponse) : Prop where
  refunded : ∃ leftover : UInt64,
    leftover.toNat = l.toNat + min ((G.toNat - l.toNat) / 2) r.toNat ∧ leftover.toNat ≤ G.toNat ∧
      rsp.GasUsed = G - leftover
  gasUsed : rsp.GasUsed.toNat = G.toNat - l.toNat - min r.toNat ((G.toNat - l.toNat) / 2)
  half_le : (G.toNat - l.toNat + 1) / 2 ≤ rsp.GasUsed.toNat
  le_limit : rsp.GasUsed.toNat ≤ G.toNat

/-- A response whose gas used is `G` minus the leftover gas after the refund is accounted. -/
theorem gasAccounted_of_gasUsed {rsp : MsgEthereumTxResponse}
    (h : rsp.GasUsed = G - (l + refundOf (G - l) r)) : GasAccounted G l r rsp := by
  obtain ⟨hsum, hleG⟩ := toNat_add_refund (r := r) hl
  have hused : rsp.GasUsed.toNat = G.toNat - l.toNat - min r.toNat ((G.toNat - l.toNat) / 2) := by
    rw [h, toNat_gasUsed hl]
  refine ⟨⟨_, hsum, hleG, h⟩, hused, ?_, ?_⟩ <;> omega

end Leftover

/-! ## RefundGas -/

/-- **RefundGas takes neither consistency branch** for a leftover gas within the limit and a
    non-negative gas price: it returns the leftover gas plus the refund, or, when the fee
    collector cannot pay, ErrInsufficientFunds. -/
theorem RefundGas_of_le {msg : Message} {l r : UInt64} {k : Keeper} (hl : l ≤ msg.Gas)
    (hprice : 0 ≤ msg.GasPrice) (hr : k.GetRefund = .ok r) :
    ∃ res k', RefundGas msg l 2 k = .ok (res, k') ∧
      (res = .ok (l + refundOf (msg.Gas - l) r) ∨ ∃ pre, res = .error (pre ++ ": insufficient funds")) := by
  obtain ⟨-, hleG⟩ := toNat_add_refund (r := r) hl
  -- the two consistency checks and the sign check fail
  have hover : ¬ l > msg.Gas := fun h => absurd hl (UInt64.not_le.mpr h)
  have hover' : ¬ l + refundOf (msg.Gas - l) r > msg.Gas := by
    rw [gt_iff_lt, UInt64.lt_iff_toNat_lt]
    omega
  have hsign : ¬ ((l + refundOf (msg.Gas - l) r).toNat : Int) * msg.GasPrice < 0 :=
    not_lt.mpr (mul_nonneg (Int.natCast_nonneg _) hprice)
  unfold RefundGas
  simp only [hover, hover', hsign, if_false, GasToRefund_eq_ok hr, bind, Except.bind, pure,
    Except.pure]
  split
  · exact ⟨_, _, rfl, .inl rfl⟩
  · split
    · exact ⟨_, _, rfl, .inr ⟨_, rfl⟩⟩
    · exact ⟨_, _, rfl, .inl rfl⟩

/-! ## ApplyMessage -/

/-- **The gas accounting of ApplyMessage is exact in both modes**: for a gas price that is not
    negative, an intrinsic gas `I` within the limit, an EVM run that returns with leftover gas
    `l ≤ G - I`, and a refund counter `r`, every response is accounted (`GasAccounted`), a query
    always answers, and the only error of a transaction is the fee collector's failure to pay the
    refund (ErrInsufficientFunds): RefundGas's consistency and sign checks never fire. -/
theorem ApplyMessage_gas_accounting {env : Env} {coinbase : Address} {msg : Message} {query : Bool}
    {k : Keeper} {I : UInt64} {ops : List Op} {res : ExecResult} {k₁ : Keeper} {r : UInt64}
    (hprice : 0 ≤ msg.GasPrice) (hI : GetEthIntrinsicGas env msg msg.To.isNone k = .ok I)
    (hIG : I ≤ msg.Gas)
    (hexec : env.Execute coinbase msg (msg.Gas - I) (preparedKeeper env msg k) = (ops, res))
    (hl : res.LeftoverGas ≤ msg.Gas - I)
    (hrun : Op.run env.Keccak256 ops (preparedKeeper env msg k) = .ok k₁)
    (hr : k₁.GetRefund = .ok r) :
    ∃ result k', ApplyMessage env coinbase msg query k = .ok (result, k') ∧
      (∀ rsp, result = .ok rsp → GasAccounted msg.Gas res.LeftoverGas r rsp) ∧
      (∀ e, result = .error e → query = false ∧ ∃ pre, e = pre ++ ": insufficient funds") := by
  have hnotlt : ¬ msg.Gas < I := UInt64.not_lt.mpr hIG
  have hlG : res.LeftoverGas ≤ msg.Gas := by
    rw [UInt64.le_iff_toNat_le] at hl hIG ⊢
    rw [UInt64.toNat_sub_of_le _ _ (UInt64.le_iff_toNat_le.mpr hIG)] at hl
    omega
  have hprep : (if env.IsBerlin k.BlockHeight = true then
      k.PrepareAccessList msg.From msg.To (env.ActivePrecompiles k.BlockHeight) msg.AccessList
    else k) = preparedKeeper env msg k := rfl
  unfold ApplyMessage
  rw [hI]
  simp only [hnotlt, if_false]
  rw [hprep]
  simp only [hexec, hrun, bind, Except.bind]
  cases query with
  | true =>
    -- a query adds the refund to the leftover gas and always answers
    simp only [if_true, GasToRefund_eq_ok hr, pure, Except.pure]
    refine ⟨_, _, rfl, fun rsp h => ?_, fun e h => by cases h⟩
    cases h
    exact gasAccounted_of_gasUsed hlG rfl
  | false =>
    -- a transaction pays the refund back through RefundGas
    obtain ⟨res', k₂, hrefund, hres'⟩ := RefundGas_of_le hlG hprice hr
    simp only [Bool.false_eq_true, if_false, hrefund]
    rcases hres' with rfl | ⟨pre, rfl⟩
    · refine ⟨_, _, rfl, fun rsp h => ?_, fun e h => by cases h⟩
      cases h
      exact gasAccounted_of_gasUsed hlG rfl
    · refine ⟨_, _, rfl, ?_, ?_⟩
      · intro rsp h
        cases h
      · intro e h
        cases h
        exact ⟨trivial, "failed to refund gas leftover gas to sender " ++ msg.From.Hex ++ ": " ++ pre,
          by simp only [String.append_assoc]⟩

/-- A call under the runs' go-ethereum, in both modes: the EVM leaves 70000 of the 79000 gas after
    the intrinsic gas and raises the refund counter to 4800, under half of the 30000 gas consumed.
    The query runs on a store with no fees; the transaction runs on one whose fee collector holds
    the 100000 fees it paid, and RefundGas pays the leftover gas back from them. -/
theorem ApplyMessage_gas_accounting_call :
    let msg : Message := ⟨runSender, some 0x2000, 0, 0, 100000, 1, [], []⟩
    (∃ result k', ApplyMessage runEnv 0 msg true (runKeeper (runStore 0) none TracerJSON) =
        .ok (result, k') ∧
      (∀ rsp, result = .ok rsp → GasAccounted msg.Gas 70000 4800 rsp) ∧
      (∀ e, result = .error e → true = false ∧ ∃ pre, e = pre ++ ": insufficient funds")) ∧
    ∃ rsp k', ApplyMessage runEnv 0 msg false (runKeeper (runStore 100000) none TracerJSON) =
        .ok (.ok rsp, k') ∧ GasAccounted msg.Gas 70000 4800 rsp := by
  intro msg
  -- the EVM's run on either store: the ops succeed and leave the refund counter at 4800
  have hrun : ∀ fees ∈ [0, 100000], ∃ k₁, Op.run runEnv.Keccak256
      (runEnv.Execute 0 msg (msg.Gas - 21000)
        (preparedKeeper runEnv msg (runKeeper (runStore fees) none TracerJSON))).1
      (preparedKeeper runEnv msg (runKeeper (runStore fees) none TracerJSON)) = .ok k₁ ∧
        k₁.GetRefund = .ok 4800 := by
    intro fees hfees
    have hcounter : (Op.run runEnv.Keccak256 (runEnv.Execute 0 msg (msg.Gas - 21000)
        (preparedKeeper runEnv msg (runKeeper (runStore fees) none TracerJSON))).1
        (preparedKeeper runEnv msg (runKeeper (runStore fees) none TracerJSON))).map
          Keeper.GetRefund = .ok (.ok 4800) := by
      simp only [List.mem_cons, List.not_mem_nil, or_false] at hfees
      rcases hfees with rfl | rfl <;> decide +kernel
    exact Except.map_eq_ok hcounter
  have hexec : ∀ k, runEnv.Execute 0 msg (msg.Gas - 21000) k =
      ((runEnv.Execute 0 msg (msg.Gas - 21000) k).1, ⟨[], 70000, none⟩) := fun _ =>
    Prod.ext rfl (by dsimp only [runEnv, msg]; decide)
  obtain ⟨k₁, hrun₁, hr₁⟩ := hrun 0 (by simp)
  obtain ⟨k₂, hrun₂, hr₂⟩ := hrun 100000 (by simp)
  refine ⟨ApplyMessage_gas_accounting (I := 21000) (by decide) rfl (by decide) (hexec _) (by decide)
    hrun₁ hr₁, ?_⟩
  have htx : ∃ result k', ApplyMessage runEnv 0 msg false (runKeeper (runStore 100000) none TracerJSON) =
        .ok (result, k') ∧ (∀ rsp, result = .ok rsp → GasAccounted msg.Gas 70000 4800 rsp) ∧
      (∀ e, result = .error e → false = false ∧ ∃ pre, e = pre ++ ": insufficient funds") :=
    ApplyMessage_gas_accounting (I := 21000) (by decide) rfl (by decide) (hexec _) (by decide) hrun₂ hr₂
  obtain ⟨result, k', happly, hrsp, -⟩ := htx
  -- the fee collector pays the refund: the transaction answers
  have hok : (ApplyMessage runEnv 0 msg false (runKeeper (runStore 100000) none TracerJSON)).map
      (fun r => r.1.toBool) = .ok true := by
    decide +kernel
  rw [happly] at hok
  cases result with
  | error e => cases hok
  | ok rsp => exact ⟨rsp, k', happly, hrsp rsp rfl⟩

end AnconEvm.Evm
