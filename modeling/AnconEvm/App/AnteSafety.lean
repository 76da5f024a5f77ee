import AnconEvm.App.Ante
/-
  What the Ethereum ante handler guarantees, over every transaction it accepts.

  The decorators' spec lemmas (`App/Ante.lean`) say what each step can do; chained along
  `EthAnteHandler_eq_ok` they give three properties of an accepted transaction, for any
  go-ethereum (`Env`), any Cosmos SDK (`CosmosEnv`) and any keeper state whose accounts are
  stored under their own addresses (`MultiStore.AccountsKeyed`, which x/auth maintains and the
  handler keeps):

  * the sender pays the fee, gas limit times gas price, to the fee collector, and no other
    balance and not the supply move (`EthAnteHandler_charges_fee`), so the handler keeps the
    accounts keyed and the supply the sum of the balances (`EthAnteHandler_valid`);
  * outside ReCheckTx, a call leaves its sender's sequence at the tx nonce plus one
    (`EthAnteHandler_call_increments_sequence`);
  * so the same call is refused on the state the handler left, whichever keeper shows it: the ante
    handler alone keeps a call from being replayed (`EthAnteHandler_call_replay_refused`).  A contract creation is left
    to the EVM's nonce bump and has no such guarantee from the handler.
-/

namespace AnconEvm.Ante

open Evm

private theorem uint64_add_one_ne (x : UInt64) : x + 1 ≠ x := by
  intro h
  have hnat := congrArg UInt64.toNat h
  rw [UInt64.toNat_add] at hnat
  simp at hnat
  omega

section

variable {env : Env} {cosmos : CosmosEnv} {mode : ExecMode} {tx : SdkTx} {k k' : Keeper}

/-- The sender's account the nonce check found, as the later steps see it: the account check
    runs first, and the nonce check reads the sender from the From field the signature check
    wrote. -/
theorem nonce_account_of_single {msgEthTx : MsgEthereumTx} {sender : Address} {k₁ : Keeper}
    (hmode : mode.IsReCheckTx = false)
    (h : EthNonceVerification mode [.ethereumTx { msgEthTx with From := sender.Hex }] k₁ = .ok ()) :
    ∃ acc, k₁.view.Account? sender = some acc ∧ msgEthTx.Data.Nonce = acc.sequence := by
  rcases EthNonceVerification_single.mp h with hre | ⟨acc, hacc, hnonce⟩
  · rw [hmode] at hre
    cases hre
  · rw [MsgEthereumTx.GetFrom_Hex, Option.bind_some] at hacc
    exact ⟨acc, hacc, hnonce⟩

/-- **The handler keeps the accounts keyed.** -/
theorem EthAnteHandler_keyed (hkeyed : k.view.AccountsKeyed)
    (h : EthAnteHandler env cosmos mode tx k = .ok k') : k'.view.AccountsKeyed := by
  obtain ⟨msgEthTx, sender, k₁, k₂, -, -, h₁, -, h₃, h₄⟩ := EthAnteHandler_eq_ok h
  have hkeyed₁ := (EthAccountVerification_eq_ok h₁).2.keyed hkeyed
  obtain ⟨_, -, -, -, htr⟩ := EthGasConsume_single hkeyed₁ h₃
  have hkeyed₂ := htr.keyed hkeyed₁
  rcases EthIncrementSenderSequence_single h₄ with ⟨-, rfl⟩ | ⟨-, sender', acc, -, -, -, hview⟩
  · exact hkeyed₂
  · -- the incremented account keeps its address
    rw [hview]
    exact MultiStore.accountsKeyed_set_account { acc with sequence := acc.sequence + 1 } hkeyed₂

/-- **The handler keeps the supply the sum of the balances**: it stores accounts and moves the
    fee, and creates and destroys no coin. -/
theorem EthAnteHandler_valid (hvalid : Bank.Valid k.view)
    (h : EthAnteHandler env cosmos mode tx k = .ok k') : Bank.Valid k'.view := by
  refine ⟨EthAnteHandler_keyed hvalid.keyed h, ?_⟩
  obtain ⟨msgEthTx, sender, k₁, k₂, -, -, h₁, -, h₃, h₄⟩ := EthAnteHandler_eq_ok h
  have hcoins₁ := (EthAccountVerification_eq_ok h₁).2
  obtain ⟨_, -, -, -, htr⟩ := EthGasConsume_single (hcoins₁.keyed hvalid.keyed) h₃
  have hconserved₂ := htr.conserved (hcoins₁.conserved hvalid.conserved)
  rcases EthIncrementSenderSequence_single h₄ with ⟨-, rfl⟩ | ⟨-, sender', acc, -, -, -, hview⟩
  · exact hconserved₂
  · -- the incremented account is no coin
    rw [hview]
    exact Bank.conserved_set_of_ne _ (fun _ => by simp) (by simp) hconserved₂

/-- The handler changes the keeper's context stack only, and pushes no context. -/
theorem EthAnteHandler_stackOnly (hkeyed : k.view.AccountsKeyed)
    (h : EthAnteHandler env cosmos mode tx k = .ok k') : k.StackOnly k' := by
  obtain ⟨msgEthTx, sender, k₁, k₂, -, -, h₁, -, h₃, h₄⟩ := EthAnteHandler_eq_ok h
  obtain ⟨hstack₁, hcoins₁⟩ := EthAccountVerification_eq_ok h₁
  obtain ⟨_, -, -, hstack₂, -⟩ := EthGasConsume_single (hcoins₁.keyed hkeyed) h₃
  rcases EthIncrementSenderSequence_single h₄ with ⟨-, rfl⟩ | ⟨-, -, -, -, -, hstack₃, -⟩
  · exact hstack₁.trans hstack₂
  · exact (hstack₁.trans hstack₂).trans hstack₃

/-- **An accepted Ethereum transaction pays its fee**: the recovered sender's balance goes down by
    gas limit times gas price, a positive amount, and the fee collector's goes up by as much; no
    other balance moves and the supply stays. -/
theorem EthAnteHandler_charges_fee (hkeyed : k.view.AccountsKeyed)
    (h : EthAnteHandler env cosmos mode tx k = .ok k') :
    ∃ msgEthTx sender, tx.Msgs = [.ethereumTx msgEthTx] ∧
      env.Sender k.BlockHeight msgEthTx.Data = .ok sender ∧ 0 < TxData.Fee msgEthTx.Data ∧
      (∀ addr, k'.view.Amount (.balance addr) +
          (if addr = sender then (TxData.Fee msgEthTx.Data).toNat else 0) =
        k.view.Amount (.balance addr) +
          (if addr = k.ModuleAddress FeeCollectorName then (TxData.Fee msgEthTx.Data).toNat else 0)) ∧
      k'.view.Amount .supply = k.view.Amount .supply := by
  obtain ⟨msgEthTx, sender, k₁, k₂, hmsgs, hsender, h₁, -, h₃, h₄⟩ := EthAnteHandler_eq_ok h
  obtain ⟨hstack₁, hcoins₁⟩ := EthAccountVerification_eq_ok h₁
  have hkeyed₁ := hcoins₁.keyed hkeyed
  obtain ⟨signerAcc, hacc, hfee, hstack₂, htr⟩ := EthGasConsume_single hkeyed₁ h₃
  -- the fee is paid from the sender's own account, at the sender's address
  rw [MsgEthereumTx.GetFrom_Hex, Option.bind_some] at hacc
  rw [hkeyed₁ _ _ hacc, hstack₁.ModuleAddress] at htr
  have htotal := htr.coinsKept_left hcoins₁
  -- the sequence increment writes an account only
  have hkeep : ∀ key, (∀ a, key ≠ MultiKey.account a) → k'.view.Amount key = k₂.view.Amount key := by
    intro key hkey
    rcases EthIncrementSenderSequence_single h₄ with ⟨-, rfl⟩ | ⟨-, sender', acc, -, -, -, hview⟩
    · rfl
    · rw [hview]
      exact MultiStore.Amount_smul_set_of_ne _ _ (Ne.symm (hkey _))
  refine ⟨msgEthTx, sender, hmsgs, hsender, hfee, fun addr => ?_, ?_⟩
  · rw [hkeep _ (fun _ => by simp)]
    exact htotal.balance addr
  · rw [hkeep _ (fun _ => by simp)]
    exact htotal.supply

/-- **An accepted call bumps its sender's sequence past the nonce**: outside ReCheckTx, the
    sender's account after the handler has the tx nonce plus one as its sequence. -/
theorem EthAnteHandler_call_increments_sequence (hmode : mode.IsReCheckTx = false)
    (hkeyed : k.view.AccountsKeyed) (hcall : ∀ msgEthTx, Msg.ethereumTx msgEthTx ∈ tx.Msgs →
      msgEthTx.Data.To ≠ none)
    (h : EthAnteHandler env cosmos mode tx k = .ok k') :
    ∃ msgEthTx sender acc, tx.Msgs = [.ethereumTx msgEthTx] ∧
      env.Sender k.BlockHeight msgEthTx.Data = .ok sender ∧
      k'.view.Account? sender = some acc ∧ acc.sequence = msgEthTx.Data.Nonce + 1 ∧ k.StackOnly k' := by
  obtain ⟨msgEthTx, sender, k₁, k₂, hmsgs, hsender, h₁, h₂, h₃, h₄⟩ := EthAnteHandler_eq_ok h
  obtain ⟨hstack₁, hcoins₁⟩ := EthAccountVerification_eq_ok h₁
  have hkeyed₁ := hcoins₁.keyed hkeyed
  obtain ⟨acc, hacc₁, hnonce⟩ := nonce_account_of_single hmode h₂
  obtain ⟨_, -, -, hstack₂, htr⟩ := EthGasConsume_single hkeyed₁ h₃
  -- the fee leaves the sender's account as it was
  have hacc₂ : k₂.view.Account? sender = some acc := htr.accounts _ _ hacc₁
  have hto : msgEthTx.Data.To ≠ none := hcall msgEthTx (by rw [hmsgs]; exact List.mem_singleton_self _)
  rcases EthIncrementSenderSequence_single h₄ with ⟨hcreate, -⟩ | ⟨-, sender', acc', hsender', hacc', hstack₃, hview⟩
  · exact absurd hcreate hto
  -- the increment recovers the same sender: the block height has not moved
  have hheight : k₂.BlockHeight = k.BlockHeight := (hstack₁.trans hstack₂).BlockHeight
  rw [hheight, hsender] at hsender'
  cases hsender'
  rw [hacc₂] at hacc'
  cases hacc'
  have haddr : acc.address = sender := htr.keyed hkeyed₁ _ _ hacc₂
  refine ⟨msgEthTx, sender, { acc with sequence := acc.sequence + 1 }, hmsgs, hsender, ?_,
    by rw [hnonce], (hstack₁.trans hstack₂).trans hstack₃⟩
  rw [hview, haddr, MultiStore.Account?_smul_set_account, if_pos rfl]

/-- **No replay of a call**: outside ReCheckTx, a call the ante handler accepted is refused when
    it comes again on the state the handler left, at the same height: on the handler's own
    result, or on a fresh context over the store it wrote back. -/
theorem EthAnteHandler_call_replay_refused (hmode : mode.IsReCheckTx = false)
    (hkeyed : k.view.AccountsKeyed) (hcall : ∀ msgEthTx, Msg.ethereumTx msgEthTx ∈ tx.Msgs →
      msgEthTx.Data.To ≠ none)
    (h : EthAnteHandler env cosmos mode tx k = .ok k') {k₀ : Keeper} (hview : k₀.view = k'.view)
    (hheight : k₀.BlockHeight = k.BlockHeight) :
    ∃ err, EthAnteHandler env cosmos mode tx k₀ = .error err := by
  obtain ⟨msgEthTx, sender, acc, hmsgs, hsender, hacc, hseq, -⟩ :=
    EthAnteHandler_call_increments_sequence hmode hkeyed hcall h
  cases hreplay : EthAnteHandler env cosmos mode tx k₀ with
  | error err => exact ⟨err, rfl⟩
  | ok k'' =>
    exfalso
    obtain ⟨msgEthTx₂, sender₂, k₁, -, hmsgs₂, hsender₂, h₁, h₂, -, -⟩ := EthAnteHandler_eq_ok hreplay
    rw [hmsgs, List.singleton_inj, Msg.ethereumTx.injEq] at hmsgs₂
    subst hmsgs₂
    rw [hheight, hsender] at hsender₂
    cases hsender₂
    -- the nonce check of the second run reads the sequence the first run left
    have hacc₀ : k₀.view.Account? sender = some acc := by rw [hview]; exact hacc
    have hacc₁ : k₁.view.Account? sender = some acc := (EthAccountVerification_eq_ok h₁).2.accounts _ _ hacc₀
    obtain ⟨acc', hacc', hnonce⟩ := nonce_account_of_single hmode h₂
    rw [hacc₁] at hacc'
    cases hacc'
    rw [hseq] at hnonce
    exact uint64_add_one_ne _ hnonce.symm

end

end AnconEvm.Ante
