import AnconEvm.Evm.StateDB
/-
  The EVM module's genesis (x/evm/genesis.go, types/genesis.go, types/storage.go): the export of
  every EthAccount with its code and storage, and the validation a genesis file must pass.

  Storage is exported as hex strings, one `State` per slot, and `State.Validate` refuses a key
  that parses to the zero hash.  The export writes every slot the store holds, so it writes slot
  0 whenever a contract has set it: the export of such a state is refused by its own validation.

  The module parameters are validated by the chain config's and the denomination's checks,
  which are the parameter `ParamsValidate` here; the accounts are checked before them.
-/

namespace AnconEvm.Evm

/-- types.GenesisAccount. -/
structure GenesisAccount where
  Address : String
  Code : String
  Storage : List State
  deriving DecidableEq, Repr

/-- types.GenesisState. -/
structure GenesisState where
  Accounts : List GenesisAccount
  Params : Params
  deriving DecidableEq, Repr

/-- ethermint.ValidateAddress. -/
def ValidateAddress (address : String) : Except String Unit :=
  if IsHexAddress address then .ok ()
  else .error ("address \x27" ++ address ++ "\x27 is not a valid ethereum hex address: invalid address")

/-- GenesisAccount.Validate. -/
def GenesisAccount.Validate (ga : GenesisAccount) : Except String Unit := do
  ValidateAddress ga.Address
  Storage.Validate ga.Storage

/-- The loop of GenesisState.Validate over the accounts, with the addresses seen so far. -/
def GenesisState.validateAccounts : List GenesisAccount → List String → Except String Unit
  | [], _ => .ok ()
  | acc :: rest, seen =>
    if seen.contains acc.Address then .error ("duplicated genesis account " ++ acc.Address)
    else
      match acc.Validate with
      | .error err => .error ("invalid genesis account " ++ acc.Address ++ ": " ++ err)
      | .ok () => GenesisState.validateAccounts rest (acc.Address :: seen)

/-- GenesisState.Validate: the accounts, then the parameters. -/
def GenesisState.Validate (ParamsValidate : Evm.Params → Except String Unit) (gs : GenesisState) :
    Except String Unit := do
  GenesisState.validateAccounts gs.Accounts []
  ParamsValidate gs.Params

/-- A genesis state whose accounts are invalid is refused before its parameters are read. -/
theorem GenesisState.Validate_of_validateAccounts {ParamsValidate : Evm.Params → Except String Unit}
    {gs : GenesisState} {err : String} (h : GenesisState.validateAccounts gs.Accounts [] = .error err) :
    gs.Validate ParamsValidate = .error err := by
  simp only [GenesisState.Validate, h]
  rfl

/-- The accounts of the account store, in address order (AccountKeeper.IterateAccounts). -/
def Accounts (s : MultiStore) : List Account :=
  s.toList.filterMap fun e =>
    match e.1, e.2 with
    | .account _, .account acc => some acc
    | _, _ => none

/-- ExportGenesis: every EthAccount with its code and storage, and the parameters; a storage
    error panics. -/
def ExportGenesis (ctx : Context MultiStore Event) (k : Keeper) : Except String GenesisState := do
  let k := k.WithContext ctx
  let accounts ← (Accounts ctx.store).filterMapM fun account =>
    match account.type with
    | .eth _ => do
      let addr := account.address
      let storage ← k.GetAccountStorage addr
      return some ⟨addr.Hex, Bytes2Hex (k.GetCode addr), storage⟩
    | _ => return none
  return ⟨accounts, k.params⟩
/-- common.Hex2Bytes: hex.DecodeString with its error dropped. -/
def Hex2Bytes (str : String) : Bytes := hexDecode str.toList

/-- The Go type of an account, as `%T` prints it. -/
def AccountType.goType : AccountType → String
  | .base => "*types.BaseAccount"
  | .module _ => "*types.ModuleAccount"
  | .eth _ => "*types.EthAccount"

/-- The body of InitGenesis's loop for one account: the account store must hold an EthAccount
    at its address; its code is written, then its storage slots in order. -/
def initAccount (Keccak256 : Bytes → Hash) (k : Keeper) (account : GenesisAccount) :
    Except String Keeper :=
  let address := HexToAddress account.Address
  match k.view.Account? address with
  | none => .error ("account not found for address " ++ account.Address)
  | some acc =>
    match acc.type with
    | .eth _ =>
      let k := k.SetCode Keccak256 address (Hex2Bytes account.Code)
      .ok (account.Storage.foldl
        (fun k storage => k.SetState address (HexToHash storage.Key) (HexToHash storage.Value)) k)
    | t => .error ("account " ++ account.Address ++ " must be an *types.EthAccount type, got " ++ AccountType.goType t)

/-- InitGenesis: the parameters, then every account in order.  (The chain id is not modelled,
    and the EVM module account is always registered.) -/
def InitGenesis (Keccak256 : Bytes → Hash) (ctx : Context MultiStore Event) (k : Keeper)
    (data : GenesisState) : Except String Keeper :=
  data.Accounts.foldlM (initAccount Keccak256) { k.WithContext ctx with params := data.Params }

/-- A contract account that sets slot 0 to 1: the export of the committed state lists the slot
    under the key "0x00…0", and the validation refuses it, whatever the parameters. -/
theorem ExportGenesis_zero_slot_invalid (ParamsValidate : Params → Except String Unit) :
    let k : Keeper :=
      ⟨⟨⟨∅, []⟩, []⟩, ⟨"aphoton", true, true, []⟩, 1, [], "json", false, none, none, fun _ => 99⟩
    ∃ k' gs, Op.run (fun _ => 0) [.CreateAccount 7, .SetState 7 0 1] k = .ok k' ∧
      ExportGenesis k'.CommitCachedContexts.ctxStack.initialCtx k' = .ok gs ∧
      gs.Validate ParamsValidate =
        .error ("invalid genesis account 0x0000000000000000000000000000000000000007: " ++
          "state key hash cannot be empty: invalid storage state") := by
  intro k
  have hrun : ((Op.run (fun _ => 0) [.CreateAccount 7, .SetState 7 0 1] k).bind fun k' =>
      (ExportGenesis k'.CommitCachedContexts.ctxStack.initialCtx k').map fun gs =>
        GenesisState.validateAccounts gs.Accounts []) =
      .ok (.error ("invalid genesis account 0x0000000000000000000000000000000000000007: " ++
          "state key hash cannot be empty: invalid storage state")) := by
    decide +kernel
  obtain ⟨k', hk', hexp⟩ := Except.bind_eq_ok hrun
  cases hgs : ExportGenesis k'.CommitCachedContexts.ctxStack.initialCtx k' with
  | error e =>
    rw [hgs] at hexp
    cases hexp
  | ok gs =>
    rw [hgs] at hexp
    have hval := Except.ok.inj hexp
    exact ⟨k', gs, hk', hgs, GenesisState.Validate_of_validateAccounts hval⟩

/-- A genesis state whose accounts pass their checks is accepted exactly when its parameters
    are. -/
theorem GenesisState.Validate_of_validateAccounts_ok {ParamsValidate : Evm.Params → Except String Unit}
    {gs : GenesisState} (h : GenesisState.validateAccounts gs.Accounts [] = .ok ()) :
    gs.Validate ParamsValidate = ParamsValidate gs.Params := by
  simp only [GenesisState.Validate, h]
  rfl

/-- One account spelt twice, "0x…07" and "…07", with the slot key spelt "0x01" and "0x1": the
    validation compares the strings and accepts the state, while InitGenesis parses them to one
    address and one key, so the second value of the slot replaces the first, and the second
    account's empty code replaces the first one's code. -/
theorem InitGenesis_overwrites_accepted_entries (ParamsValidate : Params → Except String Unit) :
    let gs : GenesisState :=
      ⟨[⟨"0x0000000000000000000000000000000000000007", "6001", [⟨"0x01", "0x05"⟩, ⟨"0x1", "0x06"⟩]⟩,
        ⟨"0000000000000000000000000000000000000007", "", []⟩], ⟨"aphoton", true, true, []⟩⟩
    let ctx : Context MultiStore Event :=
      ⟨(∅ : MultiStore).insert (.account 7) (.account ⟨7, 0, .eth EmptyCodeHash.Hex⟩), []⟩
    let k : Keeper :=
      ⟨⟨⟨∅, []⟩, []⟩, ⟨"aphoton", true, true, []⟩, 1, [], "json", false, none, none, fun _ => 99⟩
    let Keccak256 : Bytes → Hash := fun bz => if bz = [] then EmptyCodeHash else 1
    gs.Validate ParamsValidate = ParamsValidate gs.Params ∧
      HexToHash "0x01" = HexToHash "0x1" ∧
      HexToAddress "0x0000000000000000000000000000000000000007" =
        HexToAddress "0000000000000000000000000000000000000007" ∧
      ∃ k', InitGenesis Keccak256 ctx k gs = .ok k' ∧ k'.GetState 7 1 = 6 ∧ k'.GetCode 7 = [] := by
  intro gs ctx k Keccak256
  have hvalid : GenesisState.validateAccounts gs.Accounts [] = .ok () := by decide +kernel
  have hinit : (InitGenesis Keccak256 ctx k gs).map (fun k' => (k'.GetState 7 1, k'.GetCode 7)) =
      .ok (6, []) := by
    decide +kernel
  cases hk' : InitGenesis Keccak256 ctx k gs with
  | error e =>
    rw [hk'] at hinit
    cases hinit
  | ok k' =>
    rw [hk'] at hinit
    have hread := Except.ok.inj hinit
    refine ⟨GenesisState.Validate_of_validateAccounts_ok hvalid, by decide +kernel, by decide +kernel,
      k', rfl, (Prod.mk.inj hread).1, (Prod.mk.inj hread).2⟩

end AnconEvm.Evm
