import AnconEvm.Lib.AssocList
import AnconEvm.Evm.Genesis
import AnconEvm.Evm.Setters
/-
  The genesis round trip (x/evm/genesis.go): ExportGenesis writes every EthAccount's code and
  storage as hex strings, and InitGenesis, run on a store with the same accounts and an empty EVM
  store, gives every EthAccount back its code, its code hash and every storage slot.

  Three encodings have to line up.  The storage is listed by a prefix iterator over
  prefix ‖ address ‖ slot, and the slot is read back by `BytesToHash`, which keeps the last 32
  bytes: that recovers the slot only because every key under the storage prefix is a slot key
  (`SlotsShaped`).  The code goes through `Bytes2Hex` and `Hex2Bytes`, and InitGenesis stores it
  under the hash SetCode computes: that is the account's code hash only because every code hash
  is the hash of its code (`World.CodeHashed`).  Both hold of every state the StateDB calls
  go-ethereum makes can reach (`Op.run_evmInv`).

  1. On the world state: importing an account (its code, then its slots), and that a run of
     imports of distinct addresses leaves each one as the exported world has it
     (`World.agrees_importAll`).
  2. The export: the slots ForEachStorage lists write back the storage (`doGetState_eq_foldl`),
     and ExportGenesis lists each EthAccount once (`ExportGenesis_eq_ok`).
  3. The import: InitGenesis imports the accounts one after another (`foldlM_initAccount`).
  4. The round trip, for every state reachable by such calls.
-/

namespace AnconEvm.Evm

open Keeper

/-! ## Importing accounts into the world state -/

namespace World

/-- Import one account: its code, stored under the hash `K` gives it (none under the empty code
    hash), then its storage slots in order.  This is InitGenesis's loop body on the world state. -/
def importAccount (K : Bytes → Hash) (w : World) (addr : Address) (code : Bytes)
    (slots : List (Hash × Hash)) : World :=
  slots.foldl (fun w kv => w.setStorage addr kv.1 kv.2)
    (w.setCode addr (K code) (if K code = EmptyCodeHash then [] else code))

/-- Import accounts in order: an address, its code and its slots each. -/
def importAll (K : Bytes → Hash) (entries : List (Address × Bytes × List (Hash × Hash)))
    (w : World) : World :=
  entries.foldl (fun w e => w.importAccount K e.1 e.2.1 e.2.2) w

/-- The world `w` shows the account at `addr` as `ws` does: its code hash, the code under it, and
    its storage. -/
structure Agrees (ws w : World) (addr : Address) : Prop where
  codeHash : (w.account addr).codeHash = (ws.account addr).codeHash
  code : w.code (ws.account addr).codeHash = ws.codeOf addr
  storage : (w.account addr).storage = (ws.account addr).storage

theorem Agrees.codeOf {ws w : World} {addr : Address} (h : Agrees ws w addr) :
    w.codeOf addr = ws.codeOf addr := by
  rw [World.codeOf, h.codeHash, h.code]

/-- An entry's code as the world `ws` exports it: the account's code, which hashes to the
    account's code hash. -/
structure ExportsCode (K : Bytes → Hash) (ws : World) (e : Address × Bytes × List (Hash × Hash)) :
    Prop where
  codeHash : K e.2.1 = (ws.account e.1).codeHash
  code : (if K e.2.1 = EmptyCodeHash then [] else e.2.1) = ws.codeOf e.1

/-- An entry as the world `ws` exports it: its code, and slots that, written over the storage `w`
    has, give the account's storage. -/
structure Exports (K : Bytes → Hash) (ws w : World) (e : Address × Bytes × List (Hash × Hash)) :
    Prop extends ExportsCode K ws e where
  storage : (ws.account e.1).storage =
    e.2.2.foldl (fun f kv => Function.update f kv.1 kv.2) (w.account e.1).storage

variable {K : Bytes → Hash}

/-- Slot writes to one account change its storage only. -/
theorem foldl_setStorage (addr : Address) (slots : List (Hash × Hash)) (w : World) :
    slots.foldl (fun w kv => w.setStorage addr kv.1 kv.2) w =
      w.modify addr fun a =>
        { a with storage := slots.foldl (fun f kv => Function.update f kv.1 kv.2) a.storage } := by
  induction slots generalizing w with
  | nil => exact (modify_of_eq rfl).symm
  | cons kv slots ih =>
    rw [List.foldl_cons, ih, setStorage, modify_modify]
    exact modify_congr rfl

theorem account_setCode (addr a : Address) (hash : Hash) (code : Bytes) (w : World) :
    (w.setCode addr hash code).account a =
      if a = addr then { w.account addr with codeHash := hash } else w.account a := by
  show (w.modify addr fun acc => { acc with codeHash := hash }).account a = _
  rw [account_modify]

theorem code_importAccount (w : World) (addr : Address) (code : Bytes)
    (slots : List (Hash × Hash)) :
    (w.importAccount K addr code slots).code =
      Function.update w.code (K code) (if K code = EmptyCodeHash then [] else code) := by
  rw [importAccount, foldl_setStorage, code_modify]
  rfl

/-- An import changes the imported account only. -/
theorem account_importAccount_of_ne (w : World) {addr a : Address} (code : Bytes)
    (slots : List (Hash × Hash)) (ha : a ≠ addr) :
    (w.importAccount K addr code slots).account a = w.account a := by
  rw [importAccount, foldl_setStorage, account_modify, if_neg ha, account_setCode, if_neg ha]

/-- **An exported entry, imported, shows its account as the exported world does.** -/
theorem agrees_importAccount {ws w : World} {e : Address × Bytes × List (Hash × Hash)}
    (he : Exports K ws w e) : Agrees ws (w.importAccount K e.1 e.2.1 e.2.2) e.1 := by
  have hacc : (w.importAccount K e.1 e.2.1 e.2.2).account e.1 =
      { w.account e.1 with
        codeHash := K e.2.1
        storage := e.2.2.foldl (fun f kv => Function.update f kv.1 kv.2) (w.account e.1).storage } := by
    rw [importAccount, foldl_setStorage, account_modify, if_pos rfl, account_setCode, if_pos rfl]
  refine ⟨by rw [hacc, he.codeHash], ?_, by rw [hacc, he.storage]⟩
  rw [code_importAccount, ← he.codeHash, Function.update_self, he.code]

/-- **An import elsewhere keeps an account that agrees**: the code it stores under a shared hash
    is the exported world's code under that hash. -/
theorem Agrees.importAccount_of_ne {ws w : World} {a : Address} (h : Agrees ws w a)
    {e : Address × Bytes × List (Hash × Hash)} (he : ExportsCode K ws e) (ha : a ≠ e.1) :
    Agrees ws (w.importAccount K e.1 e.2.1 e.2.2) a := by
  refine ⟨?_, ?_, ?_⟩
  · rw [account_importAccount_of_ne w _ _ ha, h.codeHash]
  · rw [code_importAccount, Function.update_apply]
    split
    · -- the same code hash: the exported world has one code under it
      rename_i hhash
      rw [he.code, World.codeOf, ← he.codeHash, ← hhash]
      rfl
    · exact h.code
  · rw [account_importAccount_of_ne w _ _ ha, h.storage]

/-- An exported entry stays exported by imports of other addresses. -/
theorem Exports.importAccount_of_ne {ws w : World} {e e' : Address × Bytes × List (Hash × Hash)}
    (he : Exports K ws w e) (hne : e.1 ≠ e'.1) :
    Exports K ws (w.importAccount K e'.1 e'.2.1 e'.2.2) e := by
  refine ⟨he.toExportsCode, ?_⟩
  rw [account_importAccount_of_ne w _ _ hne]
  exact he.storage

/-- Imports of other addresses keep an account that agrees. -/
theorem Agrees.importAll_of_not_mem {ws w : World} {a : Address}
    {entries : List (Address × Bytes × List (Hash × Hash))} (h : Agrees ws w a)
    (hexp : ∀ e ∈ entries, ExportsCode K ws e) (ha : a ∉ entries.map Prod.fst) :
    Agrees ws (importAll K entries w) a := by
  induction entries generalizing w with
  | nil => exact h
  | cons e entries ih =>
    rw [List.map_cons, List.mem_cons, not_or] at ha
    exact ih (h.importAccount_of_ne (hexp e List.mem_cons_self) ha.1)
      (fun e' he' => hexp e' (List.mem_cons_of_mem e he')) ha.2

/-- **A run of imports of distinct addresses, each exported by `ws`, leaves every imported
    account as `ws` has it**: its own import makes it agree, and the later ones are elsewhere. -/
theorem agrees_importAll {ws w : World} {entries : List (Address × Bytes × List (Hash × Hash))}
    (hnd : (entries.map Prod.fst).Nodup) (hexp : ∀ e ∈ entries, Exports K ws w e) :
    ∀ e ∈ entries, Agrees ws (importAll K entries w) e.1 := by
  induction entries generalizing w with
  | nil => exact fun _ he => absurd he List.not_mem_nil
  | cons e entries ih =>
    rw [List.map_cons, List.nodup_cons] at hnd
    intro x hx
    rcases List.mem_cons.mp hx with rfl | hx
    · exact (agrees_importAccount (hexp x List.mem_cons_self)).importAll_of_not_mem
        (fun e' he' => (hexp e' (List.mem_cons_of_mem x he')).toExportsCode) hnd.1
    · -- the rest are exported after `e`: their addresses differ from its
      refine ih hnd.2 (fun e' he' => ?_) x hx
      have hne : e'.1 ≠ e.1 := fun heq => hnd.1 (heq ▸ List.mem_map_of_mem he')
      exact (hexp e' (List.mem_cons_of_mem e he')).importAccount_of_ne hne

end World

/-! ## The export

  ForEachStorage lists the keys under an account's storage prefix, each read back as a slot by
  `BytesToHash`.  On a store whose storage prefix holds slot keys only, that lists every stored
  slot of the account once, with its value: writing the list back gives the account's storage. -/

/-- An entry a prefix iterator lists is an entry of the EVM store under a key with the prefix. -/
theorem mem_PrefixIterator {s : MultiStore} {pre : Bytes} {e : Bytes × MultiValue} :
    e ∈ s.PrefixIterator pre ↔ s[MultiKey.evm e.1]? = some e.2 ∧ pre.isPrefixOf e.1 = true := by
  obtain ⟨key, v⟩ := e
  simp only [MultiStore.PrefixIterator, MultiStore.entries, List.mem_filter, List.mem_filterMap]
  constructor
  · rintro ⟨⟨⟨k', v'⟩, hmem, hsel⟩, hpre⟩
    cases k' <;> simp only [MultiStore.evmKey?, Option.map_none, Option.map_some,
      reduceCtorEq, Option.some.injEq, Prod.mk.injEq] at hsel
    obtain ⟨rfl, rfl⟩ := hsel
    exact ⟨Std.ExtTreeMap.mem_toList_iff_getElem?_eq_some.mp hmem, hpre⟩
  · rintro ⟨hget, hpre⟩
    exact ⟨⟨(.evm key, v), Std.ExtTreeMap.mem_toList_iff_getElem?_eq_some.mpr hget, rfl⟩, hpre⟩

/-- A prefix iterator lists each entry once. -/
theorem nodup_PrefixIterator (s : MultiStore) (pre : Bytes) : (s.PrefixIterator pre).Nodup := by
  refine List.Nodup.filter _
    (KV.nodup_filterMap_of_key (KV.nodup_keys_toList s) (fun b => MultiKey.evm b.1) ?_)
  rintro ⟨k, v⟩ - b hb
  cases k <;> simp only [MultiStore.evmKey?, Option.map_none, Option.map_some, reduceCtorEq,
    Option.mem_def, Option.some.injEq] at hb
  subst hb
  rfl

/-- A key under an account's storage prefix is under the storage prefix. -/
theorem isPrefixOf_storage {addr : Address} {key : Bytes}
    (h : (AddressStoragePrefix addr).isPrefixOf key = true) : KeyPrefixStorage.isPrefixOf key = true :=
  List.isPrefixOf_iff_prefix.mpr ((List.prefix_append _ _).trans (List.isPrefixOf_iff_prefix.mp h))

/-- **A slot key under an account's storage prefix is that account's key of the slot
    `BytesToHash` reads off it.** -/
theorem eq_slotKey_of_isPrefixOf {key : Bytes} (hkey : IsSlotKey key) {addr : Address}
    (hpre : (AddressStoragePrefix addr).isPrefixOf key = true) :
    key = AddressStoragePrefix addr ++ (BytesToHash key).Bytes := by
  obtain ⟨addr', slot, rfl⟩ := hkey
  have hlen : ∀ a : Address, (AddressStoragePrefix a).length = 21 := fun a => by
    simp [AddressStoragePrefix, KeyPrefixStorage]
  -- both prefixes have 21 bytes, so they are the same
  have hprefix := List.prefix_iff_eq_take.mp (List.isPrefixOf_iff_prefix.mp hpre)
  rw [hlen addr, List.take_left' (hlen addr')] at hprefix
  rw [BytesToHash_append_Bytes, hprefix]

/-- The slots ForEachStorage lists for an account, in key order: every key under the account's
    storage prefix, read back as a hash, with its value. -/
def storageSlots (s : MultiStore) (addr : Address) : List (Hash × Hash) :=
  (s.PrefixIterator (AddressStoragePrefix addr)).map fun e =>
    (BytesToHash e.1, BytesToHash (match e.2 with | .bytes bz => bz | _ => []))

/-- On a store whose storage prefix holds slot keys only, every key the iterator lists under an
    account's prefix is the key of the slot read off it. -/
theorem eq_slotKey_of_mem_PrefixIterator {s : MultiStore} (hs : SlotsShaped s) {addr : Address}
    {e : Bytes × MultiValue} (he : e ∈ s.PrefixIterator (AddressStoragePrefix addr)) :
    e.1 = AddressStoragePrefix addr ++ (BytesToHash e.1).Bytes := by
  obtain ⟨hget, hpre⟩ := mem_PrefixIterator.mp he
  exact eq_slotKey_of_isPrefixOf (hs e.1 e.2 hget (isPrefixOf_storage hpre)) hpre

/-- The slots listed for an account are distinct: two entries read as one slot have one key. -/
theorem nodup_storageSlots {s : MultiStore} (hs : SlotsShaped s) (addr : Address) :
    ((storageSlots s addr).map Prod.fst).Nodup := by
  rw [storageSlots, List.map_map]
  refine (nodup_PrefixIterator s _).map_on fun e he e' he' heq => ?_
  have hkey : e.1 = e'.1 := by
    rw [eq_slotKey_of_mem_PrefixIterator hs he, eq_slotKey_of_mem_PrefixIterator hs he']
    exact congrArg (fun h => AddressStoragePrefix addr ++ Hash.Bytes h) heq
  have hget := (mem_PrefixIterator.mp he).1
  have hget' := (mem_PrefixIterator.mp he').1
  rw [hkey, hget'] at hget
  exact Prod.ext hkey (Option.some.inj hget).symm

theorem ForEachStorage_eq_ok {k : Keeper} (hk : k.stateErr = none) (addr : Address) :
    k.ForEachStorage addr = .ok (storageSlots k.view addr) := by
  rw [ForEachStorage, hk]
  rfl

/-- **Writing back the slots ForEachStorage lists gives the account's storage**, on a store whose
    storage prefix holds slot keys only: the slots are distinct, a stored slot is listed with its
    value, and a slot that is not stored is not listed. -/
theorem doGetState_eq_foldl {s : MultiStore} (hs : SlotsShaped s) (addr : Address) :
    Keeper.doGetState s addr =
      (storageSlots s addr).foldl (fun f kv => Function.update f kv.1 kv.2) fun _ => 0 := by
  funext key
  unfold Keeper.doGetState
  cases hget : s[MultiKey.evm (AddressStoragePrefix addr ++ key.Bytes)]? with
  | none =>
    -- a listed slot would be stored
    have hnot : key ∉ (storageSlots s addr).map Prod.fst := by
      intro hmem
      rw [storageSlots, List.map_map] at hmem
      obtain ⟨e, he, hkey⟩ := List.mem_map.mp hmem
      have hstored := (mem_PrefixIterator.mp he).1
      rw [eq_slotKey_of_mem_PrefixIterator hs he] at hstored
      simp only [Function.comp] at hkey
      rw [hkey, hget] at hstored
      cases hstored
    rw [KV.foldl_update_of_not_mem hnot]
    simp [MultiStore.Get, hget]
  | some v =>
    -- the slot is listed with the value its bytes read as
    have hmem : (key, BytesToHash (s.Get (.evm (AddressStoragePrefix addr ++ key.Bytes)))) ∈
        storageSlots s addr := by
      refine List.mem_map.mpr ⟨(AddressStoragePrefix addr ++ key.Bytes, v),
        mem_PrefixIterator.mpr ⟨hget, ?_⟩, ?_⟩
      · exact List.isPrefixOf_iff_prefix.mpr (List.prefix_append _ _)
      · rw [BytesToHash_append_Bytes, MultiStore.Get, hget]
        cases v <;> rfl
    rw [KV.foldl_update_of_mem (nodup_storageSlots hs addr) hmem]
    dsimp only
    -- an empty value reads as the zero hash either way
    split
    · rename_i hlen
      rw [List.length_eq_zero_iff.mp hlen]
      rfl
    · rfl

/-- The account ExportGenesis lists for an EthAccount of the store: its address, its code and the
    slots ForEachStorage lists, as hex strings. -/
def exportAccount (k : Keeper) (account : Account) : Option GenesisAccount :=
  match account.type with
  | .eth _ => some ⟨account.address.Hex, Bytes2Hex (k.GetCode account.address),
      (storageSlots k.view account.address).map fun kv => NewState kv.1 kv.2⟩
  | _ => none

/-- **What ExportGenesis exports** with no state error: every EthAccount of the store, in address
    order. -/
theorem ExportGenesis_eq_ok (ctx : Context MultiStore Event) {k : Keeper} (hk : k.stateErr = none) :
    ExportGenesis ctx k =
      .ok ⟨(Accounts ctx.store).filterMap (exportAccount (k.WithContext ctx)), k.params⟩ := by
  unfold ExportGenesis
  dsimp only
  rw [Except.filterMapM_eq_ok fun account _ => ?_]
  · rfl
  · unfold exportAccount
    cases account.type with
    | eth ch =>
      simp only [GetAccountStorage, ForEachStorage_eq_ok (k := k.WithContext ctx) hk]
      rfl
    | base => rfl
    | module name => rfl

/-! ## The import -/

/-- What InitGenesis reads off a genesis account: the address, the code and the slots its hex
    strings parse to. -/
def GenesisAccount.parse (ga : GenesisAccount) : AnconEvm.Address × Bytes × List (Hash × Hash) :=
  (HexToAddress ga.Address, Hex2Bytes ga.Code,
    ga.Storage.map fun st => (HexToHash st.Key, HexToHash st.Value))

/-- The storage loop of InitGenesis: the slots of one account in order. -/
def setStates (addr : Address) (states : List State) (k : Keeper) : Keeper :=
  states.foldl (fun k st => k.SetState addr (HexToHash st.Key) (HexToHash st.Value)) k

/-- InitGenesis's loop body on an EthAccount: its code, then its slots. -/
theorem initAccount_eq_ok (K : Bytes → Hash) {k : Keeper} (ga : GenesisAccount) {acc : Account}
    {ch : String} (hacc : k.view.Account? (HexToAddress ga.Address) = some acc)
    (htype : acc.type = .eth ch) :
    initAccount K k ga = .ok (setStates (HexToAddress ga.Address) ga.Storage
      (k.SetCode K (HexToAddress ga.Address) (Hex2Bytes ga.Code))) := by
  unfold initAccount
  simp only [hacc, htype]
  rfl

section SetStates

variable (addr : Address)

theorem stateErr_setStates (states : List State) (k : Keeper) :
    (setStates addr states k).stateErr = k.stateErr := by
  induction states generalizing k with
  | nil => rfl
  | cons st states ih => exact (ih _).trans (stateErr_SetState addr _ _ k)

theorem Account?_setStates (states : List State) (k : Keeper) (b : Address) :
    (setStates addr states k).view.Account? b = k.view.Account? b := by
  induction states generalizing k with
  | nil => rfl
  | cons st states ih => exact (ih _).trans (Account?_SetState addr _ _ k b)

theorem inv_setStates {P : MultiStore → Prop} (hP : StoreCode.Keeps P) (states : List State)
    {k : Keeper} (hk : k.Inv P) : (setStates addr states k).Inv P :=
  hk.of_writes hP (writes_foldl _ (fun k _ => writes_SetState addr _ _ k) states k)

/-- **The storage loop sets the slots** in the world state, with no state error. -/
theorem world_setStates (states : List State) {k : Keeper} (hk : k.stateErr = none) :
    (setStates addr states k).world =
      (states.map fun st => (HexToHash st.Key, HexToHash st.Value)).foldl
        (fun w kv => w.setStorage addr kv.1 kv.2) k.world := by
  induction states generalizing k with
  | nil => rfl
  | cons st states ih =>
    have hnoerr : k.HasStateError = false := by simp [HasStateError, hk]
    rw [List.map_cons, List.foldl_cons, ← world_SetState addr _ _ hnoerr]
    exact ih ((stateErr_SetState addr _ _ k).trans hk)

end SetStates

/-- **One loop body of InitGenesis imports its account**, on an EthAccount of a keeper with no
    state error: the keeper keeps no state error and its accounts keyed, its world imports the
    account, and every other account is left as it was. -/
theorem initAccount_imports (K : Bytes → Hash) {k : Keeper} (hk : k.stateErr = none)
    (hkeyed : k.Inv MultiStore.AccountsKeyed) {ga : GenesisAccount} {acc : Account} {ch : String}
    (hacc : k.view.Account? (HexToAddress ga.Address) = some acc) (htype : acc.type = .eth ch) :
    ∃ k₁, initAccount K k ga = .ok k₁ ∧ k₁.stateErr = none ∧ k₁.Inv MultiStore.AccountsKeyed ∧
      k₁.world = k.world.importAccount K ga.parse.1 ga.parse.2.1 ga.parse.2.2 ∧
      ∀ b, b ≠ HexToAddress ga.Address → k₁.view.Account? b = k.view.Account? b := by
  have hnoerr : k.HasStateError = false := by simp [HasStateError, hk]
  have htype' : ((k.view.Account? (HexToAddress ga.Address)).getD
      (Auth.NewAccountWithAddress (HexToAddress ga.Address))).type = .eth ch := by
    rw [hacc]
    exact htype
  have hcode : (k.SetCode K (HexToAddress ga.Address) (Hex2Bytes ga.Code)).stateErr = none :=
    (stateErr_SetCode K _ _ hnoerr htype').trans hk
  refine ⟨_, initAccount_eq_ok K ga hacc htype, (stateErr_setStates _ _ _).trans hcode,
    inv_setStates _ StoreCode.keeps_keyed _
      (hkeyed.of_writes StoreCode.keeps_keyed (writes_SetCode K _ _ k)), ?_, ?_⟩
  · rw [world_setStates _ _ hcode, world_SetCode K _ _ hnoerr hkeyed.view htype']
    rfl
  · -- the code and the slots are written at the account's own address only
    intro b hb
    rw [Account?_setStates, Account?_SetCode_of_ne K _ _ hkeyed.view hb]

/-- **InitGenesis imports the accounts one after another** into the world state, when each one's
    address holds an EthAccount and the addresses are distinct: each loop body finds its account
    as the ones before it left it, untouched. -/
theorem foldlM_initAccount (K : Bytes → Hash) {gas : List GenesisAccount} {k : Keeper}
    (hk : k.stateErr = none) (hkeyed : k.Inv MultiStore.AccountsKeyed)
    (heth : ∀ ga ∈ gas, ∃ acc ch,
      k.view.Account? (HexToAddress ga.Address) = some acc ∧ acc.type = .eth ch)
    (hnd : (gas.map fun ga => HexToAddress ga.Address).Nodup) :
    ∃ k', gas.foldlM (initAccount K) k = .ok k' ∧ k'.stateErr = none ∧
      k'.world = World.importAll K (gas.map GenesisAccount.parse) k.world := by
  induction gas generalizing k with
  | nil => exact ⟨k, rfl, hk, rfl⟩
  | cons ga gas ih =>
    rw [List.map_cons, List.nodup_cons] at hnd
    obtain ⟨acc, ch, hacc, htype⟩ := heth ga List.mem_cons_self
    obtain ⟨k₁, hinit, hk₁, hk₁keyed, hk₁world, hframe⟩ := initAccount_imports K hk hkeyed hacc htype
    -- the later accounts are untouched: their addresses differ
    have heth₁ : ∀ ga' ∈ gas, ∃ acc ch,
        k₁.view.Account? (HexToAddress ga'.Address) = some acc ∧ acc.type = .eth ch := by
      intro ga' hga'
      rw [hframe _ fun heq => hnd.1 (heq ▸ List.mem_map_of_mem hga')]
      exact heth ga' (List.mem_cons_of_mem ga hga')
    obtain ⟨k', hfold, hk', hworld⟩ := ih hk₁ hk₁keyed heth₁ hnd.2
    refine ⟨k', ?_, hk', ?_⟩
    · rw [List.foldlM_cons, hinit]
      exact hfold
    · rw [hworld, hk₁world]
      rfl

/-! ## The round trip -/

/-- **Hex round trip** for code: Hex2Bytes reads back what Bytes2Hex writes. -/
theorem Hex2Bytes_Bytes2Hex (bz : Bytes) : Hex2Bytes (Bytes2Hex bz) = bz := by
  rw [Hex2Bytes, Bytes2Hex, String.toList_ofList]
  exact hexDecode_flatMap_byteHex bz

/-- The accounts the iteration visits are the stored accounts. -/
theorem mem_Accounts {s : MultiStore} {acc : Account} :
    acc ∈ Accounts s ↔ ∃ a, s.Account? a = some acc := by
  simp only [Accounts, List.mem_filterMap]
  constructor
  · rintro ⟨⟨k, v⟩, hmem, hsel⟩
    cases k <;> cases v <;> simp only [reduceCtorEq, Option.some.injEq] at hsel
    rename_i a acc'
    subst hsel
    refine ⟨a, ?_⟩
    simp [MultiStore.Account?, Std.ExtTreeMap.mem_toList_iff_getElem?_eq_some.mp hmem]
  · rintro ⟨a, ha⟩
    have hget : s[MultiKey.account a]? = some (.account acc) := by
      unfold MultiStore.Account? at ha
      split at ha
      · rename_i acc' hget
        cases ha
        exact hget
      · cases ha
    exact ⟨(.account a, .account acc), Std.ExtTreeMap.mem_toList_iff_getElem?_eq_some.mpr hget, rfl⟩

/-- **What is read off the accounts by their address is read once per address**, on a store
    that keys its accounts. -/
theorem nodup_filterMap_Accounts {s : MultiStore} (hkeyed : s.AccountsKeyed)
    {f : Account → Option Address} (hf : ∀ acc b, f acc = some b → b = acc.address) :
    ((Accounts s).filterMap f).Nodup := by
  rw [Accounts, List.filterMap_filterMap]
  refine KV.nodup_filterMap_of_key (KV.nodup_keys_toList s) MultiKey.account ?_
  rintro ⟨k, v⟩ hmem b hb
  cases k <;> cases v <;> simp only [reduceCtorEq, Option.bind_none, Option.bind_some,
    Option.mem_def] at hb
  rename_i a acc
  -- the account read is stored under its own address
  have hacc : s.Account? a = some acc := by
    simp [MultiStore.Account?, Std.ExtTreeMap.mem_toList_iff_getElem?_eq_some.mp hmem]
  rw [hf acc b hb, hkeyed a acc hacc]

/-- **An exported account parses back** to its address, its code and its slots. -/
theorem parse_exportAccount {k : Keeper} {acc : Account} {ga : GenesisAccount}
    (h : exportAccount k acc = some ga) :
    ga.parse = (acc.address, k.GetCode acc.address, storageSlots k.view acc.address) ∧
      ∃ ch, acc.type = .eth ch := by
  unfold exportAccount at h
  split at h
  · rename_i ch htype
    cases h
    refine ⟨?_, ch, htype⟩
    simp only [GenesisAccount.parse, HexToAddress_Hex, Hex2Bytes_Bytes2Hex, List.map_map]
    congr 2
    conv_rhs => rw [← List.map_id (storageSlots k.view acc.address)]
    exact List.map_congr_left fun kv _ => by simp [NewState, HexToHash_Hex]
  · cases h

section Exported

variable {s : MultiStore} (hkeyed : s.AccountsKeyed) (k : Keeper)
include hkeyed

/-- Every exported account is a stored account, under its own address. -/
theorem mem_exported {ga : GenesisAccount} (hga : ga ∈ (Accounts s).filterMap (exportAccount k)) :
    ∃ acc, s.Account? acc.address = some acc ∧ exportAccount k acc = some ga := by
  obtain ⟨acc, hacc, hexp⟩ := List.mem_filterMap.mp hga
  obtain ⟨a, ha⟩ := mem_Accounts.mp hacc
  exact ⟨acc, hkeyed a acc ha ▸ ha, hexp⟩

/-- The exported accounts have distinct addresses. -/
theorem nodup_exported :
    (((Accounts s).filterMap (exportAccount k)).map fun ga => HexToAddress ga.Address).Nodup := by
  rw [List.map_filterMap]
  refine nodup_filterMap_Accounts hkeyed fun acc b hb => ?_
  obtain ⟨ga, hga, rfl⟩ := Option.map_eq_some_iff.mp hb
  exact congrArg Prod.fst (parse_exportAccount hga).1

/-- Every EthAccount of the store is exported. -/
theorem exported_of_eth {a : Address} {acc : Account} {ch : String} (hacc : s.Account? a = some acc)
    (htype : acc.type = .eth ch) :
    ∃ ga ∈ (Accounts s).filterMap (exportAccount k), ga.parse.1 = a := by
  cases hexp : exportAccount k acc with
  | none => simp [exportAccount, htype] at hexp
  | some ga =>
    refine ⟨ga, List.mem_filterMap.mpr ⟨acc, mem_Accounts.mpr ⟨a, hacc⟩, hexp⟩, ?_⟩
    rw [(parse_exportAccount hexp).1]
    exact hkeyed a acc hacc

end Exported

/-- A store with no EVM keys has no storage. -/
theorem doGetState_of_no_evm {s : MultiStore} (hevm : ∀ key, s[MultiKey.evm key]? = none)
    (addr : Address) : Keeper.doGetState s addr = fun _ => 0 := by
  funext key
  simp [Keeper.doGetState, MultiStore.Get, hevm]

/-- **An exported account is an entry of the store's world state**, to import over a store with
    no EVM keys: its code hashes to its code hash by the invariant, and its slots give its
    storage. -/
theorem exports_exportAccount {K : Bytes → Hash} {s s' : MultiStore} (hs : EvmInv K s)
    (hevm : ∀ key, s'[MultiKey.evm key]? = none) {k : Keeper} (hk : k.stateErr = none)
    (hview : k.view = s) {acc : Account} {ga : GenesisAccount} (h : exportAccount k acc = some ga) :
    World.Exports K (worldOf s) (worldOf s') ga.parse := by
  rw [(parse_exportAccount h).1]
  have hcode : k.GetCode acc.address = (worldOf s).codeOf acc.address := by
    rw [(getters_world hk acc.address 0).2.2.2.1, world, hview]
  refine ⟨⟨?_, ?_⟩, ?_⟩
  · rw [hcode]
    exact hs.codeHashed acc.address
  · dsimp only
    rw [hcode, hs.codeHashed acc.address]
    split
    · -- the empty code hash names no code
      rename_i hempty
      rw [World.codeOf, hempty]
      simp [worldOf]
    · rfl
  · show Keeper.doGetState s acc.address = List.foldl _ (Keeper.doGetState s' acc.address) _
    rw [hview, doGetState_eq_foldl hs.slotsShaped, doGetState_of_no_evm hevm]

/-- **The genesis round trip** from a store with the invariant: exporting it, and importing the
    export on a store with the same accounts and no EVM keys, leaves every EthAccount of the store
    with its code hash, its code and its storage. -/
theorem InitGenesis_ExportGenesis {K : Bytes → Hash} {ctx ctx' : Context MultiStore Event}
    (hs : EvmInv K ctx.store) (hkeyed : ctx.store.AccountsKeyed)
    (hacc : ∀ a, ctx'.store.Account? a = ctx.store.Account? a)
    (hevm : ∀ key, ctx'.store[MultiKey.evm key]? = none) {kx ki : Keeper}
    (hkx : kx.stateErr = none) (hki : ki.stateErr = none) :
    ∃ gs k', ExportGenesis ctx kx = .ok gs ∧ InitGenesis K ctx' ki gs = .ok k' ∧
      k'.stateErr = none ∧ ∀ a acc ch, ctx.store.Account? a = some acc → acc.type = .eth ch →
        World.Agrees (worldOf ctx.store) k'.world a := by
  let gas := (Accounts ctx.store).filterMap (exportAccount (kx.WithContext ctx))
  -- the import finds each exported account where it was, an EthAccount
  let k₀ : Keeper := { ki.WithContext ctx' with params := kx.params }
  have heth : ∀ ga ∈ gas, ∃ acc ch,
      k₀.view.Account? (HexToAddress ga.Address) = some acc ∧ acc.type = .eth ch := by
    intro ga hga
    obtain ⟨acc, hacc', hexp⟩ := mem_exported hkeyed _ hga
    obtain ⟨hparse, ch, htype⟩ := parse_exportAccount hexp
    have haddr : HexToAddress ga.Address = acc.address := congrArg Prod.fst hparse
    refine ⟨acc, ch, ?_, htype⟩
    show ctx'.store.Account? _ = _
    rw [haddr, hacc, hacc']
  have hkeyed' : k₀.Inv MultiStore.AccountsKeyed :=
    Inv.WithContext (fun a acc h => hkeyed a acc ((hacc a).symm.trans h)) ki
  have hk₀ : k₀.stateErr = none := hki
  obtain ⟨k', hfold, hk', hworld⟩ :=
    foldlM_initAccount K hk₀ hkeyed' heth (nodup_exported hkeyed (kx.WithContext ctx))
  refine ⟨⟨gas, kx.params⟩, k', ExportGenesis_eq_ok ctx hkx, hfold, hk', ?_⟩
  intro a acc ch hacc' htype
  -- the account was exported
  obtain ⟨ga, hga, haddr⟩ := exported_of_eth hkeyed (kx.WithContext ctx) hacc' htype
  have hagrees := World.agrees_importAll (K := K) (w := worldOf ctx'.store)
    (by rw [List.map_map]; exact nodup_exported hkeyed (kx.WithContext ctx))
    (fun e he => by
      obtain ⟨ga', hga', rfl⟩ := List.mem_map.mp he
      obtain ⟨acc', -, hexp'⟩ := mem_exported hkeyed _ hga'
      have hkx' : (kx.WithContext ctx).stateErr = none := hkx
      exact exports_exportAccount hs hevm hkx' rfl hexp')
    ga.parse (List.mem_map_of_mem hga)
  rw [hworld, ← haddr]
  exact hagrees

/-- **The genesis round trip of every reachable state**: from a state with the invariant (the
    empty store has it), after any run of StateDB calls go-ethereum makes, the committed state
    exports, and importing the export on a store with the same accounts and an empty EVM store
    gives every EthAccount the code, the code hash and every slot the getters read in the
    committed state.  `K` is Keccak256: the empty code hashes to the empty code hash, and no code
    to the zero hash. -/
theorem InitGenesis_ExportGenesis_round_trip {K : Bytes → Hash} (hK : K [] = EmptyCodeHash)
    (hK0 : ∀ code, K code ≠ 0) {ops : List Op} {k₀ k : Keeper} (hinv : k₀.Inv (EvmInv K))
    (hkeyed : k₀.Inv MultiStore.AccountsKeyed) (hallowed : Op.runAllowed K ops k₀ = true)
    (hrun : Op.run K ops k₀ = .ok k) {ctx' : Context MultiStore Event}
    (hacc : ∀ a, ctx'.store.Account? a =
      k.CommitCachedContexts.ctxStack.initialCtx.store.Account? a)
    (hevm : ∀ key, ctx'.store[MultiKey.evm key]? = none) {kx ki : Keeper}
    (hkx : kx.stateErr = none) (hki : ki.stateErr = none) :
    let ctx := k.CommitCachedContexts.ctxStack.initialCtx
    ∃ gs k', ExportGenesis ctx kx = .ok gs ∧ InitGenesis K ctx' ki gs = .ok k' ∧
      ∀ a acc ch, ctx.store.Account? a = some acc → acc.type = .eth ch →
        k'.GetCode a = (kx.WithContext ctx).GetCode a ∧
        k'.GetCodeHash a = (kx.WithContext ctx).GetCodeHash a ∧
        ∀ key, k'.GetState a key = (kx.WithContext ctx).GetState a key := by
  intro ctx
  -- the committed state has the invariant
  obtain ⟨hinv', hkeyed'⟩ := Op.run_evmInv hK hK0 hinv hkeyed hallowed hrun
  obtain ⟨gs, k', hexp, himp, hk', hagree⟩ := InitGenesis_ExportGenesis
    hinv'.CommitCachedContexts.store hkeyed'.CommitCachedContexts.store hacc hevm hkx hki
  refine ⟨gs, k', hexp, himp, fun a acc ch hacc' htype => ?_⟩
  have h := hagree a acc ch hacc' htype
  -- both keepers' getters read the world states of their views, which agree at `a`
  have hkx' : (kx.WithContext ctx).stateErr = none := hkx
  have hget := getters_world hk' a
  have hget' := getters_world hkx' a
  refine ⟨?_, ?_, fun key => ?_⟩
  · rw [(hget 0).2.2.2.1, (hget' 0).2.2.2.1, h.codeOf]
    rfl
  · rw [(hget 0).2.2.1, (hget' 0).2.2.1, h.codeHash]
    rfl
  · rw [(hget key).2.2.2.2, (hget' key).2.2.2.2, h.storage]
    rfl

/-- A contract created at 0x07 from the empty store, with the code 0x6001 and slot 1 set to 5:
    the round trip over the committed store with its EVM keys dropped.  The hash is Keccak-256
    at the two codes the run hashes, the empty code and 0x6001; no other code is hashed. -/
theorem InitGenesis_ExportGenesis_round_trip_contract :
    let K : Bytes → Hash := fun code =>
      if code = [] then EmptyCodeHash
      else if code = [0x60, 0x01] then
        0x309c67890bde4c575dc23d2cc3b5c3a3d599e312e980e9b61b5bc8f3cd87c8bb
      else 1
    let k₀ : Keeper :=
      ⟨⟨⟨∅, []⟩, []⟩, ⟨"aphoton", true, true, []⟩, 1, [], "json", false, none, none, fun _ => 99⟩
    let ops : List Op := [.CreateAccount 7, .SetCode 7 [0x60, 0x01], .SetState 7 1 5]
    ∃ k, Op.run K ops k₀ = .ok k ∧
      let ctx := k.CommitCachedContexts.ctxStack.initialCtx
      let ctx' : Context MultiStore Event :=
        ⟨ctx.store.filter fun key _ => (MultiStore.evmKey? key).isNone, []⟩
      ∃ gs k', ExportGenesis ctx k₀ = .ok gs ∧ InitGenesis K ctx' k₀ gs = .ok k' ∧
        ∀ a acc ch, ctx.store.Account? a = some acc → acc.type = .eth ch →
          k'.GetCode a = (k₀.WithContext ctx).GetCode a ∧
          k'.GetCodeHash a = (k₀.WithContext ctx).GetCodeHash a ∧
          ∀ key, k'.GetState a key = (k₀.WithContext ctx).GetState a key := by
  intro K k₀ ops
  have hK : K [] = EmptyCodeHash := rfl
  have hK0 : ∀ code, K code ≠ 0 := by
    intro code
    dsimp only [K]
    split_ifs <;> decide
  have hok : (Op.run K ops k₀).isOk = true := by decide +kernel
  cases hrun : Op.run K ops k₀ with
  | error e =>
    rw [hrun] at hok
    cases hok
  | ok k =>
    refine ⟨k, rfl, ?_⟩
    exact InitGenesis_ExportGenesis_round_trip hK hK0
      (@Inv.WithContext (EvmInv K) ⟨∅, []⟩ (evmInv_empty hK) k₀)
      (@Inv.WithContext MultiStore.AccountsKeyed ⟨∅, []⟩
        (fun a acc h => by simp [MultiStore.Account?] at h) k₀)
      (by decide +kernel) hrun
      (fun a => by
        unfold MultiStore.Account?
        rw [Std.ExtTreeMap.getElem?_filter']
        cases k.CommitCachedContexts.ctxStack.initialCtx.store[MultiKey.account a]? <;> rfl)
      (fun key => by simp [MultiStore.evmKey?]) rfl rfl

end AnconEvm.Evm
