import AnconEvm.Evm.Transient
/-
  The access list of EIP-2929 and EIP-2930 (x/evm/keeper/statedb.go): the addresses and the
  storage slots a transaction has touched, which the EVM then charges as warm.

  go-ethereum keeps it as a journaled map (core/state/access_list.go, `AccessList` here), which
  StateDB.Prepare empties before each transaction.  The keeper keeps it in the transient store: an
  address under `KeyPrefixTransientAccessListAddress`, a slot under
  `KeyPrefixTransientAccessListSlot` after its address.  `accessListOf` reads the list off a view.
    1. AddAddressToAccessList and AddSlotToAccessList are go-ethereum's AddAddress and AddSlot on
       the list, every other call leaves it (`Op.accessListOf_exec`); so over every run without a
       state error the list follows the journal (`Op.run_accessList`).
    2. No call removes an entry and every slot's address is listed, whatever the reverts and the
       state errors (`Op.run_accessList_inv`).
    3. PrepareAccessList adds the sender, the destination, the precompiles and the tx's own list
       (`Keeper.accessListOf_PrepareAccessList`).
    4. Nothing empties the list between the transactions of a block: the list a transaction leaves
       holds every entry it started with, and without hooks everything PrepareAccessList added
       (`ApplyTransaction_accessList_carries_over`).
-/

namespace AnconEvm.Evm

/-! ## go-ethereum's access list -/

/-- go-ethereum's access list: the addresses and the (address, slot) pairs added so far. -/
@[ext] structure AccessList where
  addresses : Set Address
  slots : Set (Address × Hash)

namespace AccessList

/-- AddAddress. -/
def AddAddress (addr : Address) (al : AccessList) : AccessList := ⟨insert addr al.addresses, al.slots⟩

/-- AddSlot: the address, and the slot under it. -/
def AddSlot (addr : Address) (slot : Hash) (al : AccessList) : AccessList :=
  ⟨insert addr al.addresses, insert (addr, slot) al.slots⟩

/-- Lists are ordered by inclusion of both sets. -/
instance : PartialOrder AccessList :=
  PartialOrder.lift (fun al => (al.addresses, al.slots)) fun a b h => by
    cases a
    cases b
    cases h
    rfl

theorem le_iff {al al' : AccessList} :
    al ≤ al' ↔ al.addresses ⊆ al'.addresses ∧ al.slots ⊆ al'.slots :=
  Iff.rfl

theorem le_AddAddress (addr : Address) (al : AccessList) : al ≤ al.AddAddress addr :=
  le_iff.mpr ⟨Set.subset_insert _ _, subset_rfl⟩

theorem le_AddSlot (addr : Address) (slot : Hash) (al : AccessList) : al ≤ al.AddSlot addr slot :=
  le_iff.mpr ⟨Set.subset_insert _ _, Set.subset_insert _ _⟩

/-- Every slot's address is listed: go-ethereum keeps the slots of an address in that address's
    entry. -/
def SlotsAddressed (al : AccessList) : Prop := ∀ addr slot, (addr, slot) ∈ al.slots → addr ∈ al.addresses

theorem SlotsAddressed.AddAddress {al : AccessList} (h : al.SlotsAddressed) (addr : Address) :
    (al.AddAddress addr).SlotsAddressed :=
  fun a s hs => Set.mem_insert_of_mem _ (h a s hs)

theorem SlotsAddressed.AddSlot {al : AccessList} (h : al.SlotsAddressed) (addr : Address) (slot : Hash) :
    (al.AddSlot addr slot).SlotsAddressed := by
  intro a s hs
  rcases Set.mem_insert_iff.mp hs with heq | hs
  · cases heq
    exact Set.mem_insert _ _
  · exact Set.mem_insert_of_mem _ (h a s hs)

/-- go-ethereum's StateDB.PrepareAccessList, in closed form: the sender, the destination, the
    precompiles and the addresses of the tx's list, and the tx's slots. -/
def Prepare (sender : Address) (dest : Option Address) (precompiles : List Address)
    (txAccesses : List (Address × List Hash)) (al : AccessList) : AccessList where
  addresses := al.addresses ∪ {a | a = sender ∨ dest = some a ∨ a ∈ precompiles ∨
    ∃ keys, (a, keys) ∈ txAccesses}
  slots := al.slots ∪ {p | ∃ keys, (p.1, keys) ∈ txAccesses ∧ p.2 ∈ keys}

theorem le_Prepare (sender : Address) (dest : Option Address) (precompiles : List Address)
    (txAccesses : List (Address × List Hash)) (al : AccessList) :
    al ≤ al.Prepare sender dest precompiles txAccesses :=
  le_iff.mpr ⟨Set.subset_union_left, Set.subset_union_left⟩

/-- The tx's list, one tuple after another: its address, then each of its slots. -/
def addTuples (txAccesses : List (Address × List Hash)) (al : AccessList) : AccessList :=
  txAccesses.foldl (fun al tuple => tuple.2.foldl (fun al key => al.AddSlot tuple.1 key)
    (al.AddAddress tuple.1)) al

/-- go-ethereum's StateDB.PrepareAccessList, call by call. -/
def PrepareSteps (sender : Address) (dest : Option Address) (precompiles : List Address)
    (txAccesses : List (Address × List Hash)) (al : AccessList) : AccessList :=
  let al := al.AddAddress sender
  let al := match dest with
    | some d => al.AddAddress d
    | none => al
  addTuples txAccesses (precompiles.foldl (fun al addr => al.AddAddress addr) al)

theorem foldl_AddAddress (addrs : List Address) (al : AccessList) :
    addrs.foldl (fun al addr => al.AddAddress addr) al = ⟨al.addresses ∪ {a | a ∈ addrs}, al.slots⟩ := by
  induction addrs generalizing al with
  | nil => ext <;> simp
  | cons a addrs ih =>
    rw [List.foldl_cons, ih]
    ext x <;> simp [AddAddress, or_assoc, or_left_comm]

/-- The slots of one address already listed. -/
theorem foldl_AddSlot {addr : Address} (keys : List Hash) {al : AccessList} (ha : addr ∈ al.addresses) :
    keys.foldl (fun al key => al.AddSlot addr key) al =
      ⟨al.addresses, al.slots ∪ {p | p.1 = addr ∧ p.2 ∈ keys}⟩ := by
  induction keys generalizing al with
  | nil => ext <;> simp
  | cons key keys ih =>
    rw [List.foldl_cons, ih (Set.mem_insert_of_mem _ ha)]
    ext x
    · simp [AddSlot, Set.insert_eq_of_mem ha]
    · -- the new slot is the first of the keys
      simp only [AddSlot, Set.mem_union, Set.mem_insert_iff, Prod.ext_iff]
      simp only [Set.mem_ofPred_eq, List.mem_cons]
      tauto

theorem addTuples_eq (txAccesses : List (Address × List Hash)) (al : AccessList) :
    addTuples txAccesses al = ⟨al.addresses ∪ {a | ∃ keys, (a, keys) ∈ txAccesses},
      al.slots ∪ {p | ∃ keys, (p.1, keys) ∈ txAccesses ∧ p.2 ∈ keys}⟩ := by
  induction txAccesses generalizing al with
  | nil => ext <;> simp [addTuples]
  | cons tuple rest ih =>
    obtain ⟨a, keys⟩ := tuple
    unfold addTuples at ih ⊢
    rw [List.foldl_cons, ih, foldl_AddSlot keys (Set.mem_insert a al.addresses)]
    -- the tuple's address and slots, then the rest's
    ext x
    · simp only [AddAddress, Set.mem_union, Set.mem_insert_iff]
      simp only [Set.mem_ofPred_eq, List.mem_cons, Prod.mk.injEq, exists_or, exists_and_left]
      tauto
    · simp only [AddAddress, Set.mem_union]
      simp only [Set.mem_ofPred_eq, List.mem_cons, Prod.mk.injEq, or_and_right, exists_or, and_assoc,
        exists_and_left, exists_eq_left]
      tauto

/-- **PrepareAccessList, call by call, adds exactly the closed form's entries.** -/
theorem PrepareSteps_eq (sender : Address) (dest : Option Address) (precompiles : List Address)
    (txAccesses : List (Address × List Hash)) (al : AccessList) :
    al.PrepareSteps sender dest precompiles txAccesses = al.Prepare sender dest precompiles txAccesses := by
  unfold PrepareSteps
  rw [addTuples_eq, foldl_AddAddress]
  cases dest <;> ext x <;> simp [Prepare, AddAddress] <;> tauto

theorem SlotsAddressed.Prepare {al : AccessList} (h : al.SlotsAddressed) (sender : Address)
    (dest : Option Address) (precompiles : List Address) (txAccesses : List (Address × List Hash)) :
    (al.Prepare sender dest precompiles txAccesses).SlotsAddressed := by
  rintro a s (hs | ⟨keys, hkeys, -⟩)
  · exact .inl (h a s hs)
  · exact .inr (.inr (.inr (.inr ⟨keys, hkeys⟩)))

end AccessList

/-! ## The access list of a view -/

/-- The access list a view holds in the transient store. -/
def accessListOf (s : MultiStore) : AccessList where
  addresses := {addr | s.Has (.transient (KeyPrefixTransientAccessListAddress ++ addr.Bytes))}
  slots := {p | s.Has (.transient (KeyPrefixTransientAccessListSlot ++ (p.1.Bytes ++ p.2.Bytes)))}

theorem Has_smul_set (K K' : MultiKey) (v : MultiValue) (s : MultiStore) :
    ((KV.Delta.set K v : MultiDelta) • s).Has K' = (decide (K = K') || s.Has K') := by
  unfold MultiStore.Has
  rw [Std.ExtTreeMap.contains_eq_isSome_getElem?, getElem?_set_smul,
    Std.ExtTreeMap.contains_eq_isSome_getElem?]
  by_cases h : K = K' <;> simp [h]

/-- The list is read from the keys under its two prefixes only. -/
theorem accessListOf_of_kept {ps : List Bytes} {s s' : MultiStore} (h : TransientKept ps s s')
    (hps : ∀ p ∈ ps, (¬ p <+: KeyPrefixTransientAccessListAddress ∧
      ¬ KeyPrefixTransientAccessListAddress <+: p) ∧
      (¬ p <+: KeyPrefixTransientAccessListSlot ∧ ¬ KeyPrefixTransientAccessListSlot <+: p)) :
    accessListOf s' = accessListOf s := by
  have hhas : ∀ pre x, (∀ p ∈ ps, ¬ p <+: pre ∧ ¬ pre <+: p) →
      s'.Has (.transient (pre ++ x)) = s.Has (.transient (pre ++ x)) := by
    intro pre x hpre
    unfold MultiStore.Has
    rw [Std.ExtTreeMap.contains_eq_isSome_getElem?, Std.ExtTreeMap.contains_eq_isSome_getElem?,
      h.getElem?_append hpre x]
  ext x
  · exact Iff.of_eq (congrArg (· = true) (hhas _ _ fun p hp => (hps p hp).1))
  · exact Iff.of_eq (congrArg (· = true) (hhas _ _ fun p hp => (hps p hp).2))

/-- Committing a block empties the list: the next block's first transaction starts with none. -/
theorem accessListOf_resetTransient (s : MultiStore) : accessListOf s.resetTransient = ⟨∅, ∅⟩ := by
  have hnone : ∀ t, s.resetTransient.Has (.transient t) = false := by
    intro t
    unfold MultiStore.Has MultiStore.resetTransient
    rw [Std.ExtTreeMap.contains_eq_isSome_getElem?, Std.ExtTreeMap.getElem?_filter']
    cases s[MultiKey.transient t]? <;> rfl
  ext x <;> simp [accessListOf, hnone]

/-- Keys under two different one-byte prefixes differ. -/
theorem keys_ne {b c : UInt8} (h : b ≠ c) (x y : Bytes) : [b] ++ x ≠ [c] ++ y :=
  fun heq => h (List.cons.inj heq).1

namespace Keeper

variable {k : Keeper}

/-- AddressInAccessList reads the list. -/
theorem AddressInAccessList_iff (hk : k.HasStateError = false) (addr : Address) :
    k.AddressInAccessList addr = true ↔ addr ∈ (accessListOf k.view).addresses := by
  rw [AddressInAccessList, if_neg (by simp [hk])]
  rfl

/-- SlotInAccessList reads the list. -/
theorem SlotInAccessList_iff (hk : k.HasStateError = false) (addr : Address) (slot : Hash) :
    ((k.SlotInAccessList addr slot).1 = true ↔ addr ∈ (accessListOf k.view).addresses) ∧
      ((k.SlotInAccessList addr slot).2 = true ↔ (addr, slot) ∈ (accessListOf k.view).slots) := by
  rw [SlotInAccessList, if_neg (by simp [hk])]
  exact ⟨AddressInAccessList_iff hk addr, Iff.rfl⟩

theorem stateErr_AddAddressToAccessList (addr : Address) (k : Keeper) :
    (k.AddAddressToAccessList addr).stateErr = k.stateErr := by
  unfold AddAddressToAccessList
  split
  · rfl
  split
  · rfl
  · exact stateErr_call _ k

theorem stateErr_AddSlotToAccessList (addr : Address) (slot : Hash) (k : Keeper) :
    (k.AddSlotToAccessList addr slot).stateErr = k.stateErr := by
  unfold AddSlotToAccessList
  split
  · rfl
  dsimp only
  split
  · exact stateErr_AddAddressToAccessList addr k
  · rw [stateErr_call, stateErr_AddAddressToAccessList]

/-- **AddAddressToAccessList is go-ethereum's AddAddress.** -/
theorem accessListOf_AddAddressToAccessList (hk : k.HasStateError = false) (addr : Address) :
    accessListOf (k.AddAddressToAccessList addr).view = (accessListOf k.view).AddAddress addr := by
  unfold AddAddressToAccessList
  rw [if_neg (by simp [hk])]
  split
  · -- already listed: inserting it again changes nothing
    rename_i hin
    rw [AddressInAccessList_iff hk] at hin
    exact (congrArg (AccessList.mk · _) (Set.insert_eq_of_mem hin)).symm
  · rw [StoreM.Set, view_call_write]
    ext x
    · simp only [accessListOf, Set.mem_ofPred_eq, Has_smul_set, AccessList.AddAddress,
        Set.mem_insert_iff, Bool.or_eq_true, decide_eq_true_eq, MultiKey.transient.injEq,
        List.append_cancel_left_eq]
      exact or_congr_left ⟨fun h => (Address.Bytes_injective h).symm, fun h => h ▸ rfl⟩
    · simp only [accessListOf, Set.mem_ofPred_eq, Has_smul_set, AccessList.AddAddress,
        Bool.or_eq_true, decide_eq_true_eq, MultiKey.transient.injEq]
      -- an address key is no slot key: their prefixes differ
      exact or_iff_right (keys_ne (by decide) _ _)

/-- **AddSlotToAccessList is go-ethereum's AddSlot.** -/
theorem accessListOf_AddSlotToAccessList (hk : k.HasStateError = false) (addr : Address) (slot : Hash) :
    accessListOf (k.AddSlotToAccessList addr slot).view = (accessListOf k.view).AddSlot addr slot := by
  have hk₁ : (k.AddAddressToAccessList addr).HasStateError = false := by
    simpa [HasStateError, stateErr_AddAddressToAccessList] using hk
  have haddr := accessListOf_AddAddressToAccessList hk addr
  unfold AddSlotToAccessList
  rw [if_neg (by simp [hk])]
  dsimp only
  split
  · -- the slot is listed already, after its address
    rename_i hin
    rw [haddr]
    have hslot : (addr, slot) ∈ (accessListOf (k.AddAddressToAccessList addr).view).slots := hin
    rw [haddr] at hslot
    exact congrArg (AccessList.mk _ ·) (Set.insert_eq_of_mem hslot).symm
  · rw [StoreM.Set, view_call_write]
    ext x
    · simp only [accessListOf, Set.mem_ofPred_eq, Has_smul_set, Bool.or_eq_true, decide_eq_true_eq,
        MultiKey.transient.injEq]
      have hne : ¬ KeyPrefixTransientAccessListSlot ++ (addr.Bytes ++ slot.Bytes) =
          KeyPrefixTransientAccessListAddress ++ x.Bytes := keys_ne (by decide) _ _
      rw [or_iff_right hne]
      exact Iff.of_eq (congrArg (x ∈ ·) (congrArg AccessList.addresses haddr))
    · simp only [accessListOf, Set.mem_ofPred_eq, Has_smul_set, Bool.or_eq_true, decide_eq_true_eq,
        MultiKey.transient.injEq, List.append_cancel_left_eq]
      have hslots : (x ∈ (accessListOf (k.AddAddressToAccessList addr).view).slots) ↔
          x ∈ (accessListOf k.view).slots := by rw [haddr]; rfl
      refine or_congr ?_ hslots
      -- a slot key determines the address and the slot
      constructor
      · intro h
        obtain ⟨ha, hs⟩ := List.append_inj h (by simp)
        exact Prod.ext (Address.Bytes_injective ha).symm (Hash.Bytes_injective hs).symm
      · rintro rfl
        rfl

end Keeper

open Keeper

/-! ## The list follows the journal -/

/-- go-ethereum's access list under each call. -/
def Op.onAccessList : Op → AccessList → AccessList
  | .AddAddressToAccessList addr => AccessList.AddAddress addr
  | .AddSlotToAccessList addr slot => AccessList.AddSlot addr slot
  | _ => id

/-- **Each call's effect on the list**, when it starts without a state error. -/
theorem Op.accessListOf_exec {Keccak256 : Bytes → Hash} {op : Op} {k k' : Keeper}
    (h : op.exec Keccak256 k = .ok k') (hshape : op.shape = .write id) (hk : k.stateErr = none) :
    accessListOf k'.view = op.onAccessList (accessListOf k.view) := by
  have hnot : k.HasStateError = false := by simp [HasStateError, hk]
  cases op
  case AddAddressToAccessList addr =>
    cases h
    exact accessListOf_AddAddressToAccessList hnot addr
  case AddSlotToAccessList addr slot =>
    cases h
    exact accessListOf_AddSlotToAccessList hnot addr slot
  -- every other call writes no key of the list
  all_goals
    exact accessListOf_of_kept (Op.transientKept_exec h hshape) (by dsimp only [Op.transientWrites]; decide)

theorem stepsComponent_accessList (Keccak256 : Bytes → Hash) :
    Op.StepsComponent Keccak256 accessListOf Op.onAccessList :=
  fun _ _ _ hshape h hk _ => Op.accessListOf_exec h hshape hk

/-- **The keeper's access list refines go-ethereum's journaled access list**: over every run of
    StateDB calls that ends without a state error, the lists of the views of the context stack
    move as the journal of go-ethereum's list does under the run: AddAddressToAccessList and
    AddSlotToAccessList add, a snapshot saves the list, a revert restores it. -/
theorem Op.run_accessList {Keccak256 : Bytes → Hash} {ops : List Op} {k k' : Keeper}
    (h : Op.run Keccak256 ops k = .ok k') (h' : k'.stateErr = none) :
    Journal.run (ops.map (Op.onComponent Op.onAccessList)) (k.journal.map accessListOf) =
      some (k'.journal.map accessListOf) :=
  Op.run_component (stepsComponent_accessList Keccak256) h h'

/-- An address listed, then a slot listed under a snapshot that is reverted. -/
theorem Op.run_accessList_revert :
    let k := runKeeper (runStore 0) none TracerJSON
    let ops : List Op := [.AddAddressToAccessList 0x2000, .Snapshot, .AddSlotToAccessList 0x4000 1,
      .RevertToSnapshot 0]
    ∃ k', Op.run runEnv.Keccak256 ops k = .ok k' ∧
      Journal.run (ops.map (Op.onComponent Op.onAccessList)) (k.journal.map accessListOf) =
        some (k'.journal.map accessListOf) := by
  intro k ops
  obtain ⟨k', hrun, herr⟩ := Except.map_eq_ok
    (show (Op.run runEnv.Keccak256 ops k).map Keeper.stateErr = .ok none by decide +kernel)
  exact ⟨k', hrun, Op.run_accessList hrun herr⟩

/-- **What every run keeps of the list**: a property of lists that go-ethereum's AddAddress and
    AddSlot keep holds of the list of every view of the context stack after any run, when it did
    before; state errors, which skip the calls after them, included. -/
theorem Op.run_accessList_inv {Keccak256 : Bytes → Hash} {P : AccessList → Prop}
    (hP : ∀ (op : Op) (al : AccessList), P al → P (op.onAccessList al)) {ops : List Op} {k k' : Keeper}
    (hk : k.Inv (fun s => P (accessListOf s))) (h : Op.run Keccak256 ops k = .ok k') :
    k'.Inv (fun s => P (accessListOf s)) := by
  induction ops generalizing k with
  | nil =>
    cases h
    exact hk
  | cons op ops ih =>
    obtain ⟨k₁, hop, hrest⟩ := Except.bind_eq_ok h
    refine ih ?_ hrest
    rcases Op.exec_cases hop with ⟨hshape, hw⟩ | ⟨rfl, rfl⟩ | ⟨target, rfl, hrev⟩
    · cases herr : k.stateErr with
      | none =>
        refine hk.of_journalWrite hw.journalWrite fun hP₀ => ?_
        rw [Op.accessListOf_exec hop hshape herr]
        exact hP op _ hP₀
      | some e =>
        -- under a state error the call does nothing
        rw [Op.exec_of_stateErr Keccak256 op (by simp [herr])] at hop
        cases hop
        exact hk
    · exact hk.Snapshot
    · exact hk.RevertToSnapshot hrev

theorem le_onAccessList (op : Op) (al : AccessList) : al ≤ op.onAccessList al := by
  cases op
  case AddAddressToAccessList addr => exact AccessList.le_AddAddress addr al
  case AddSlotToAccessList addr slot => exact AccessList.le_AddSlot addr slot al
  all_goals exact le_rfl

theorem AccessList.SlotsAddressed.onAccessList {al : AccessList} (h : al.SlotsAddressed) (op : Op) :
    (op.onAccessList al).SlotsAddressed := by
  cases op
  case AddAddressToAccessList addr => exact h.AddAddress addr
  case AddSlotToAccessList addr slot => exact h.AddSlot addr slot
  all_goals exact h

/-- **No call removes an entry of the list and every slot's address stays listed**: after any run
    of StateDB calls, every view of the context stack lists what a list `A` did, and lists the
    address of every slot, when every view did before. -/
theorem Op.run_accessList_grows {Keccak256 : Bytes → Hash} {A : AccessList} {ops : List Op}
    {k k' : Keeper} (hk : k.Inv (fun s => A ≤ accessListOf s ∧ (accessListOf s).SlotsAddressed))
    (h : Op.run Keccak256 ops k = .ok k') :
    k'.Inv (fun s => A ≤ accessListOf s ∧ (accessListOf s).SlotsAddressed) :=
  Op.run_accessList_inv (P := fun al => A ≤ al ∧ al.SlotsAddressed)
    (fun op _ hal => ⟨hal.1.trans (le_onAccessList op _), AccessList.SlotsAddressed.onAccessList hal.2 op⟩)
    hk h

/-- A list that already holds an address and one of its slots, then a later address and slot
    under a snapshot that is reverted: the revert takes the later entries off and no earlier one. -/
theorem Op.run_accessList_grows_listed :
    let k₀ := runKeeper (runStore 0).resetTransient none TracerJSON
    let pre : List Op := [.AddAddressToAccessList 0x4000, .AddSlotToAccessList 0x4000 1]
    let ops : List Op := [.Snapshot, .AddAddressToAccessList 0x2000, .AddSlotToAccessList 0x2000 5,
      .RevertToSnapshot 0]
    ∃ k k', Op.run runEnv.Keccak256 pre k₀ = .ok k ∧ (0x4000, 1) ∈ (accessListOf k.view).slots ∧
      Op.run runEnv.Keccak256 ops k = .ok k' ∧ 0x2000 ∉ (accessListOf k'.view).addresses ∧
      k'.Inv (fun s => accessListOf k.view ≤ accessListOf s ∧ (accessListOf s).SlotsAddressed) := by
  intro k₀ pre ops
  -- both runs evaluated at once: no state error, no snapshot left open, and what each lists
  have hboth := show (Op.run runEnv.Keccak256 pre k₀ >>= fun k =>
      (Op.run runEnv.Keccak256 ops k).map fun k' =>
        (decide (k.stateErr = none ∧ k.journal.saved.isEmpty = true ∧
            (k.SlotInAccessList 0x4000 1).2 = true),
          decide (k'.stateErr = none ∧ k'.AddressInAccessList 0x2000 = false))) =
      .ok (true, true) by decide +kernel
  obtain ⟨k, hpre, hrest⟩ := Except.bind_eq_ok hboth
  obtain ⟨k', hrun, hflags⟩ := Except.map_eq_ok hrest
  obtain ⟨hk, hsaved, hslot⟩ := of_decide_eq_true (congrArg Prod.fst hflags)
  obtain ⟨hk', haddr⟩ := of_decide_eq_true (congrArg Prod.snd hflags)
  have hnoerr : ∀ {k : Keeper}, k.stateErr = none → k.HasStateError = false := fun h => by
    simp [Keeper.HasStateError, h]
  -- the revert took the later address off
  have hreverted : 0x2000 ∉ (accessListOf k'.view).addresses := fun h =>
    Bool.false_ne_true (haddr.symm.trans ((AddressInAccessList_iff (hnoerr hk') 0x2000).mpr h))
  -- the emptied list has no slot, and the first run keeps every slot under its address
  have hempty : (accessListOf k₀.view).SlotsAddressed := by
    show (accessListOf (runStore 0).resetTransient).SlotsAddressed
    rw [accessListOf_resetTransient]
    exact fun _ _ h => absurd h (Set.notMem_empty _)
  have hslots : (accessListOf k.view).SlotsAddressed :=
    (Op.run_accessList_inv (P := AccessList.SlotsAddressed)
      (fun op _ hal => AccessList.SlotsAddressed.onAccessList hal op)
      (Keeper.inv_of_saved_nil rfl hempty) hpre).view
  refine ⟨k, k', hpre, (SlotInAccessList_iff (hnoerr hk) 0x4000 1).2.mp hslot, hrun, hreverted, ?_⟩
  exact Op.run_accessList_grows
    (Keeper.inv_of_saved_nil (List.isEmpty_iff.mp hsaved) ⟨le_rfl, hslots⟩) hrun

/-! ## Preparing the list -/

namespace Keeper

theorem AddAddressToAccessList_step (k : Keeper) (addr : Address) (hk : k.HasStateError = false) :
    accessListOf (k.AddAddressToAccessList addr).view = (accessListOf k.view).AddAddress addr ∧
      (k.AddAddressToAccessList addr).HasStateError = false :=
  ⟨accessListOf_AddAddressToAccessList hk addr,
    by simpa [HasStateError, stateErr_AddAddressToAccessList] using hk⟩

theorem AddSlotToAccessList_step (addr : Address) (k : Keeper) (slot : Hash) (hk : k.HasStateError = false) :
    accessListOf (k.AddSlotToAccessList addr slot).view = (accessListOf k.view).AddSlot addr slot ∧
      (k.AddSlotToAccessList addr slot).HasStateError = false :=
  ⟨accessListOf_AddSlotToAccessList hk addr slot,
    by simpa [HasStateError, stateErr_AddSlotToAccessList] using hk⟩

/-- A fold of calls, each one of go-ethereum's operations on the list and none setting the state
    error, is the fold of those operations. -/
theorem accessListOf_foldl {β : Type} (step : Keeper → β → Keeper) (astep : AccessList → β → AccessList)
    (hstep : ∀ k b, k.HasStateError = false →
      accessListOf (step k b).view = astep (accessListOf k.view) b ∧ (step k b).HasStateError = false)
    (l : List β) {k : Keeper} (hk : k.HasStateError = false) :
    accessListOf (l.foldl step k).view = l.foldl astep (accessListOf k.view) ∧
      (l.foldl step k).HasStateError = false := by
  induction l generalizing k with
  | nil => exact ⟨rfl, hk⟩
  | cons b l ih =>
    obtain ⟨hal, hk'⟩ := hstep k b hk
    rw [List.foldl_cons, List.foldl_cons, ← hal]
    exact ih hk'

/-- One tuple of the tx's list: its address, then its slots. -/
theorem tuple_step (k : Keeper) (tuple : Address × List Hash) (hk : k.HasStateError = false) :
    accessListOf (tuple.2.foldl (fun k key => k.AddSlotToAccessList tuple.1 key)
        (k.AddAddressToAccessList tuple.1)).view =
      tuple.2.foldl (fun al key => al.AddSlot tuple.1 key) ((accessListOf k.view).AddAddress tuple.1) ∧
      (tuple.2.foldl (fun k key => k.AddSlotToAccessList tuple.1 key)
        (k.AddAddressToAccessList tuple.1)).HasStateError = false := by
  obtain ⟨h₁, hk₁⟩ := AddAddressToAccessList_step k tuple.1 hk
  rw [← h₁]
  exact accessListOf_foldl _ _ (AddSlotToAccessList_step tuple.1) tuple.2 hk₁

/-- **PrepareAccessList is go-ethereum's PrepareAccessList**: it adds the sender, the destination,
    the precompiles and every address and slot of the tx's list, and nothing else. -/
theorem accessListOf_PrepareAccessList {k : Keeper} (hk : k.HasStateError = false) (sender : Address)
    (dest : Option Address) (precompiles : List Address) (txAccesses : List (Address × List Hash)) :
    accessListOf (k.PrepareAccessList sender dest precompiles txAccesses).view =
      (accessListOf k.view).Prepare sender dest precompiles txAccesses := by
  rw [← AccessList.PrepareSteps_eq]
  unfold PrepareAccessList AccessList.PrepareSteps AccessList.addTuples
  rw [if_neg (by simp [hk])]
  obtain ⟨h₁, hk₁⟩ := AddAddressToAccessList_step k sender hk
  -- the destination, when there is one, then the precompiles, then the tuples
  cases dest with
  | none =>
    obtain ⟨h₃, hk₃⟩ := accessListOf_foldl (fun k addr => k.AddAddressToAccessList addr)
      (fun al addr => al.AddAddress addr) AddAddressToAccessList_step precompiles hk₁
    rw [(accessListOf_foldl _
      (fun al tuple => tuple.2.foldl (fun al key => al.AddSlot tuple.1 key) (al.AddAddress tuple.1))
      tuple_step txAccesses hk₃).1, h₃, h₁]
  | some d =>
    obtain ⟨h₂, hk₂⟩ := AddAddressToAccessList_step _ d hk₁
    obtain ⟨h₃, hk₃⟩ := accessListOf_foldl (fun k addr => k.AddAddressToAccessList addr)
      (fun al addr => al.AddAddress addr) AddAddressToAccessList_step precompiles hk₂
    rw [(accessListOf_foldl _
      (fun al tuple => tuple.2.foldl (fun al key => al.AddSlot tuple.1 key) (al.AddAddress tuple.1))
      tuple_step txAccesses hk₃).1, h₃, h₂, h₁]

end Keeper

/-! ## Messages and transactions -/

/-- A property of lists holds of a view's list, read by keys none of `ps` overlaps. -/
theorem readsOutside_accessList {ps : List Bytes} (P : AccessList → Prop)
    (hps : ∀ p ∈ ps, (¬ p <+: KeyPrefixTransientAccessListAddress ∧
      ¬ KeyPrefixTransientAccessListAddress <+: p) ∧
      (¬ p <+: KeyPrefixTransientAccessListSlot ∧ ¬ KeyPrefixTransientAccessListSlot <+: p)) :
    ReadsOutside ps (fun s => P (accessListOf s)) := by
  intro s s' hkept hs
  rw [accessListOf_of_kept hkept hps]
  exact hs

/-- The keeper the EVM starts on: the list prepared under Berlin, or the same list. -/
theorem accessListOf_preparedKeeper (env : Env) (msg : Message) {k : Keeper} (hk : k.stateErr = none) :
    accessListOf (preparedKeeper env msg k).view = if env.IsBerlin k.BlockHeight then
      (accessListOf k.view).Prepare msg.From msg.To (env.ActivePrecompiles k.BlockHeight) msg.AccessList
    else accessListOf k.view := by
  have hnot : k.HasStateError = false := by simp [HasStateError, hk]
  unfold preparedKeeper
  split
  · exact accessListOf_PrepareAccessList hnot _ _ _ _
  · rfl

section Message

variable {P : AccessList → Prop} (hP : ∀ (op : Op) (al : AccessList), P al → P (op.onAccessList al))
include hP

/-- The EVM's calls and the refund keep what every call keeps; the state error is cleared. -/
theorem Keeper.Inv.accessList_run_refund {Keccak256 : Bytes → Hash} {ops : List Op} {k₁ k₂ k₃ : Keeper}
    (hk₁ : k₁.Inv (fun s => P (accessListOf s))) (hrun : Op.run Keccak256 ops k₁ = .ok k₂)
    (hw : Writes k₂ k₃) (hkept : TransientKept [] k₂.view k₃.view) :
    k₃.ClearStateError.Inv (fun s => P (accessListOf s)) :=
  (Op.run_accessList_inv hP hk₁ hrun).of_transientKept (readsOutside_accessList P (by simp))
    hw.journalWrite hkept

/-- **What every message keeps of the list**: a property of lists that go-ethereum's list
    operations and PrepareAccessList keep holds after ApplyMessage of every view's list, when it
    did before. -/
theorem ApplyMessage_accessList_inv
    (hprep : ∀ sender dest precompiles txAccesses al, P al → P (al.Prepare sender dest precompiles txAccesses))
    {env : Env} {coinbase : Address} {msg : Message} {query : Bool} {k k' : Keeper}
    {r : Except String MsgEthereumTxResponse} (hk : k.Inv (fun s => P (accessListOf s)))
    (h : ApplyMessage env coinbase msg query k = .ok (r, k')) : k'.Inv (fun s => P (accessListOf s)) := by
  rcases ApplyMessage_cases h with ⟨e, -, rfl⟩ | ⟨ops, k₁, k₂, hrun, hw, hkept, rfl⟩
  · exact hk
  refine Keeper.Inv.accessList_run_refund hP ?_ hrun hw hkept
  -- the list is prepared, or left as it is under a state error
  refine hk.of_journalWrite (writes_preparedKeeper env msg k).journalWrite fun hP₀ => ?_
  cases herr : k.stateErr with
  | none =>
    rw [accessListOf_preparedKeeper env msg herr]
    split
    · exact hprep _ _ _ _ _ hP₀
    · exact hP₀
  | some e =>
    have hset : k.HasStateError = true := by simp [HasStateError, herr]
    have hsame : preparedKeeper env msg k = k := by
      unfold preparedKeeper PrepareAccessList
      simp [hset]
    rw [hsame]
    exact hP₀

end Message

/-- **A message under Berlin leaves its prepared entries listed**, when it starts with no open
    snapshot and no state error and returns a response. -/
theorem ApplyMessage_accessList_Prepare {env : Env} {coinbase : Address} {msg : Message} {query : Bool}
    {k k' : Keeper} {res : MsgEthereumTxResponse} (hberlin : env.IsBerlin k.BlockHeight = true)
    (hk : k.stateErr = none) (hsaved : k.journal.saved = [])
    (h : ApplyMessage env coinbase msg query k = .ok (.ok res, k')) :
    k'.Inv (fun s => (accessListOf k.view).Prepare msg.From msg.To (env.ActivePrecompiles k.BlockHeight)
      msg.AccessList ≤ accessListOf s) := by
  rcases ApplyMessage_cases h with ⟨e, he, -⟩ | ⟨ops, k₁, k₂, hrun, hw, hkept, rfl⟩
  · cases he
  refine Keeper.Inv.accessList_run_refund (fun op _ hal => hal.trans (le_onAccessList op _)) ?_ hrun hw hkept
  -- the prepared keeper's journal is its view alone
  obtain ⟨f, hf⟩ := (writes_preparedKeeper env msg k).journalWrite
  refine Keeper.inv_of_saved_nil (by rw [hf, Journal.write_saved, hsaved]) ?_
  rw [accessListOf_preparedKeeper env msg hk, if_pos hberlin]

/-- **No transaction takes an entry off the list**, for hooks that write no transient key: a
    property of lists that go-ethereum's list operations and PrepareAccessList keep holds after
    ApplyTransaction of every view's list, when it did before. -/
theorem ApplyTransaction_accessList_inv {P : AccessList → Prop}
    (hP : ∀ (op : Op) (al : AccessList), P al → P (op.onAccessList al))
    (hprep : ∀ sender dest precompiles txAccesses al, P al → P (al.Prepare sender dest precompiles txAccesses))
    {env : Env} {tx : Transaction} {k k' : Keeper} {r : Except String MsgEthereumTxResponse}
    (hhooks : ∀ hooks ∈ k.hooks, hooks.WritesNoTransient) (hk : k.Inv (fun s => P (accessListOf s)))
    (h : ApplyTransaction env tx k = .ok (r, k')) : k'.Inv (fun s => P (accessListOf s)) :=
  ApplyTransaction_inv_of (readsOutside_accessList P (by decide))
    (fun hk₁ happly => ApplyMessage_accessList_inv hP hprep hk₁ happly) hhooks hk h

/-- **The access list of the block state only grows**: an Ethereum transaction that the message
    server runs on a block state, whatever its outcome, commits a state whose access list holds
    every entry of the block state's, for hooks that write no transient key.  go-ethereum's
    StateDB.Prepare empties the list before each transaction; the keeper has no such call, and
    only the commit of the block empties the transient store. -/
theorem EthereumTx_accessList_grows {env : Env} {ctx : Context MultiStore Event} {msg : MsgEthereumTx}
    {k k' : Keeper} {r : Except String MsgEthereumTxResponse}
    (hhooks : ∀ hooks ∈ k.hooks, hooks.WritesNoTransient) (h : EthereumTx env ctx msg k = .ok (r, k')) :
    accessListOf ctx.store ≤ accessListOf k'.ctxStack.initialCtx.store := by
  unfold EthereumTx at h
  obtain ⟨⟨r₁, k₁⟩, happly, h⟩ := Except.bind_eq_ok h
  have hk₀ : (k.WithContext ctx).Inv (fun s => accessListOf ctx.store ≤ accessListOf s) :=
    Keeper.Inv.WithContext (le_refl (accessListOf ctx.store)) k
  -- the context switch keeps the hooks
  have hk₁ := ApplyTransaction_accessList_inv (P := fun al => accessListOf ctx.store ≤ al)
    (fun op _ hal => hal.trans (le_onAccessList op _)) (fun _ _ _ _ _ hal => hal.trans (AccessList.le_Prepare _ _ _ _ _))
    (k := k.WithContext ctx) hhooks hk₀ happly
  -- the message server passes the keeper on, whatever the response
  have hk' : k' = k₁ := by
    cases r₁ <;> (cases h; rfl)
  rw [hk']
  exact hk₁.store

/-- Two calls in one block: the first leaves its destination listed in the block state, and the
    second, to another address, commits a list that still holds it. -/
theorem EthereumTx_accessList_grows_call :
    let msg₁ : MsgEthereumTx := ⟨signedCall, ""⟩
    let msg₂ : MsgEthereumTx := ⟨signedCallOther, ""⟩
    ∃ r₁ k₁ r k', EthereumTx runEnv ⟨runStore 100000, []⟩ msg₁ (runKeeper ∅ none TracerJSON) =
        .ok (r₁, k₁) ∧ 0x4000 ∈ (accessListOf k₁.ctxStack.initialCtx.store).addresses ∧
      EthereumTx runEnv ⟨k₁.ctxStack.initialCtx.store, []⟩ msg₂ k₁ = .ok (r, k') ∧
      accessListOf k₁.ctxStack.initialCtx.store ≤ accessListOf k'.ctxStack.initialCtx.store := by
  intro msg₁ msg₂
  -- both calls evaluated at once, with the first one's hooks and listed destination
  have hboth := show (EthereumTx runEnv ⟨runStore 100000, []⟩ msg₁ (runKeeper ∅ none TracerJSON) >>=
      fun rk₁ => (EthereumTx runEnv ⟨rk₁.2.ctxStack.initialCtx.store, []⟩ msg₂ rk₁.2).map fun _ =>
        decide (rk₁.2.hooks = none ∧ rk₁.2.ctxStack.initialCtx.store.Has
          (.transient (KeyPrefixTransientAccessListAddress ++ Address.Bytes 0x4000)) = true)) =
      .ok true by decide +kernel
  obtain ⟨⟨r₁, k₁⟩, hrun₁, hrest⟩ := Except.bind_eq_ok hboth
  obtain ⟨⟨r, k'⟩, hrun, hflags⟩ := Except.map_eq_ok hrest
  obtain ⟨hhooks, hlisted⟩ := of_decide_eq_true hflags
  have hnohooks : ∀ hooks ∈ k₁.hooks, hooks.WritesNoTransient := by
    rw [hhooks]
    exact fun _ h => absurd h (Option.not_mem_none _)
  have hgrows := EthereumTx_accessList_grows hnohooks hrun
  exact ⟨r₁, k₁, r, k', hrun₁, hlisted, hrun, hgrows⟩

/-- **A transaction's prepared entries stay listed for the rest of the block**: a transaction under
    Berlin, without hooks and without a state error, that returns a response commits a state
    whose access list holds its sender, its destination, the precompiles and its own list.  The
    next transaction of the block starts with all of them warm, where go-ethereum would start it
    with an empty list. -/
theorem ApplyTransaction_accessList_carries_over {env : Env} {tx : Transaction} {k k' : Keeper}
    {msg : Message} {res : MsgEthereumTxResponse} (hhooks : k.hooks = none) (hk : k.stateErr = none)
    (hberlin : env.IsBerlin k.BlockHeight = true) (hmsg : tx.AsMessage env k.BlockHeight = .ok msg)
    (h : ApplyTransaction env tx k = .ok (.ok res, k')) :
    (accessListOf k.view).Prepare msg.From msg.To (env.ActivePrecompiles k.BlockHeight) msg.AccessList ≤
      accessListOf k'.ctxStack.initialCtx.store := by
  unfold ApplyTransaction at h
  dsimp only at h
  -- every refusal before the message returns an error
  split at h
  · cases h
  split at h
  · cases h
  split at h
  · cases h
  · cases h
  rename_i msg' coinbase hmsg' hcoinbase
  rw [hmsg] at hmsg'
  cases hmsg'
  obtain ⟨_, -, h⟩ := Except.bind_eq_ok h
  -- the tx hash: a transient key outside the list
  have hheight₁ : (k.SetTxHashTransient (env.TxHash tx)).BlockHeight = k.BlockHeight :=
    (stackOnly_call _ k).BlockHeight
  have hal₁ : accessListOf (k.SetTxHashTransient (env.TxHash tx)).view = accessListOf k.view :=
    accessListOf_of_kept (transientKept_SetTxHashTransient _ k) (by decide)
  have hhooks₁ : (k.SetTxHashTransient (env.TxHash tx)).hooks = none := (hooks_call _ k).trans hhooks
  split at h
  · obtain ⟨_, hthrow, -⟩ := Except.bind_eq_ok h
    cases hthrow
  rename_i hempty
  have hsaved : (k.SetTxHashTransient (env.TxHash tx)).journal.saved = [] := by
    rw [← List.length_eq_zero_iff, length_journal_saved]
    simpa [ContextStack.IsEmpty] using hempty
  -- no hooks: no snapshot
  rw [hhooks₁] at h
  simp only [Option.isSome_none, Bool.false_eq_true, if_false] at h
  obtain ⟨⟨r₃, k₃⟩, happly, h⟩ := Except.bind_eq_ok h
  cases r₃ with
  | error err => cases h
  | ok res₃ =>
    obtain ⟨k₄, hinc, h⟩ := Except.bind_eq_ok h
    obtain ⟨⟨res₅, k₅⟩, hpost, h⟩ := Except.bind_eq_ok h
    cases h
    have hk₃ := ApplyMessage_accessList_Prepare (k := k.SetTxHashTransient (env.TxHash tx))
      (by rw [hheight₁]; exact hberlin) ((stateErr_call _ k).trans hk) hsaved happly
    rw [hal₁, hheight₁] at hk₃
    have hhooks₃ : ∀ hooks ∈ k₃.hooks, hooks.WritesNoTransient := by
      rw [ApplyMessage_hooks happly, hhooks₁]
      exact fun _ hh => absurd hh (by simp)
    exact (hk₃.afterMessage (readsOutside_accessList _ (by decide)) hhooks₃ hinc hpost).store

/-- A call with its own access list, an address and one of its slots. -/
theorem ApplyTransaction_accessList_carries_over_call :
    let tx : Transaction := signedAccessListCall
    let k := runKeeper (runStore 100000) none TracerJSON
    ∃ msg res k', tx.AsMessage runEnv k.BlockHeight = .ok msg ∧
      ApplyTransaction runEnv tx k = .ok (.ok res, k') ∧
      (accessListOf k.view).Prepare msg.From msg.To (runEnv.ActivePrecompiles k.BlockHeight)
        msg.AccessList ≤ accessListOf k'.ctxStack.initialCtx.store := by
  intro tx k
  obtain ⟨msg, hmsg, -⟩ := Except.map_eq_ok
    (show (tx.AsMessage runEnv k.BlockHeight).map (fun _ => ()) = .ok () by decide +kernel)
  obtain ⟨⟨r, k'⟩, hrun, hok⟩ := Except.map_eq_ok
    (show (ApplyTransaction runEnv tx k).map (fun r => r.1.toBool) = .ok true by decide +kernel)
  cases r with
  | error e => cases hok
  | ok res =>
    exact ⟨msg, res, k', hmsg, hrun, ApplyTransaction_accessList_carries_over rfl rfl rfl hmsg hrun⟩

end AnconEvm.Evm
