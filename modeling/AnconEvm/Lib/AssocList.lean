import AnconEvm.Lib.KVStore
/-
  Association lists: lists of (key, value) entries, as a store's iterator lists them and as a
  loop writes them back one at a time.

  Writing the entries of a list into a function in order (`Function.update`, the later write of
  a key wins) gives each key the value of its entry when the keys are distinct
  (`foldl_update_of_mem`), and leaves a key with no entry alone (`foldl_update_of_not_mem`).
  The keys of a store's entries are distinct, and so is whatever a `filterMap` reads off them
  when the store's key can be recovered from it (`nodup_filterMap_of_key`).  What an iterator
  lists in an order is determined by its members: two lists ordered by one asymmetric relation
  with the same members are equal (`eq_of_pairwise_of_mem_iff`).
-/

namespace KV

variable {α β γ : Type}

section Update

variable [DecidableEq α]

/-- A key with no entry keeps its value. -/
theorem foldl_update_of_not_mem {l : List (α × β)} {a : α} (h : a ∉ l.map Prod.fst) (f : α → β) :
    l.foldl (fun f kv => Function.update f kv.1 kv.2) f a = f a := by
  induction l generalizing f with
  | nil => rfl
  | cons kv l ih =>
    rw [List.map_cons, List.mem_cons, not_or] at h
    rw [List.foldl_cons, ih h.2, Function.update_of_ne h.1]

/-- **A key gets the value of its entry** when the keys are distinct: no later entry writes it
    again. -/
theorem foldl_update_of_mem {l : List (α × β)} (hnd : (l.map Prod.fst).Nodup) {a : α} {b : β}
    (h : (a, b) ∈ l) (f : α → β) : l.foldl (fun f kv => Function.update f kv.1 kv.2) f a = b := by
  induction l generalizing f with
  | nil => cases h
  | cons kv l ih =>
    rw [List.map_cons, List.nodup_cons] at hnd
    rw [List.foldl_cons]
    rcases List.mem_cons.mp h with rfl | hmem
    · -- the entry is the first, and no later one has its key
      rw [foldl_update_of_not_mem hnd.1, Function.update_self]
    · exact ih hnd.2 hmem _

end Update

/-- **What a `filterMap` reads off entries with distinct keys is distinct** when the key of an
    entry can be recovered from what is read off it. -/
theorem nodup_filterMap_of_key {l : List (α × γ)} (hl : (l.map Prod.fst).Nodup)
    {f : α × γ → Option β} (key : β → α) (hkey : ∀ p ∈ l, ∀ b ∈ f p, key b = p.1) :
    (l.filterMap f).Nodup := by
  induction l with
  | nil => exact List.nodup_nil
  | cons p l ih =>
    rw [List.map_cons, List.nodup_cons] at hl
    have ih' := ih hl.2 fun p' hp' => hkey p' (List.mem_cons_of_mem p hp')
    rw [List.filterMap_cons]
    cases hp : f p with
    | none => exact ih'
    | some b =>
      refine List.nodup_cons.mpr ⟨fun hb => ?_, ih'⟩
      -- another entry read as `b` would have the key of `p`
      obtain ⟨p', hp', hfp'⟩ := List.mem_filterMap.mp hb
      have hkey' : key b = p'.1 := hkey p' (List.mem_cons_of_mem p hp') b hfp'
      have hkeyp : key b = p.1 := hkey p List.mem_cons_self b hp
      exact hl.1 (List.mem_map.mpr ⟨p', hp', hkey'.symm.trans hkeyp⟩)

/-- The keys of a store's entries are distinct. -/
theorem nodup_keys_toList [Ord α] [Std.TransOrd α] [Std.LawfulEqOrd α] (s : Store α β) :
    (s.toList.map Prod.fst).Nodup := by
  rw [List.nodup_iff_pairwise_ne, List.pairwise_map]
  refine (Std.ExtTreeMap.distinct_keys_toList (t := s)).imp fun hne heq => hne ?_
  rw [heq]
  exact Std.ReflCmp.compare_self

/-- **Two lists ordered by an asymmetric relation are equal when they have the same members**:
    the order leaves no room for repeats, and fixes the arrangement. -/
theorem eq_of_pairwise_of_mem_iff {r : α → α → Prop} (hasymm : ∀ a b, r a b → ¬ r b a)
    {xs ys : List α} (hx : xs.Pairwise r) (hy : ys.Pairwise r) (hmem : ∀ a, a ∈ xs ↔ a ∈ ys) :
    xs = ys := by
  have hnodup : ∀ {l : List α}, l.Pairwise r → l.Nodup := fun hl =>
    hl.imp fun {a b} hab (heq : a = b) => hasymm a b hab (heq ▸ hab)
  have hperm : xs.Perm ys := (List.perm_ext_iff_of_nodup (hnodup hx) (hnodup hy)).mpr hmem
  exact hperm.eq_of_pairwise (fun a b _ _ hab hba => absurd hba (hasymm a b hab)) hx hy

end KV
