import Mathlib
/-
  Key-value stores and write buffers.

  A `Store K V` is a finite map ordered by the keys' `compare`, so that it can be iterated in key
  order (as a KV store's iterator does) and two stores with the same lookups are equal
  (`Delta.smul_ext`).  A `Delta K V` is a WRITE BUFFER over such a store: for every key it touched it
  records `some v` (the key was set to `v`) or `none` (the key was deleted).

  Buffers form a monoid under "write `c` after `p`" (`c * p`, the later write wins), and the
  monoid ACTS on stores by flushing the buffer into the store (`d • s`).  The two laws of the
  action say exactly what a cache layer needs:

  * `(c * p) • s = c • p • s` — flushing a child buffer into its parent buffer, then the parent
    into the store, is flushing both in turn (`mul_smul`);
  * `1 • s = s` — an untouched buffer changes nothing (`one_smul`).

  Every lookup through a buffer is one `@[simp]` rule (`getElem?_smul`, `writes_mul`), so later
  proofs never unfold `apply` or the buffer product.
-/

namespace KV

open Std

/-- A finite key-value store, iterated in key order. -/
abbrev Store (K V : Type) [Ord K] := ExtTreeMap K V compare

/-- A write buffer: each touched key maps to `some v` (set to `v`) or `none` (deleted). -/
structure Delta (K V : Type) [Ord K] where
  /-- The writes recorded in the buffer, one per touched key. -/
  writes : ExtTreeMap K (Option V) compare

variable {K V : Type} [Ord K] [TransOrd K]

namespace Delta

/-- The buffer that sets `k` to `v`. -/
def set (k : K) (v : V) : Delta K V := ⟨(∅ : ExtTreeMap K (Option V) compare).insert k (some v)⟩

/-- The buffer that deletes `k`. -/
def delete (k : K) : Delta K V := ⟨(∅ : ExtTreeMap K (Option V) compare).insert k none⟩

/-- `c * p`: the writes of `p`, then the writes of `c` (the later write of a key wins). -/
instance : Mul (Delta K V) := ⟨fun c p => ⟨p.writes ∪ c.writes⟩⟩

/-- The empty buffer. -/
instance : One (Delta K V) := ⟨⟨∅⟩⟩

@[simp] theorem writes_mul (c p : Delta K V) (k : K) :
    (c * p).writes[k]? = c.writes[k]?.or p.writes[k]? :=
  ExtTreeMap.getElem?_union

@[simp] theorem writes_one (k : K) : (1 : Delta K V).writes[k]? = none :=
  ExtTreeMap.getElem?_empty

variable [LawfulEqOrd K]

theorem ext {d d' : Delta K V} (h : ∀ k : K, d.writes[k]? = d'.writes[k]?) : d = d' := by
  cases d; cases d'
  congr 1
  exact ExtTreeMap.ext_getElem? h

@[simp] theorem writes_set [DecidableEq K] (k k' : K) (v : V) :
    (set k v).writes[k']? = if k = k' then some (some v) else none := by
  simp [set, ExtTreeMap.getElem?_insert]

@[simp] theorem writes_delete [DecidableEq K] (k k' : K) :
    (delete k : Delta K V).writes[k']? = if k = k' then some none else none := by
  simp [delete, ExtTreeMap.getElem?_insert]

instance : Monoid (Delta K V) where
  mul_assoc a b c := ext fun k => by simp [Option.or_assoc]
  one_mul a := ext fun k => by simp
  mul_one a := ext fun k => by simp

/-- Flush the buffer into a store: keys the buffer touched take its value (or disappear), the
    others keep the store's. -/
def apply (d : Delta K V) (s : Store K V) : Store K V :=
  (s.filter fun k _ => !d.writes.contains k) ∪ d.writes.filterMap fun _ o => o

instance : SMul (Delta K V) (Store K V) := ⟨apply⟩

/-- **The lookup rule of a flushed buffer**: the buffer's write if it touched the key, else the
    store's value. -/
@[simp] theorem getElem?_smul (d : Delta K V) (s : Store K V) (k : K) :
    (d • s)[k]? = d.writes[k]?.getD s[k]? := by
  show (apply d s)[k]? = _
  simp only [apply, ExtTreeMap.getElem?_union, ExtTreeMap.getElem?_filterMap',
    ExtTreeMap.getElem?_filter', ExtTreeMap.contains_eq_isSome_getElem?]
  cases d.writes[k]? with
  | none => cases s[k]? <;> simp [Option.filter_some]
  | some o => cases o <;> simp

theorem smul_ext {s s' : Store K V} (h : ∀ k : K, s[k]? = s'[k]?) : s = s' :=
  ExtTreeMap.ext_getElem? h

instance : MulAction (Delta K V) (Store K V) where
  one_smul s := smul_ext fun k => by simp
  mul_smul c p s := smul_ext fun k => by
    simp only [getElem?_smul, writes_mul]
    cases c.writes[k]? <;> simp

end Delta

end KV
