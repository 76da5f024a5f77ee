import Mathlib.Logic.Function.Basic
import Mathlib.Data.List.Basic
/-
  Byte-array bloom filters.

  A filter of `n` bytes records an item by OR-ing a few masks into a few of its bytes, the
  item's `bits` (byte index, mask); `test` asks whether every mask of an item is set in its
  byte.  Bits are only ever set, so a filter has NO FALSE NEGATIVES: an item added to it, at
  any point of a run of additions, tests positive at the end (`test_addAll_of_mem`).  Filters
  merge bytewise (`or`), and a filter recorded in batches is the merge of the batches'
  (`addAll_empty_append`).  Which bits an item gets is the user's business (a hash of the
  item); nothing here depends on it.
-/

namespace Bloom

variable {n : Nat}

/-- A bloom filter of `n` bytes. -/
abbrev Filter (n : Nat) := Fin n → UInt8

/-- The filter with no bit set. -/
def empty : Filter n := fun _ => 0

/-- An item's mask is set in its byte. -/
def Covers (b : Filter n) (p : Fin n × UInt8) : Prop := p.2 &&& b p.1 = p.2

/-- OR one mask into its byte. -/
def set (b : Filter n) (p : Fin n × UInt8) : Filter n := Function.update b p.1 (b p.1 ||| p.2)

/-- Record an item: OR each of its masks into its byte. -/
def add (b : Filter n) (bits : List (Fin n × UInt8)) : Filter n := bits.foldl set b

/-- Record items in order. -/
def addAll (b : Filter n) (items : List (List (Fin n × UInt8))) : Filter n := items.foldl add b

/-- Every mask of the item is set in its byte. -/
def test (b : Filter n) (bits : List (Fin n × UInt8)) : Bool :=
  bits.all fun p => p.2 == (p.2 &&& b p.1)

theorem test_eq_true_iff (b : Filter n) (bits : List (Fin n × UInt8)) :
    test b bits = true ↔ ∀ p ∈ bits, Covers b p := by
  simp only [test, List.all_eq_true, beq_iff_eq, Covers]
  constructor
  · intro h p hp
    exact (h p hp).symm
  · intro h p hp
    exact (h p hp).symm

/-- A mask is set in the byte it was OR-ed into. -/
theorem and_or_self (v x : UInt8) : v &&& (x ||| v) = v := by
  apply UInt8.toBitVec_inj.mp
  simp only [UInt8.toBitVec_and, UInt8.toBitVec_or]
  ext i hi
  simp only [BitVec.getElem_and, BitVec.getElem_or]
  cases v.toBitVec[i] <;> simp

/-- A mask set in a byte stays set when more bits are OR-ed in. -/
theorem and_or_of_and (v x w : UInt8) (h : v &&& x = v) : v &&& (x ||| w) = v := by
  have hbits := congrArg UInt8.toBitVec h
  apply UInt8.toBitVec_inj.mp
  simp only [UInt8.toBitVec_and, UInt8.toBitVec_or] at hbits ⊢
  ext i hi
  have hi' := congrArg (fun b => b[i]) hbits
  simp only [BitVec.getElem_and] at hi'
  simp only [BitVec.getElem_and, BitVec.getElem_or]
  cases hv : v.toBitVec[i] with
  | false => simp
  | true =>
    rw [hv] at hi'
    simp only [Bool.true_and] at hi'
    simp [hi']

theorem covers_set_self (b : Filter n) (p : Fin n × UInt8) : Covers (set b p) p := by
  simp only [Covers, set, Function.update_self]
  exact and_or_self p.2 (b p.1)

/-- Setting a mask keeps every mask that was set. -/
theorem covers_set_of_covers {b : Filter n} {p : Fin n × UInt8} (q : Fin n × UInt8)
    (h : Covers b p) : Covers (set b q) p := by
  unfold Covers set at *
  by_cases hpq : p.1 = q.1
  · rw [hpq] at h ⊢
    rw [Function.update_self]
    exact and_or_of_and p.2 (b q.1) q.2 h
  · rw [Function.update_of_ne hpq]
    exact h

/-- Adding an item keeps every mask that was set. -/
theorem covers_add_of_covers {b : Filter n} {p : Fin n × UInt8} (bits : List (Fin n × UInt8))
    (h : Covers b p) : Covers (add b bits) p := by
  induction bits generalizing b with
  | nil => exact h
  | cons q bits ih => exact ih (covers_set_of_covers q h)

/-- An added item's masks are set. -/
theorem covers_add_of_mem (b : Filter n) {bits : List (Fin n × UInt8)} {p : Fin n × UInt8}
    (hp : p ∈ bits) : Covers (add b bits) p := by
  induction bits generalizing b with
  | nil => cases hp
  | cons q bits ih =>
    rcases List.mem_cons.mp hp with rfl | hp
    · exact covers_add_of_covers bits (covers_set_self b p)
    · exact ih (set b q) hp

theorem test_add_of_test {b : Filter n} {bits : List (Fin n × UInt8)} (bits' : List (Fin n × UInt8))
    (h : test b bits = true) : test (add b bits') bits = true := by
  rw [test_eq_true_iff] at h ⊢
  intro p hp
  exact covers_add_of_covers bits' (h p hp)

theorem test_add_self (b : Filter n) (bits : List (Fin n × UInt8)) : test (add b bits) bits = true := by
  rw [test_eq_true_iff]
  intro p hp
  exact covers_add_of_mem b hp

/-- A run of additions keeps every item that tested positive. -/
theorem test_addAll_of_test {b : Filter n} {bits : List (Fin n × UInt8)}
    (items : List (List (Fin n × UInt8))) (h : test b bits = true) :
    test (addAll b items) bits = true := by
  induction items generalizing b with
  | nil => exact h
  | cons item items ih => exact ih (test_add_of_test item h)

/-- **No false negatives**: an item recorded at any point of a run of additions tests positive
    at its end. -/
theorem test_addAll_of_mem (b : Filter n) {items : List (List (Fin n × UInt8))}
    {bits : List (Fin n × UInt8)} (h : bits ∈ items) : test (addAll b items) bits = true := by
  induction items generalizing b with
  | nil => cases h
  | cons item items ih =>
    rcases List.mem_cons.mp h with rfl | h
    · -- recorded now, and kept by every later addition
      exact test_addAll_of_test items (test_add_self b bits)
    · exact ih (add b item) h

/-! ## Merging filters

  A bit set in a merge is set in one of the two filters, so recording a run of items from the
  empty filter, then another run, gives the merge of the two runs' filters
  (`addAll_empty_append`): a filter of many batches of items is the merge of the batches' own. -/

/-- Two filters merged: each byte the OR of theirs. -/
def or (a b : Filter n) : Filter n := fun i => a i ||| b i

@[simp] theorem or_empty (a : Filter n) : or a empty = a := by
  funext i
  exact UInt8.or_zero

/-- Setting a mask in the second of two merged filters sets it in the merge. -/
theorem set_or (a b : Filter n) (p : Fin n × UInt8) : set (or a b) p = or a (set b p) := by
  funext i
  by_cases hi : i = p.1
  · subst hi
    simp only [set, or, Function.update_self]
    exact UInt8.or_assoc _ _ _
  · simp only [set, or, Function.update_of_ne hi]

theorem add_or (a b : Filter n) (bits : List (Fin n × UInt8)) : add (or a b) bits = or a (add b bits) := by
  induction bits generalizing b with
  | nil => rfl
  | cons p bits ih =>
    show add (set (or a b) p) bits = or a (add (set b p) bits)
    rw [set_or]
    exact ih (set b p)

theorem addAll_or (a b : Filter n) (items : List (List (Fin n × UInt8))) :
    addAll (or a b) items = or a (addAll b items) := by
  induction items generalizing b with
  | nil => rfl
  | cons item items ih =>
    show addAll (add (or a b) item) items = or a (addAll (add b item) items)
    rw [add_or]
    exact ih (add b item)

/-- **Recording two runs of items from the empty filter merges their filters.** -/
theorem addAll_empty_append (items items' : List (List (Fin n × UInt8))) :
    addAll empty (items ++ items') = or (addAll empty items) (addAll empty items') := by
  rw [addAll, List.foldl_append, ← addAll, ← addAll_or, or_empty]
  rfl

/-! ## A filter's bytes, in order -/

theorem ofFn_or (a b : Filter n) :
    List.ofFn (or a b) = List.zipWith (· ||| ·) (List.ofFn a) (List.ofFn b) := by
  apply List.ext_getElem
  · simp
  · intro i h₁ h₂
    simp [or]

theorem ofFn_empty : List.ofFn (empty : Filter n) = List.replicate n 0 := by
  apply List.ext_getElem
  · simp
  · intro i h₁ h₂
    simp [empty]

@[simp] theorem getD_ofFn (b : Filter n) (i : Fin n) : (List.ofFn b).getD i 0 = b i := by
  simp

end Bloom
