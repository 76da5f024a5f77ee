import AnconEvm.Lib.BigEndian
/-
  The order in which a key-value store iterates byte keys: lexicographic, byte by byte.

  Two facts make composite keys iterate as their parts: keys that agree on a prefix of one length
  compare as what follows it (`compare_append_of_length_eq`), and fixed-width big-endian numbers
  compare as the numbers (`compare_encodeFixed`).  A key `prefix ++ encodeFixed n i` therefore
  iterates in the order of `i`.
-/

namespace BigEndian

/-- **Lists that agree in length up to a point compare there first**, then by what follows. -/
theorem compare_append_of_length_eq {α : Type} [Ord α] :
    ∀ {u v : List α}, u.length = v.length → ∀ a b : List α,
      compare (u ++ a) (v ++ b) = (compare u v).then (compare a b)
  | [], [], _, a, b => by rw [List.nil_append, List.nil_append, List.compare_nil_nil]; rfl
  | x :: xs, y :: ys, h, a, b => by
    have hlen : xs.length = ys.length := by simpa using h
    rw [List.cons_append, List.cons_append, List.compare_cons_cons,
      compare_append_of_length_eq hlen a b, List.compare_cons_cons, Ordering.then_assoc]

/-- A byte compares as its value. -/
theorem compare_UInt8 (a b : UInt8) : compare a b = compare a.toNat b.toNat := by
  simp [compare, compareOfLessAndEq, UInt8.lt_iff_toNat_lt, UInt8.toNat_inj]

/-- Comparing by the high part, then by the low byte, is comparing the numbers. -/
theorem compare_div_then_mod (x y : Nat) :
    (compare (x / 256) (y / 256)).then (compare (x % 256) (y % 256)) = compare x y := by
  rcases lt_trichotomy (x / 256) (y / 256) with hlt | heq | hgt
  · -- the high parts decide
    rw [Nat.compare_eq_lt.mpr hlt, Nat.compare_eq_lt.mpr (show x < y by omega)]
    rfl
  · -- equal high parts leave it to the low bytes
    rw [Nat.compare_eq_eq.mpr heq]
    show compare (x % 256) (y % 256) = compare x y
    rcases lt_trichotomy (x % 256) (y % 256) with hl | he | hg
    · rw [Nat.compare_eq_lt.mpr hl, Nat.compare_eq_lt.mpr (show x < y by omega)]
    · rw [Nat.compare_eq_eq.mpr he, Nat.compare_eq_eq.mpr (show x = y by omega)]
    · rw [Nat.compare_eq_gt.mpr hg, Nat.compare_eq_gt.mpr (show y < x by omega)]
  · rw [Nat.compare_eq_gt.mpr hgt, Nat.compare_eq_gt.mpr (show y < x by omega)]
    rfl

/-- **The fixed-width encoding orders as the values it encodes.** -/
theorem compare_encodeFixed : ∀ {n x y : Nat}, x < 256 ^ n → y < 256 ^ n →
    compare (encodeFixed n x) (encodeFixed n y) = compare x y
  | 0, x, y, hx, hy => by
    have hx0 : x = 0 := by simpa using hx
    have hy0 : y = 0 := by simpa using hy
    subst hx0 hy0
    rfl
  | n + 1, x, y, hx, hy => by
    have hx' : x / 256 < 256 ^ n := Nat.div_lt_of_lt_mul (by rw [← Nat.pow_succ']; exact hx)
    have hy' : y / 256 < 256 ^ n := Nat.div_lt_of_lt_mul (by rw [← Nat.pow_succ']; exact hy)
    have hlen : (encodeFixed n (x / 256)).length = (encodeFixed n (y / 256)).length := by
      rw [length_encodeFixed, length_encodeFixed]
    rw [encodeFixed, encodeFixed, compare_append_of_length_eq hlen, compare_encodeFixed hx' hy',
      List.compare_cons_cons, List.compare_nil_nil, compare_UInt8, UInt8.toNat_ofNat',
      UInt8.toNat_ofNat', Ordering.then_eq]
    exact compare_div_then_mod x y

end BigEndian
