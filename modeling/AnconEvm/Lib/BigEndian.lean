import Mathlib
/-
  Big-endian byte encodings of natural numbers.

  Two encodings are in use by key-value stores: a FIXED-width one (`encodeFixed n x`, the `n` low
  bytes of `x`, most significant first) and the SHORTEST one (`encodeMin x`, no leading zero byte,
  hence EMPTY for `0`).  Both are read back by `decode`.  The shortest encoding is Mathlib's
  base-256 digit list (`Nat.digits 256`) turned into bytes, so its round trip is
  `Nat.ofDigits_digits`.

  The fact a store's reader has to respect is `encodeMin_eq_nil_iff`: the shortest encoding of
  `0` is indistinguishable from "no bytes at all".

  Byte strings of one width are their values (`encodeFixed_decode`, `eq_of_decode_eq`), so
  bitwise operations on values are the bytewise ones on strings of that width
  (`decode_zipWith_or`), and the shortest encoding padded with zero bytes on the left is the
  fixed one (`replicate_append_encodeMin`).
-/

namespace BigEndian

/-- The value of a big-endian byte string. -/
def decode (bz : List UInt8) : Nat := Nat.ofDigits 256 (bz.reverse.map UInt8.toNat)

/-- The shortest big-endian encoding of `x`: no leading zero byte, and empty for `0`. -/
def encodeMin (x : Nat) : List UInt8 := ((Nat.digits 256 x).map UInt8.ofNat).reverse

/-- The `n`-byte big-endian encoding of `x mod 256 ^ n`. -/
def encodeFixed : Nat → Nat → List UInt8
  | 0, _ => []
  | n + 1, x => encodeFixed n (x / 256) ++ [UInt8.ofNat x]

@[simp] theorem decode_nil : decode [] = 0 := rfl

/-- Appending a byte shifts the value by one byte. -/
theorem decode_append_singleton (bz : List UInt8) (b : UInt8) :
    decode (bz ++ [b]) = b.toNat + 256 * decode bz := by
  simp [decode, Nat.ofDigits_cons]

@[simp] theorem length_encodeFixed (n x : Nat) : (encodeFixed n x).length = n := by
  induction n generalizing x with
  | zero => rfl
  | succ n ih => simp [encodeFixed, ih]

/-- The fixed-width encoding keeps exactly the value modulo `256 ^ n`. -/
theorem decode_encodeFixed (n x : Nat) : decode (encodeFixed n x) = x % 256 ^ n := by
  induction n generalizing x with
  | zero => simp [encodeFixed, Nat.mod_one]
  | succ n ih =>
    have hbyte : (UInt8.ofNat x).toNat = x % 256 := UInt8.toNat_ofNat'
    -- the low byte is `x % 256`, the bytes above it encode `x / 256`
    rw [encodeFixed, decode_append_singleton, ih, hbyte, Nat.pow_succ', Nat.mod_mul]

/-- A value below `256 ^ n` survives its fixed-width encoding. -/
theorem decode_encodeFixed_of_lt {n x : Nat} (h : x < 256 ^ n) : decode (encodeFixed n x) = x := by
  rw [decode_encodeFixed, Nat.mod_eq_of_lt h]

@[simp] theorem decode_encodeMin (x : Nat) : decode (encodeMin x) = x := by
  have hlt : ∀ d ∈ Nat.digits 256 x, d < 256 := fun d hd => Nat.digits_lt_base (by norm_num) hd
  have hmap : ((Nat.digits 256 x).map UInt8.ofNat).map UInt8.toNat = Nat.digits 256 x := by
    rw [List.map_map]
    conv_rhs => rw [← List.map_id (Nat.digits 256 x)]
    refine List.map_congr_left fun d hd => ?_
    simp [Nat.mod_eq_of_lt (hlt d hd)]
  simp [decode, encodeMin, hmap, Nat.ofDigits_digits]

/-- **The shortest encoding of `0` is empty**, and no other value's is. -/
@[simp] theorem encodeMin_eq_nil_iff (x : Nat) : encodeMin x = [] ↔ x = 0 := by
  simp [encodeMin, Nat.digits_eq_nil_iff_eq_zero]

/-- A value is below `256` to the power of its length. -/
theorem decode_lt (bz : List UInt8) : decode bz < 256 ^ bz.length := by
  have hdigits : ∀ d ∈ bz.reverse.map UInt8.toNat, d < 256 := by
    intro d hd
    obtain ⟨b, -, rfl⟩ := List.mem_map.mp hd
    exact b.toNat_lt
  have hlt := Nat.ofDigits_lt_base_pow_length (by norm_num) hdigits
  rw [List.length_map, List.length_reverse] at hlt
  exact hlt

/-- Leading zero bytes add nothing. -/
theorem decode_replicate_zero_append (m : Nat) (bz : List UInt8) :
    decode (List.replicate m 0 ++ bz) = decode bz := by
  induction bz using List.reverseRecOn with
  | nil =>
    induction m with
    | zero => rfl
    | succ m ih =>
      rw [List.replicate_succ', List.append_nil, decode_append_singleton] at *
      simpa using ih
  | append_singleton bz b ih =>
    rw [← List.append_assoc, decode_append_singleton, decode_append_singleton, ih]

/-- **The fixed-width encoding reads back every byte string of that width.** -/
theorem encodeFixed_decode (bz : List UInt8) : encodeFixed bz.length (decode bz) = bz := by
  induction bz using List.reverseRecOn with
  | nil => rfl
  | append_singleton bz b ih =>
    have hlow : (b.toNat + 256 * decode bz) % 256 = b.toNat := by
      have := b.toNat_lt
      omega
    have hhigh : (b.toNat + 256 * decode bz) / 256 = decode bz := by
      have := b.toNat_lt
      omega
    rw [List.length_append, List.length_singleton, encodeFixed, decode_append_singleton, hhigh, ih]
    congr
    apply UInt8.toNat_inj.mp
    rw [UInt8.toNat_ofNat', hlow]

/-- Byte strings of one width are equal when their values are. -/
theorem eq_of_decode_eq {bz bz' : List UInt8} (hlen : bz.length = bz'.length)
    (h : decode bz = decode bz') : bz = bz' := by
  rw [← encodeFixed_decode bz, ← encodeFixed_decode bz', hlen, h]

/-- **The fixed-width encoding of an OR is the bytewise OR.** -/
theorem encodeFixed_or (n x y : Nat) :
    encodeFixed n (x ||| y) = List.zipWith (· ||| ·) (encodeFixed n x) (encodeFixed n y) := by
  induction n generalizing x y with
  | zero => rfl
  | succ n ih =>
    have hhigh : (x ||| y) / 256 = x / 256 ||| y / 256 := Nat.or_div_two_pow (n := 8)
    have hlow : UInt8.ofNat (x ||| y) = UInt8.ofNat x ||| UInt8.ofNat y := by
      apply UInt8.toNat_inj.mp
      rw [UInt8.toNat_or, UInt8.toNat_ofNat', UInt8.toNat_ofNat', UInt8.toNat_ofNat']
      exact Nat.or_mod_two_pow (n := 8)
    rw [encodeFixed, encodeFixed, encodeFixed, hhigh, ih, hlow,
      List.zipWith_append (by simp)]
    rfl

/-- **Bytewise OR is the OR of the values.** -/
theorem decode_zipWith_or {bz bz' : List UInt8} (hlen : bz.length = bz'.length) :
    decode (List.zipWith (· ||| ·) bz bz') = decode bz ||| decode bz' := by
  have hor : decode bz ||| decode bz' < 256 ^ bz.length := by
    have h₁ := decode_lt bz
    have h₂ := decode_lt bz'
    rw [← hlen] at h₂
    rw [show (256 : Nat) ^ bz.length = 2 ^ (8 * bz.length) by rw [Nat.pow_mul]] at *
    exact Nat.or_lt_two_pow h₁ h₂
  conv_lhs => rw [← encodeFixed_decode bz, ← encodeFixed_decode bz', ← hlen, ← encodeFixed_or]
  exact decode_encodeFixed_of_lt hor

/-- A value below `256 ^ n` has at most `n` bytes. -/
theorem length_encodeMin_le {n x : Nat} (h : x < 256 ^ n) : (encodeMin x).length ≤ n := by
  simpa [encodeMin] using (Nat.digits_length_le_iff (by norm_num) x).mpr h

/-- **The shortest encoding, padded with zero bytes to a width it fits, is the fixed one.** -/
theorem replicate_append_encodeMin {n x : Nat} (h : x < 256 ^ n) :
    List.replicate (n - (encodeMin x).length) 0 ++ encodeMin x = encodeFixed n x := by
  have hlen := length_encodeMin_le h
  apply eq_of_decode_eq
  · simp only [List.length_append, List.length_replicate, length_encodeFixed]
    omega
  · rw [decode_replicate_zero_append, decode_encodeMin, decode_encodeFixed_of_lt h]

end BigEndian
