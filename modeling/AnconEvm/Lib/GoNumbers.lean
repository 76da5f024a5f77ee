import Mathlib
import AnconEvm.Lib.GoStrings
/-
  Go's parsers of numbers: strconv.ParseUint and strconv.ParseInt (bit size 64, the only one
  used here), math/big's SetString, go-ethereum's hexutil.DecodeUint64 and spf13/cast's
  ToUint64, as go-ethereum v1.10.3 and cast v1.4.1, the versions src/go.mod pins, write them.

  The parsers read the characters of a valid UTF-8 string.  Go's loops read bytes, but the
  characters they accept are ASCII, and a byte of a multi-byte character is neither a digit nor a
  letter, so on valid UTF-8 the two readings agree.  ParseUint runs its digit loop with two
  overflow checks in uint64: the multiplication against `cutoff = maxUint64 / base + 1`, and the
  addition against a wrap.  On digits of its base, the loop computes the value when it fits in
  64 bits, and fails with ErrRange when it does not (`parseDigits_eq`).
-/

namespace Strconv

/-- The error of a failed conversion (the `Err` of a strconv.NumError). -/
inductive NumError
  | ErrSyntax
  | ErrRange
  | ErrBase
  deriving DecidableEq, Repr

/-- lower(c) = c | ('x' - 'X'): the code of the lower case of an ASCII letter. -/
def lower (c : Char) : Nat := c.toNat ||| 0x20

/-- The digit a character stands for in ParseUint: `0-9`, then the letters from 10, in either
    case. -/
def digitVal (c : Char) : Option Nat :=
  if '0' ≤ c ∧ c ≤ '9' then some (c.toNat - '0'.toNat)
  else if 'a'.toNat ≤ lower c ∧ lower c ≤ 'z'.toNat then some (lower c - 'a'.toNat + 10)
  else none

/-- The smallest `n` with `n * base > maxUint64`. -/
def cutoff (base : Nat) : UInt64 := UInt64.ofNat ((2 ^ 64 - 1) / base + 1)

/-- The digit loop of ParseUint from the value `n`: an underscore is skipped (and noted) when
    the base came from a prefix; a character that is no digit of the base is ErrSyntax; a value
    past 64 bits is ErrRange, checked before the multiplication and after the addition. -/
def parseDigits (base : Nat) (base0 : Bool) : List Char → UInt64 → Bool → Except NumError (UInt64 × Bool)
  | [], n, underscores => .ok (n, underscores)
  | c :: cs, n, underscores =>
    if c = '_' ∧ base0 = true then parseDigits base base0 cs n true
    else
      match digitVal c with
      | none => .error .ErrSyntax
      | some d =>
        if d ≥ base then .error .ErrSyntax
        else if n ≥ cutoff base then .error .ErrRange
        else
          let n := n * UInt64.ofNat base
          let n1 := n + UInt64.ofNat d
          -- maxVal is maxUint64 for bit size 64, so only the wrap is caught
          if n1 < n ∨ n1 > 18446744073709551615 then .error .ErrRange
          else parseDigits base base0 cs n1 underscores

/-- The state of underscoreOK's scan: at the start, after a digit (or a base prefix), after an
    underscore, or after anything else. -/
inductive Saw
  | start
  | digit
  | underscore
  | other
  deriving DecidableEq

/-- underscoreOK's scan of the number proper. -/
def underscoreScan (hex : Bool) : List Char → Saw → Bool
  | [], saw => saw != .underscore
  | c :: cs, saw =>
    if ('0' ≤ c ∧ c ≤ '9') ∨ (hex = true ∧ 'a'.toNat ≤ lower c ∧ lower c ≤ 'f'.toNat) then
      underscoreScan hex cs .digit
    else if c = '_' then
      -- an underscore must follow a digit
      if saw != .digit then false else underscoreScan hex cs .underscore
    -- and be followed by one
    else if saw = .underscore then false
    else underscoreScan hex cs .other

/-- underscoreOK: underscores stand only between digits, or between a base prefix and a digit. -/
def underscoreOK (s : List Char) : Bool :=
  -- optional sign
  let s := match s with
    | '-' :: t => t
    | '+' :: t => t
    | t => t
  -- optional base prefix
  match s with
  | '0' :: c :: t =>
    if lower c = 'b'.toNat ∨ lower c = 'o'.toNat ∨ lower c = 'x'.toNat then
      underscoreScan (lower c = 'x'.toNat) t .digit
    else underscoreScan false s .start
  | _ => underscoreScan false s .start

/-- The base ParseUint reads with base 0, from the prefix: `0b`, `0o`, `0x` (with a digit after
    it), else `0` for octal, else decimal; and the digits after the prefix. -/
def basePrefix : List Char → Nat × List Char
  | '0' :: c :: r :: rest =>
    if lower c = 'b'.toNat then (2, r :: rest)
    else if lower c = 'o'.toNat then (8, r :: rest)
    else if lower c = 'x'.toNat then (16, r :: rest)
    else (8, c :: r :: rest)
  | '0' :: rest => (8, rest)
  | s => (10, s)

/-- strconv.ParseUint(s, base, 64). -/
def ParseUint (s : String) (base : Nat) : Except NumError UInt64 :=
  if s.toList = [] then .error .ErrSyntax
  else
    let base0 := base == 0
    let parsed : Option (Nat × List Char) :=
      if base = 0 then some (basePrefix s.toList)
      else if 2 ≤ base ∧ base ≤ 36 then some (base, s.toList)
      else none
    match parsed with
    | none => .error .ErrBase
    | some (base, digits) =>
      match parseDigits base base0 digits 0 false with
      | .error e => .error e
      | .ok (n, underscores) =>
        if underscores = true ∧ underscoreOK s.toList = false then .error .ErrSyntax
        else .ok n

/-- strconv.ParseInt(s, base, 64): a sign, then ParseUint, then the int64 range.  A range error
    of ParseUint leaves it `maxUint64`, past the range of either sign. -/
def ParseInt (s : String) (base : Nat) : Except NumError Int :=
  if s.toList = [] then .error .ErrSyntax
  else
    let (neg, t) : Bool × List Char := match s.toList with
      | '+' :: t => (false, t)
      | '-' :: t => (true, t)
      | t => (false, t)
    match ParseUint (String.ofList t) base with
    | .error .ErrRange => .error .ErrRange
    | .error e => .error e
    | .ok un =>
      if neg = false ∧ un.toNat ≥ 2 ^ 63 then .error .ErrRange
      else if neg = true ∧ un.toNat > 2 ^ 63 then .error .ErrRange
      else .ok (if neg then -(un.toNat : Int) else un.toNat)

/-! ## The digit loop -/

/-- The value of digits of `base`, from the value `acc` of those before them. -/
def digitsValue (base : Nat) (acc : Nat) (ds : List Char) : Nat :=
  ds.foldl (fun n c => n * base + (digitVal c).getD 0) acc

/-- The character is a digit of `base`. -/
def IsDigit (base : Nat) (c : Char) : Bool :=
  match digitVal c with
  | some d => decide (d < base)
  | none => false

/-- The characters are digits of `base`. -/
def AreDigits (base : Nat) (ds : List Char) : Prop := ∀ c ∈ ds, IsDigit base c = true

theorem IsDigit_iff {base : Nat} {c : Char} :
    IsDigit base c = true ↔ ∃ d, digitVal c = some d ∧ d < base := by
  unfold IsDigit
  cases digitVal c with
  | none => simp
  | some d => simp

/-- The digits of base 10 are `0` to `9`: a letter stands for 10 or more. -/
theorem IsDigit_ten_iff {c : Char} : IsDigit 10 c = true ↔ '0' ≤ c ∧ c ≤ '9' := by
  rw [IsDigit_iff]
  constructor
  · rintro ⟨d, hd, hlt⟩
    unfold digitVal at hd
    by_cases h09 : '0' ≤ c ∧ c ≤ '9'
    · exact h09
    · rw [if_neg h09] at hd
      split at hd
      · simp only [Option.some.injEq] at hd
        omega
      · cases hd
  · intro h09
    refine ⟨c.toNat - '0'.toNat, by simp [digitVal, h09], ?_⟩
    have h0 : '0'.toNat ≤ c.toNat := h09.1
    have h9 : c.toNat ≤ '9'.toNat := h09.2
    simp only [Char.reduceToNat] at h0 h9 ⊢
    omega

/-- A digit is no underscore, whatever the base. -/
theorem ne_underscore_of_IsDigit {base : Nat} {c : Char} (h : IsDigit base c = true) : c ≠ '_' := by
  rintro rfl
  simp [IsDigit, digitVal, lower] at h

theorem le_digitsValue {base : Nat} (hbase : 1 ≤ base) (acc : Nat) (ds : List Char) :
    acc ≤ digitsValue base acc ds := by
  induction ds generalizing acc with
  | nil => exact Nat.le_refl acc
  | cons c ds ih =>
    have := ih (acc * base + (digitVal c).getD 0)
    simp only [digitsValue, List.foldl_cons] at this ⊢
    calc acc ≤ acc * base := Nat.le_mul_of_pos_right acc hbase
      _ ≤ acc * base + (digitVal c).getD 0 := Nat.le_add_right _ _
      _ ≤ _ := this

/-- ParseUint's overflow check before the multiplication: below the cutoff, `n * base` fits in
    64 bits. -/
theorem lt_cutoff_iff {base : Nat} (hbase : 2 ≤ base) (hbase' : base ≤ 36) (n : UInt64) :
    n < cutoff base ↔ n.toNat * base < 2 ^ 64 := by
  have hcut : (cutoff base).toNat = (2 ^ 64 - 1) / base + 1 := by
    rw [cutoff, UInt64.toNat_ofNat', Nat.mod_eq_of_lt]
    have : (2 ^ 64 - 1) / base ≤ (2 ^ 64 - 1) / 2 := Nat.div_le_div_left hbase (by decide)
    omega
  rw [UInt64.lt_iff_toNat_lt, hcut, Nat.lt_succ_iff, Nat.le_div_iff_mul_le (by omega)]
  omega

variable {base : Nat} (hbase : 2 ≤ base) (hbase' : base ≤ 36)
include hbase hbase'

/-- **The digit loop computes the value**: on digits of its base, from `n`, it returns the value
    when it fits in 64 bits and ErrRange when it does not. -/
theorem parseDigits_eq (base0 : Bool) {ds : List Char} (hds : AreDigits base ds) (n : UInt64)
    (underscores : Bool) :
    parseDigits base base0 ds n underscores =
      if digitsValue base n.toNat ds < 2 ^ 64 then
        .ok (UInt64.ofNat (digitsValue base n.toNat ds), underscores)
      else .error .ErrRange := by
  induction ds generalizing n with
  | nil =>
    simp only [parseDigits, digitsValue, List.foldl_nil, n.toNat_lt, if_true, UInt64.ofNat_toNat]
  | cons c ds ih =>
    obtain ⟨d, hd, hdb⟩ := IsDigit_iff.mp (hds c List.mem_cons_self)
    have hrest : AreDigits base ds := fun c' hc' => hds c' (List.mem_cons_of_mem c hc')
    have hvalue : digitsValue base n.toNat (c :: ds) =
        digitsValue base (n.toNat * base + d) ds := by
      simp only [digitsValue, List.foldl_cons, hd, Option.getD_some]
    have hgrow := le_digitsValue (by omega : 1 ≤ base) (n.toNat * base + d) ds
    simp only [parseDigits, ne_underscore_of_IsDigit (hds c List.mem_cons_self), false_and,
      if_false, hd,
      if_neg (Nat.not_le.mpr hdb)]
    rw [hvalue]
    by_cases hcut : n ≥ cutoff base
    · -- `n * base` overflows
      have hover : 2 ^ 64 ≤ n.toNat * base :=
        Nat.not_lt.mp fun h => UInt64.not_le.mpr ((lt_cutoff_iff hbase hbase' n).mpr h) hcut
      rw [if_pos hcut, if_neg (by omega)]
    · rw [if_neg hcut]
      have hmul : n.toNat * base < 2 ^ 64 :=
        (lt_cutoff_iff hbase hbase' n).mp (UInt64.not_le.mp hcut)
      have hmul' : (n * UInt64.ofNat base).toNat = n.toNat * base := by
        rw [UInt64.toNat_mul, UInt64.toNat_ofNat', Nat.mod_eq_of_lt (show base < 2 ^ 64 by omega),
          Nat.mod_eq_of_lt hmul]
      have hsum : (n * UInt64.ofNat base + UInt64.ofNat d).toNat =
          (n.toNat * base + d) % 2 ^ 64 := by
        rw [UInt64.toNat_add, hmul', UInt64.toNat_ofNat', Nat.mod_eq_of_lt (show d < 2 ^ 64 by omega)]
      by_cases hwrap : n.toNat * base + d < 2 ^ 64
      · -- no wrap: the loop goes on from `n * base + d`
        have hkeep : ¬ (n * UInt64.ofNat base + UInt64.ofNat d < n * UInt64.ofNat base ∨
            n * UInt64.ofNat base + UInt64.ofNat d > 18446744073709551615) := by
          simp only [gt_iff_lt, UInt64.lt_iff_toNat_lt, hsum, hmul', Nat.mod_eq_of_lt hwrap,
            UInt64.reduceToNat]
          omega
        rw [if_neg hkeep, ih hrest, hsum, Nat.mod_eq_of_lt hwrap]
      · -- the addition wraps below `n * base`
        have hcatch : n * UInt64.ofNat base + UInt64.ofNat d < n * UInt64.ofNat base ∨
            n * UInt64.ofNat base + UInt64.ofNat d > 18446744073709551615 := by
          left
          rw [UInt64.lt_iff_toNat_lt, hsum, hmul']
          omega
        rw [if_pos hcatch, if_neg (by omega)]

omit hbase hbase'

/-- ParseInt(s, base, 64) stays below `2^63`. -/
theorem ParseInt_lt {s : String} {b : Nat} {v : Int} (h : ParseInt s b = .ok v) : v < 2 ^ 63 := by
  unfold ParseInt at h
  split at h
  · cases h
  · -- the sign, then the unsigned value
    split at h
    rename_i neg t _
    split at h
    · cases h
    · cases h
    · rename_i un _
      by_cases hpos : neg = false ∧ un.toNat ≥ 2 ^ 63
      · rw [if_pos hpos] at h
        cases h
      · rw [if_neg hpos] at h
        split at h
        · cases h
        · injection h with h
          subst h
          cases neg
          · simp only [Bool.false_eq_true, if_false]
            have : ¬ un.toNat ≥ 2 ^ 63 := fun hge => hpos ⟨rfl, hge⟩
            omega
          · simp only [if_true]
            omega

/-- A decimal numeral without a leading zero: digits, the first from 1 to 9. -/
structure IsDecimal (ds : List Char) : Prop where
  ne_nil : ds ≠ []
  digits : AreDigits 10 ds
  head : ∀ c, ds.head? = some c → '1' ≤ c

/-- **ParseUint with base 0 reads a decimal numeral** as its value, or fails with ErrRange
    past 64 bits: there is no base prefix, and no underscore. -/
theorem ParseUint_decimal {ds : List Char} (h : IsDecimal ds) :
    ParseUint (String.ofList ds) 0 =
      if digitsValue 10 0 ds < 2 ^ 64 then .ok (UInt64.ofNat (digitsValue 10 0 ds))
      else .error .ErrRange := by
  obtain ⟨c, cs, rfl⟩ := List.exists_cons_of_ne_nil h.ne_nil
  have hc : '1'.toNat ≤ c.toNat := h.head c rfl
  have hloop := parseDigits_eq (by decide : 2 ≤ 10) (by decide : 10 ≤ 36) true h.digits 0 false
  rw [UInt64.toNat_zero] at hloop
  -- no base prefix: the first digit is no `0`
  have hprefix : basePrefix (c :: cs) = (10, c :: cs) := by
    have hc0 : c ≠ '0' := by
      rintro rfl
      simp at hc
    unfold basePrefix
    split <;> simp_all
  unfold ParseUint
  dsimp only
  rw [String.toList_ofList, if_neg (List.cons_ne_nil c cs), if_pos rfl, hprefix]
  dsimp only
  rw [show (0 == 0) = true from rfl, hloop]
  by_cases hv : digitsValue 10 0 (c :: cs) < 2 ^ 64
  · rw [if_pos hv, if_pos hv]
    simp
  · rw [if_neg hv, if_neg hv]

/-- **ParseInt reads a decimal numeral** as its value while it is below `2^63`. -/
theorem ParseInt_decimal {ds : List Char} (h : IsDecimal ds) :
    ParseInt (String.ofList ds) 0 =
      if digitsValue 10 0 ds < 2 ^ 63 then .ok (digitsValue 10 0 ds) else .error .ErrRange := by
  obtain ⟨c, cs, rfl⟩ := List.exists_cons_of_ne_nil h.ne_nil
  have hc : '1'.toNat ≤ c.toNat := h.head c rfl
  -- no sign
  have hsign : (match c :: cs with
      | '+' :: t => (false, t)
      | '-' :: t => (true, t)
      | t => (false, t)) = (false, c :: cs) := by
    have hplus : c ≠ '+' := by
      rintro rfl
      simp at hc
    have hminus : c ≠ '-' := by
      rintro rfl
      simp at hc
    split <;> simp_all
  unfold ParseInt
  dsimp only
  rw [String.toList_ofList, if_neg (List.cons_ne_nil c cs), hsign]
  dsimp only
  rw [ParseUint_decimal h]
  by_cases hv : digitsValue 10 0 (c :: cs) < 2 ^ 64
  · have hval : (UInt64.ofNat (digitsValue 10 0 (c :: cs))).toNat = digitsValue 10 0 (c :: cs) := by
      rw [UInt64.toNat_ofNat', Nat.mod_eq_of_lt hv]
    rw [if_pos hv]
    dsimp only
    rw [hval]
    -- a value without a sign is refused from `2^63` on
    by_cases hv' : digitsValue 10 0 (c :: cs) < 2 ^ 63
    · rw [if_neg (fun h => Nat.not_le.mpr hv' h.2), if_neg (fun h => Bool.false_ne_true h.1),
        if_pos hv']
      rfl
    · rw [if_pos ⟨rfl, Nat.not_lt.mp hv'⟩, if_neg hv']
  · rw [if_neg hv, if_neg (by omega)]

end Strconv

namespace Big

/-- big.Int.SetString(s, base) for a base from 2 to 36: an optional sign, then at least one digit
    of the base; `none` (ok = false) otherwise. -/
def SetString (s : String) (base : Nat) : Option Int :=
  let (neg, ds) : Bool × List Char := match s.toList with
    | '+' :: t => (false, t)
    | '-' :: t => (true, t)
    | t => (false, t)
  if ds ≠ [] ∧ ds.all (Strconv.IsDigit base) = true then
    let v : Int := Strconv.digitsValue base 0 ds
    some (if neg then -v else v)
  else none

end Big

namespace Hexutil

/-- The errors of hexutil's decoders (its decError values). -/
inductive DecError
  | ErrEmptyString
  | ErrSyntax
  | ErrMissingPrefix
  | ErrEmptyNumber
  | ErrLeadingZero
  | ErrUint64Range
  | NumError (e : Strconv.NumError)
  deriving DecidableEq, Repr

/-- The text of an error. -/
def DecError.Error : DecError → String
  | .ErrEmptyString => "empty hex string"
  | .ErrSyntax => "invalid hex string"
  | .ErrMissingPrefix => "hex string without 0x prefix"
  | .ErrEmptyNumber => "hex string \"0x\""
  | .ErrLeadingZero => "hex number with leading zero digits"
  | .ErrUint64Range => "hex number > 64 bits"
  | .NumError _ => "invalid base"

/-- has0xPrefix. -/
def has0xPrefix (input : List Char) : Bool :=
  match input with
  | '0' :: c :: _ => c = 'x' || c = 'X'
  | _ => false

/-- A text that does not start with `0` has no `0x` prefix. -/
theorem has0xPrefix_cons_of_ne {c : Char} (cs : List Char) (hc : c ≠ '0') :
    has0xPrefix (c :: cs) = false := by
  unfold has0xPrefix
  split
  · rename_i heq
    exact absurd (List.cons.inj heq).1 hc
  · rfl

/-- checkNumber: the digits after `0x`, which must be there, and without a leading zero. -/
def checkNumber (input : String) : Except DecError (List Char) :=
  if input.toList = [] then .error .ErrEmptyString
  else if has0xPrefix input.toList = false then .error .ErrMissingPrefix
  else
    let raw := input.toList.drop 2
    if raw = [] then .error .ErrEmptyNumber
    else if raw.length > 1 ∧ raw.head? = some '0' then .error .ErrLeadingZero
    else .ok raw

/-- mapError: strconv's range and syntax errors as hexutil's. -/
def mapError : Strconv.NumError → DecError
  | .ErrRange => .ErrUint64Range
  | .ErrSyntax => .ErrSyntax
  | e => .NumError e

/-- hexutil.DecodeUint64: a `0x` quantity of at most 64 bits. -/
def DecodeUint64 (input : String) : Except DecError UInt64 := do
  let raw ← checkNumber input
  match Strconv.ParseUint (String.ofList raw) 16 with
  | .ok dec => .ok dec
  | .error e => .error (mapError e)

end Hexutil

namespace Cast

/-- cast.ToUint64 of a string: ParseInt(s, 0, 64); a negative value (errNegativeNotAllowed) and an
    error both give 0, which ToUint64 returns without its error. -/
def ToUint64 (s : String) : UInt64 :=
  match Strconv.ParseInt s 0 with
  | .ok v => if v < 0 then 0 else UInt64.ofNat v.toNat
  | .error _ => 0

/-- **cast.ToUint64 stays below `2^63`**: ParseInt does. -/
theorem ToUint64_lt (s : String) : (ToUint64 s).toNat < 2 ^ 63 := by
  unfold ToUint64
  split
  · rename_i v hv
    have hlt := Strconv.ParseInt_lt hv
    split
    · simp
    · rw [UInt64.toNat_ofNat', Nat.mod_eq_of_lt (by omega)]
      omega
  · simp

/-- **cast.ToUint64 reads a decimal numeral** as its value below `2^63`, and as 0 above. -/
theorem ToUint64_decimal {ds : List Char} (h : Strconv.IsDecimal ds) :
    ToUint64 (String.ofList ds) =
      if Strconv.digitsValue 10 0 ds < 2 ^ 63 then UInt64.ofNat (Strconv.digitsValue 10 0 ds)
      else 0 := by
  rw [ToUint64, Strconv.ParseInt_decimal h]
  by_cases hv : Strconv.digitsValue 10 0 ds < 2 ^ 63
  · rw [if_pos hv, if_pos hv]
    -- a value read from digits is not negative
    simp only [if_neg (Int.not_lt.mpr (Int.natCast_nonneg _)), Int.toNat_natCast]
  · rw [if_neg hv, if_neg hv]

end Cast
