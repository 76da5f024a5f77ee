import AnconEvm.Lib.GoNumbers
/-
  Block numbers of the JSON-RPC server (ethereum/rpc/types/block.go): BlockNumber.UnmarshalJSON.

  UnmarshalJSON trims its input and drops one pair of surrounding quotes (`jsonInput`), answers
  the three tags, and otherwise decodes a `0x` quantity with hexutil.DecodeUint64.  When the
  prefix is missing it falls back to cast.ToUint64, which answers 0 for every text it cannot read
  (and for a negative one) and never fails; its value is at most `2^63 - 1` (`ToUint64_lt`), so
  the int64 check after it never fires.  Steps:
    1. `UnmarshalJSON_hex`: a `0x` quantity decodes to its value, refused above `2^63 - 1`.
    2. `UnmarshalJSON_decimal`: a decimal numeral without a leading zero is read as its value up
       to `2^63 - 1`, and as 0 above it.
    3. `UnmarshalJSON_of_no_0x`: every other text without the prefix is accepted too,
       as `cast.ToUint64` reads it.
-/

namespace AnconEvm.Rpc

open GoStrings

/-- BlockNumber: an int64, with -2, -1 and 0 for the pending, latest and earliest blocks. -/
abbrev BlockNumber := Int

def EthPendingBlockNumber : BlockNumber := -2
def EthLatestBlockNumber : BlockNumber := -1
def EthEarliestBlockNumber : BlockNumber := 0

def BlockParamEarliest : String := "earliest"
def BlockParamLatest : String := "latest"
def BlockParamPending : String := "pending"

/-- The text UnmarshalJSON reads: the trimmed input, without one pair of surrounding quotes. -/
def jsonInput (data : String) : String :=
  let input := TrimSpace data
  if input.utf8ByteSize ≥ 2 ∧ input.toList.head? = some '"' ∧ input.toList.getLast? = some '"' then
    String.ofList (input.toList.drop 1).dropLast
  else input

/-- BlockNumber.UnmarshalJSON: a tag, a `0x` quantity, or whatever cast.ToUint64 makes of a text
    without the prefix; at most `math.MaxInt64`. -/
def UnmarshalJSON (data : String) : Except String BlockNumber :=
  let input := jsonInput data
  if input = BlockParamEarliest then .ok EthEarliestBlockNumber
  else if input = BlockParamLatest then .ok EthLatestBlockNumber
  else if input = BlockParamPending then .ok EthPendingBlockNumber
  else
    let blckNum : Except String UInt64 :=
      match Hexutil.DecodeUint64 input with
      | .ok blckNum => .ok blckNum
      | .error .ErrMissingPrefix => .ok (Cast.ToUint64 input)
      | .error err => .error err.Error
    match blckNum with
    | .error err => .error err
    | .ok blckNum =>
      if blckNum.toNat > 2 ^ 63 - 1 then .error "block number larger than int64"
      else .ok blckNum.toNat

/-- The tags. -/
example : UnmarshalJSON "\"latest\"" = .ok EthLatestBlockNumber ∧
    UnmarshalJSON " pending " = .ok EthPendingBlockNumber := by
  decide

/-- The text is not a tag. -/
def IsTag (input : String) : Prop :=
  input = BlockParamEarliest ∨ input = BlockParamLatest ∨ input = BlockParamPending

/-- UnmarshalJSON on a text that is no tag: the number it decodes, checked against int64. -/
theorem UnmarshalJSON_of_not_tag {data : String} (htag : ¬ IsTag (jsonInput data)) :
    UnmarshalJSON data =
      match (match Hexutil.DecodeUint64 (jsonInput data) with
        | .ok blckNum => .ok blckNum
        | .error .ErrMissingPrefix => .ok (Cast.ToUint64 (jsonInput data))
        | .error err => .error err.Error : Except String UInt64) with
      | .error err => .error err
      | .ok blckNum =>
        if blckNum.toNat > 2 ^ 63 - 1 then .error "block number larger than int64"
        else .ok (blckNum.toNat : Int) := by
  simp only [IsTag, not_or] at htag
  simp only [UnmarshalJSON, if_neg htag.1, if_neg htag.2.1, if_neg htag.2.2]

/-! ## Hex quantities -/

/-- A `0x` quantity of hexutil: hex digits after the prefix, with no leading zero. -/
structure IsQuantity (input : List Char) (ds : List Char) : Prop where
  eq : input = '0' :: 'x' :: ds ∨ input = '0' :: 'X' :: ds
  ne_nil : ds ≠ []
  no_leading_zero : ds.length > 1 → ds.head? ≠ some '0'
  digits : Strconv.AreDigits 16 ds

namespace IsQuantity

variable {input ds : List Char}

theorem head?_eq (h : IsQuantity input ds) : input.head? = some '0' := by
  rcases h.eq with rfl | rfl <;> rfl

theorem has0xPrefix_eq (h : IsQuantity input ds) : Hexutil.has0xPrefix input = true := by
  rcases h.eq with rfl | rfl <;> rfl

theorem drop_two (h : IsQuantity input ds) : input.drop 2 = ds := by
  rcases h.eq with rfl | rfl <;> rfl

/-- hexutil's checkNumber passes the digits of a quantity on. -/
theorem checkNumber_eq {input : String} (h : IsQuantity input.toList ds) :
    Hexutil.checkNumber input = .ok ds := by
  have hne : input.toList ≠ [] := fun hnil => by
    have hhead := h.head?_eq
    rw [hnil] at hhead
    cases hhead
  simp only [Hexutil.checkNumber, hne, if_false, h.has0xPrefix_eq, Bool.true_eq_false, h.drop_two,
    h.ne_nil]
  rw [if_neg (fun hz => h.no_leading_zero hz.1 hz.2)]

end IsQuantity

/-- **hexutil.DecodeUint64 of a quantity is its value**, or ErrUint64Range past 64 bits. -/
theorem DecodeUint64_quantity {input : String} {ds : List Char} (h : IsQuantity input.toList ds) :
    Hexutil.DecodeUint64 input =
      if Strconv.digitsValue 16 0 ds < 2 ^ 64 then .ok (UInt64.ofNat (Strconv.digitsValue 16 0 ds))
      else .error .ErrUint64Range := by
  have hcheck := h.checkNumber_eq
  have hloop := Strconv.parseDigits_eq (by decide : 2 ≤ 16) (by decide : 16 ≤ 36) false
    h.digits 0 false
  simp only [UInt64.toNat_zero] at hloop
  -- base 16, given: no prefix, no underscores
  have hbase : (16 == 0) = false := rfl
  by_cases hv : Strconv.digitsValue 16 0 ds < 2 ^ 64
  · rw [if_pos hv] at hloop ⊢
    simp only [Hexutil.DecodeUint64, hcheck, bind, Except.bind, Strconv.ParseUint,
      String.toList_ofList, h.ne_nil, if_false, if_neg (by decide : ¬ (16 : Nat) = 0),
      if_pos (by decide : 2 ≤ 16 ∧ 16 ≤ 36), hbase, hloop, Bool.false_eq_true, false_and]
  · rw [if_neg hv] at hloop ⊢
    simp only [Hexutil.DecodeUint64, hcheck, bind, Except.bind, Strconv.ParseUint,
      String.toList_ofList, h.ne_nil, if_false, if_neg (by decide : ¬ (16 : Nat) = 0),
      if_pos (by decide : 2 ≤ 16 ∧ 16 ≤ 36), hbase, hloop, Hexutil.mapError]

/-- A text that starts below `a` is no tag: the tags are words. -/
theorem not_IsTag_of_head {input : String} {c : Char} (hc : input.toList.head? = some c)
    (hlow : c.toNat < 'a'.toNat) : ¬ IsTag input := by
  intro htag
  have hheads : ∀ t ∈ [BlockParamEarliest, BlockParamLatest, BlockParamPending],
      t.toList.head?.all (fun c => 'a'.toNat ≤ c.toNat) = true := by decide
  have hinput := hheads input (by rcases htag with h | h | h <;> simp [h])
  rw [hc, Option.all_some, decide_eq_true_eq] at hinput
  omega

/-- **A `0x` quantity is its value up to `2^63 - 1`**; above it is refused, by UnmarshalJSON's
    int64 check, then past 64 bits by hexutil. -/
theorem UnmarshalJSON_hex {data : String} {ds : List Char} (h : IsQuantity (jsonInput data).toList ds) :
    UnmarshalJSON data =
      if Strconv.digitsValue 16 0 ds < 2 ^ 63 then .ok (Strconv.digitsValue 16 0 ds : Int)
      else if Strconv.digitsValue 16 0 ds < 2 ^ 64 then .error "block number larger than int64"
      else .error "hex number > 64 bits" := by
  have htag : ¬ IsTag (jsonInput data) := not_IsTag_of_head h.head?_eq (by decide)
  rw [UnmarshalJSON_of_not_tag htag, DecodeUint64_quantity h]
  by_cases h64 : Strconv.digitsValue 16 0 ds < 2 ^ 64
  · have hval : (UInt64.ofNat (Strconv.digitsValue 16 0 ds)).toNat = Strconv.digitsValue 16 0 ds := by
      rw [UInt64.toNat_ofNat', Nat.mod_eq_of_lt h64]
    simp only [if_pos h64, hval]
    by_cases h63 : Strconv.digitsValue 16 0 ds < 2 ^ 63
    · rw [if_neg (by omega), if_pos h63]
    · rw [if_pos (by omega), if_neg h63]
  · simp only [if_neg h64, if_neg (show ¬ Strconv.digitsValue 16 0 ds < 2 ^ 63 by omega)]
    rfl

/-- hexutil.DecodeUint64 of a text without the `0x` prefix is ErrMissingPrefix. -/
theorem DecodeUint64_of_no_0x {input : String} (hne : input.toList ≠ [])
    (hpre : Hexutil.has0xPrefix input.toList = false) :
    Hexutil.DecodeUint64 input = .error .ErrMissingPrefix := by
  simp only [Hexutil.DecodeUint64, Hexutil.checkNumber, hne, hpre, if_false, if_true, bind,
    Except.bind]

/-- **Every text without the `0x` prefix is accepted**, as cast.ToUint64 reads it: a word, a
    negative number or a numeral past int64 gives block 0. -/
theorem UnmarshalJSON_of_no_0x {data : String} (htag : ¬ IsTag (jsonInput data))
    (hne : (jsonInput data).toList ≠ []) (hpre : Hexutil.has0xPrefix (jsonInput data).toList = false) :
    UnmarshalJSON data = .ok ((Cast.ToUint64 (jsonInput data)).toNat : Int) := by
  rw [UnmarshalJSON_of_not_tag htag, DecodeUint64_of_no_0x hne hpre]
  -- ToUint64 stays below `2^63`, so the int64 check passes
  have hlt := Cast.ToUint64_lt (jsonInput data)
  simp only
  rw [if_neg (by omega)]

/-- **A decimal numeral is its value up to `2^63 - 1`**, and block 0 above it. -/
theorem UnmarshalJSON_decimal {data : String} (h : Strconv.IsDecimal (jsonInput data).toList) :
    UnmarshalJSON data =
      .ok (if Strconv.digitsValue 10 0 (jsonInput data).toList < 2 ^ 63 then
        (Strconv.digitsValue 10 0 (jsonInput data).toList : Int) else 0) := by
  obtain ⟨c, cs, hcs⟩ := List.exists_cons_of_ne_nil h.ne_nil
  have hc : '1'.toNat ≤ c.toNat := h.head c (by rw [hcs]; rfl)
  have hc9 : c.toNat ≤ '9'.toNat :=
    (Strconv.IsDigit_ten_iff.mp (h.digits c (by rw [hcs]; exact List.mem_cons_self))).2
  -- a numeral starts with a digit from 1 to 9: neither a tag nor a `0x` prefix
  have htag : ¬ IsTag (jsonInput data) :=
    not_IsTag_of_head (by rw [hcs]; rfl) (by simp only [Char.reduceToNat] at hc9 ⊢; omega)
  have hpre : Hexutil.has0xPrefix (jsonInput data).toList = false := by
    rw [hcs]
    refine Hexutil.has0xPrefix_cons_of_ne cs fun hc0 => ?_
    rw [hc0] at hc
    simp at hc
  rw [UnmarshalJSON_of_no_0x htag h.ne_nil hpre]
  have hread := Cast.ToUint64_decimal h
  rw [String.ofList_toList] at hread
  rw [hread]
  by_cases hv : Strconv.digitsValue 10 0 (jsonInput data).toList < 2 ^ 63
  · rw [if_pos hv, if_pos hv, UInt64.toNat_ofNat', Nat.mod_eq_of_lt (by omega)]
  · rw [if_neg hv, if_neg hv]
    rfl

/-- **UnmarshalJSON accepts what its grammar refuses**: a word, a negative number and a numeral
    past `2^64` are block 0, and a numeral with a leading zero is read in octal. -/
theorem UnmarshalJSON_accepts_non_numbers :
    UnmarshalJSON "\"abc\"" = .ok 0 ∧ UnmarshalJSON "\"-5\"" = .ok 0 ∧
      UnmarshalJSON "\"18446744073709551617\"" = .ok 0 ∧ UnmarshalJSON "\"010\"" = .ok 8 := by
  decide +kernel

end AnconEvm.Rpc
