import AnconEvm.Lib.Regex
import AnconEvm.Lib.GoNumbers
/-
  Chain identifiers (types/chain_id.go): IsValidChainID and ParseChainID.

  Both check the length bound and the expression `^([a-z]{1,})_{1}([1-9][0-9]*)-{1}([1-9][0-9]*)$`,
  but on different strings: ParseChainID first trims surrounding white space, IsValidChainID does
  not.  Steps:
    1. `matches_ethermintChainID_iff`: a match of the expression is a chain ID `id_n-e` of the
       grammar (`ChainIDForm`), split at its separators; the separators fix the split
       (`ChainIDForm.unique`), so the match is unique.
    2. `IsValidChainID_iff`, `ParseChainID_of_form`: the grammar and the bound decide both
       functions; ParseChainID returns the EIP-155 number `n`.
    3. `ParseChainID_ok_iff`: ParseChainID succeeds exactly when IsValidChainID accepts the
       trimmed string, and white space padding is accepted by the one and refused by the other
       (`ParseChainID_pad`, `IsValidChainID_pad`).
-/

namespace AnconEvm

open Regex GoStrings

/-- ErrInvalidChainID. -/
def ErrInvalidChainID : String := "invalid chain ID"

/-! ## The expression -/

/-- regexChainID: `[a-z]{1,}`. -/
def regexChainID : List Rep := [⟨fun c => 'a' ≤ c && c ≤ 'z', 1, none, none⟩]

/-- regexEIP155Separator: `_{1}`. -/
def regexEIP155Separator : List Rep := [⟨(· == '_'), 1, some 1, none⟩]

/-- regexEIP155: `[1-9][0-9]*`. -/
def regexEIP155 : List Rep :=
  [⟨fun c => '1' ≤ c && c ≤ '9', 1, some 1, none⟩, ⟨fun c => '0' ≤ c && c ≤ '9', 0, none, none⟩]

/-- regexEpochSeparator: `-{1}`. -/
def regexEpochSeparator : List Rep := [⟨(· == '-'), 1, some 1, none⟩]

/-- regexEpoch: `[1-9][0-9]*`. -/
def regexEpoch : List Rep :=
  [⟨fun c => '1' ≤ c && c ≤ '9', 1, some 1, none⟩, ⟨fun c => '0' ≤ c && c ≤ '9', 0, none, none⟩]

/-- ethermintChainID: `^(regexChainID)regexEIP155Separator(regexEIP155)regexEpochSeparator(regexEpoch)$`. -/
def ethermintChainID : List Rep :=
  group 1 regexChainID ++ regexEIP155Separator ++ group 2 regexEIP155 ++ regexEpochSeparator ++
    group 3 regexEpoch

/-! ## The two functions -/

/-- IsValidChainID: at most 48 bytes, and a match of the expression. -/
def IsValidChainID (chainID : String) : Bool :=
  if chainID.utf8ByteSize > 48 then false else MatchString ethermintChainID chainID

/-- fmt's `%v` of a `[]string`. -/
def fmtStrings (l : List String) : String := "[" ++ " ".intercalate l ++ "]"

/-- ParseChainID: the EIP-155 number of a chain ID, after trimming white space. -/
def ParseChainID (chainID : String) : Except String Int :=
  let chainID := TrimSpace chainID
  if chainID.utf8ByteSize > 48 then
    .error ("chain-id \x27" ++ chainID ++ "\x27 cannot exceed 48 chars: " ++ ErrInvalidChainID)
  else
    match FindStringSubmatch ethermintChainID 3 chainID with
    -- `%v` of a nil slice
    | none => .error (chainID ++ ": []: " ++ ErrInvalidChainID)
    | some submatches =>
      if submatches.length ≠ 4 ∨ submatches.getD 1 "" = "" then
        .error (chainID ++ ": " ++ fmtStrings submatches ++ ": " ++ ErrInvalidChainID)
      else
        -- verify that the chain-id entered is a base 10 integer
        match Big.SetString (submatches.getD 2 "") 10 with
        | some chainIDInt => .ok chainIDInt
        | none =>
          .error ("epoch " ++ submatches.getD 2 "" ++ " must be base-10 integer format: " ++
            ErrInvalidChainID)

/-! ## The grammar -/

/-- Lower case letters, at least one: `[a-z]{1,}`. -/
def IsChainName (id : List Char) : Prop := id ≠ [] ∧ ∀ c ∈ id, 'a' ≤ c ∧ c ≤ 'z'

/-- A decimal numeral without a leading zero: `[1-9][0-9]*`. -/
def IsNumeral (n : List Char) : Prop :=
  ∃ d ds, n = d :: ds ∧ ('1' ≤ d ∧ d ≤ '9') ∧ ∀ c ∈ ds, '0' ≤ c ∧ c ≤ '9'

/-- `s` is the chain ID `id_n-e`: a chain name, then the EIP-155 number `n` and the epoch `e`. -/
structure ChainIDForm (s id n e : List Char) : Prop where
  eq : s = id ++ '_' :: (n ++ '-' :: e)
  name : IsChainName id
  eip155 : IsNumeral n
  epoch : IsNumeral e

/-- The pieces of a match: the name, `_`, the first digit and the rest of `n`, `-`, and those
    of `e`. -/
def chainIDPieces (id n e : List Char) : List (List Char) :=
  [id, ['_'], n.take 1, n.drop 1, ['-'], e.take 1, e.drop 1]

theorem flatten_chainIDPieces {id n e : List Char} (hn : n ≠ []) (he : e ≠ []) :
    (chainIDPieces id n e).flatten = id ++ '_' :: (n ++ '-' :: e) := by
  obtain ⟨d, ds, rfl⟩ := List.exists_cons_of_ne_nil hn
  obtain ⟨d', ds', rfl⟩ := List.exists_cons_of_ne_nil he
  simp [chainIDPieces]

/-- A numeral, as the two items `[1-9]` and `[0-9]*` take it. -/
theorem IsNumeral_iff {d : Char} {ds : List Char} :
    IsNumeral (d :: ds) ↔ ('1' ≤ d ∧ d ≤ '9') ∧ ∀ c ∈ ds, '0' ≤ c ∧ c ≤ '9' := by
  constructor
  · rintro ⟨d', ds', h, hd, hds⟩
    obtain ⟨rfl, rfl⟩ := List.cons.inj h
    exact ⟨hd, hds⟩
  · rintro ⟨hd, hds⟩
    exact ⟨d, ds, rfl, hd, hds⟩

/-- **A match of the chain ID expression is a chain ID of the grammar**, in its pieces. -/
theorem matches_ethermintChainID_iff {ps : List (List Char)} :
    Matches ethermintChainID ps ↔
      ∃ id n e, ps = chainIDPieces id n e ∧ IsChainName id ∧ IsNumeral n ∧ IsNumeral e := by
  simp only [ethermintChainID, group, regexChainID, regexEIP155Separator, regexEIP155,
    regexEpochSeparator, regexEpoch, List.map_cons, List.map_nil, List.cons_append,
    List.nil_append, Matches_cons_iff, Matches_nil_iff, takes_one_iff, takes_plus_iff,
    takes_star_iff, Bool.and_eq_true, decide_eq_true_eq, beq_iff_eq]
  constructor
  · rintro ⟨id, _, rfl, ⟨hne, hid⟩, _, _, rfl, ⟨_, rfl, rfl⟩, _, _, rfl, ⟨d, rfl, hd⟩, ds, _, rfl,
      hds, _, _, rfl, ⟨_, rfl, rfl⟩, _, _, rfl, ⟨d', rfl, hd'⟩, ds', _, rfl, hds', rfl⟩
    exact ⟨id, d :: ds, d' :: ds', rfl, ⟨hne, hid⟩, IsNumeral_iff.mpr ⟨hd, hds⟩,
      IsNumeral_iff.mpr ⟨hd', hds'⟩⟩
  · rintro ⟨id, n, e, rfl, ⟨hne, hid⟩, ⟨d, ds, rfl, hd, hds⟩, ⟨d', ds', rfl, hd', hds'⟩⟩
    exact ⟨id, _, rfl, ⟨hne, hid⟩, _, _, rfl, ⟨_, rfl, rfl⟩, _, _, rfl, ⟨d, rfl, hd⟩, ds, _, rfl,
      hds, _, _, rfl, ⟨_, rfl, rfl⟩, _, _, rfl, ⟨d', rfl, hd'⟩, ds', _, rfl, hds', rfl⟩

/-- **The separators fix a chain ID's parts**: a name has no `_`, a numeral no `-`. -/
theorem ChainIDForm.unique {s id n e id' n' e' : List Char} (h : ChainIDForm s id n e)
    (h' : ChainIDForm s id' n' e') : id = id' ∧ n = n' ∧ e = e' := by
  have hname : ∀ {id : List Char}, IsChainName id → '_' ∉ id := fun hid hu => by
    have := hid.2 _ hu
    simp at this
  have hnum : ∀ {n : List Char}, IsNumeral n → '-' ∉ n := fun ⟨d, ds, hn, hd, hds⟩ hm => by
    subst hn
    rcases List.mem_cons.mp hm with hm | hm
    · rw [← hm] at hd
      simp at hd
    · have := hds _ hm
      simp at this
  obtain ⟨rfl, hrest⟩ := append_cons_inj_of_not_mem (h.eq.symm.trans h'.eq) (hname h.name)
    (hname h'.name)
  obtain ⟨rfl, rfl⟩ := append_cons_inj_of_not_mem hrest (hnum h.eip155) (hnum h'.eip155)
  exact ⟨rfl, rfl, rfl⟩

/-- The expression matches exactly the chain IDs of the grammar. -/
theorem MatchString_ethermintChainID_iff {s : String} :
    MatchString ethermintChainID s = true ↔ ∃ id n e, ChainIDForm s.toList id n e := by
  rw [MatchString_iff]
  constructor
  · rintro ⟨ps, hmatch, hflat⟩
    obtain ⟨id, n, e, rfl, hid, ⟨d, ds, rfl, hd, hds⟩, ⟨d', ds', rfl, hd', hds'⟩⟩ :=
      matches_ethermintChainID_iff.mp hmatch
    refine ⟨id, d :: ds, d' :: ds', ⟨?_, hid, ⟨d, ds, rfl, hd, hds⟩, ⟨d', ds', rfl, hd', hds'⟩⟩⟩
    rw [← hflat, flatten_chainIDPieces (List.cons_ne_nil _ _) (List.cons_ne_nil _ _)]
  · rintro ⟨id, n, e, hform⟩
    obtain ⟨d, ds, rfl, -⟩ := hform.eip155
    obtain ⟨d', ds', rfl, -⟩ := hform.epoch
    refine ⟨chainIDPieces id (d :: ds) (d' :: ds'),
      matches_ethermintChainID_iff.mpr ⟨id, _, _, rfl, hform.name, hform.eip155, hform.epoch⟩, ?_⟩
    rw [flatten_chainIDPieces (List.cons_ne_nil _ _) (List.cons_ne_nil _ _), hform.eq]

/-- **FindStringSubmatch of a chain ID**: the chain ID, its name, its EIP-155 number and its
    epoch. -/
theorem FindStringSubmatch_ethermintChainID {s : String} {id n e : List Char}
    (h : ChainIDForm s.toList id n e) :
    FindStringSubmatch ethermintChainID 3 s =
      some [s, String.ofList id, String.ofList n, String.ofList e] := by
  obtain ⟨d, ds, rfl, -⟩ := h.eip155
  obtain ⟨d', ds', rfl, -⟩ := h.epoch
  have hflat : (chainIDPieces id (d :: ds) (d' :: ds')).flatten = s.toList := by
    rw [flatten_chainIDPieces (List.cons_ne_nil _ _) (List.cons_ne_nil _ _), h.eq]
  rw [FindStringSubmatch_of_unique
    (matches_ethermintChainID_iff.mpr ⟨id, _, _, rfl, h.name, h.eip155, h.epoch⟩) hflat]
  · -- the groups hold the name, `n` and `e`
    simp [capture, ethermintChainID, group, regexChainID, regexEIP155Separator, regexEIP155,
      regexEpochSeparator, regexEpoch, chainIDPieces, List.range_succ]
  · -- any match is the one: the separators fix the parts
    intro qs hmatch hqs
    obtain ⟨id', n', e', rfl, hid', ⟨d₁, ds₁, rfl, hd₁, hds₁⟩, ⟨d₂, ds₂, rfl, hd₂, hds₂⟩⟩ :=
      matches_ethermintChainID_iff.mp hmatch
    have hform : ChainIDForm s.toList id' (d₁ :: ds₁) (d₂ :: ds₂) :=
      ⟨by rw [← hqs, flatten_chainIDPieces (List.cons_ne_nil _ _) (List.cons_ne_nil _ _)], hid',
        ⟨d₁, ds₁, rfl, hd₁, hds₁⟩, ⟨d₂, ds₂, rfl, hd₂, hds₂⟩⟩
    obtain ⟨rfl, hn, he⟩ := ChainIDForm.unique hform h
    rw [hn, he]

/-- **IsValidChainID accepts exactly the chain IDs of the grammar of at most 48 bytes.** -/
theorem IsValidChainID_iff {s : String} :
    IsValidChainID s = true ↔ s.utf8ByteSize ≤ 48 ∧ ∃ id n e, ChainIDForm s.toList id n e := by
  rw [IsValidChainID, ← MatchString_ethermintChainID_iff]
  by_cases hlen : s.utf8ByteSize > 48
  · simp only [hlen, if_true, Bool.false_eq_true, false_iff, not_and]
    omega
  · simp only [hlen, if_false]
    exact ⟨fun hm => ⟨Nat.not_lt.mp hlen, hm⟩, fun h => h.2⟩

/-- A digit from 1 to 9 is a digit. -/
theorem digit_of_nonzero {d : Char} (hd : '1' ≤ d ∧ d ≤ '9') : '0' ≤ d ∧ d ≤ '9' := by
  have h1 : '1'.toNat ≤ d.toNat := hd.1
  refine ⟨?_, hd.2⟩
  show '0'.toNat ≤ d.toNat
  simp only [Char.reduceToNat] at h1 ⊢
  omega

/-- The characters of a numeral are digits. -/
theorem IsNumeral.digits {n : List Char} (h : IsNumeral n) : ∀ c ∈ n, '0' ≤ c ∧ c ≤ '9' := by
  obtain ⟨d, ds, rfl, hd, hds⟩ := h
  intro c hc
  rcases List.mem_cons.mp hc with rfl | hc
  · exact digit_of_nonzero hd
  · exact hds c hc

/-- big.Int's SetString reads a numeral in base 10 as its value. -/
theorem SetString_numeral {n : List Char} (h : IsNumeral n) :
    Big.SetString (String.ofList n) 10 = some (Strconv.digitsValue 10 0 n : Int) := by
  have hdig := h.digits
  obtain ⟨d, ds, rfl, hd, hds⟩ := h
  -- the first digit is no sign
  have hsign : d ≠ '+' ∧ d ≠ '-' := by
    constructor <;> (rintro rfl; simp at hd)
  have hdigits : (d :: ds).all (Strconv.IsDigit 10) = true :=
    List.all_eq_true.mpr fun c hc => Strconv.IsDigit_ten_iff.mpr (hdig c hc)
  simp only [Big.SetString, String.toList_ofList]
  split
  · rename_i t heq
    obtain ⟨rfl, -⟩ := List.cons.inj heq
    exact absurd rfl hsign.1
  · rename_i t heq
    obtain ⟨rfl, -⟩ := List.cons.inj heq
    exact absurd rfl hsign.2
  · simp [hdigits]

/-- **ParseChainID returns the EIP-155 number** of a chain ID of the grammar, once trimmed. -/
theorem ParseChainID_of_form {s : String} {id n e : List Char}
    (hlen : (TrimSpace s).utf8ByteSize ≤ 48) (h : ChainIDForm (TrimSpace s).toList id n e) :
    ParseChainID s = .ok (Strconv.digitsValue 10 0 n : Int) := by
  have hn : String.ofList n ≠ "" := by
    obtain ⟨d, ds, rfl, -⟩ := h.eip155
    intro hempty
    have := congrArg String.toList hempty
    simp at this
  have hname : String.ofList id ≠ "" := by
    intro hempty
    have := congrArg String.toList hempty
    simp only [String.toList_ofList] at this
    exact h.name.1 (this.trans String.toList_empty)
  simp only [ParseChainID, if_neg (Nat.not_lt.mpr hlen), FindStringSubmatch_ethermintChainID h]
  simp [hname, SetString_numeral h.eip155]

/-- **ParseChainID succeeds exactly when IsValidChainID accepts the trimmed string.** -/
theorem ParseChainID_ok_iff {s : String} :
    (∃ v, ParseChainID s = .ok v) ↔ IsValidChainID (TrimSpace s) = true := by
  constructor
  · rintro ⟨v, hv⟩
    by_cases hlen : (TrimSpace s).utf8ByteSize > 48
    · simp only [ParseChainID, if_pos hlen, reduceCtorEq] at hv
    · rw [IsValidChainID, if_neg hlen]
      -- a failed match is an error
      by_contra hmatch
      simp only [ParseChainID, if_neg hlen,
        FindStringSubmatch_eq_none (Bool.eq_false_iff.mpr hmatch), reduceCtorEq] at hv
  · intro hvalid
    obtain ⟨hlen, id, n, e, hform⟩ := IsValidChainID_iff.mp hvalid
    exact ⟨_, ParseChainID_of_form hlen hform⟩

/-! ## White space around a chain ID -/

/-- A chain ID has no white space: its characters are letters, digits, `_` and `-`. -/
theorem ChainIDForm.not_space {s id n e : List Char} (h : ChainIDForm s id n e) :
    ∀ c ∈ s, IsSpace c = false := by
  -- each class lies in a range of visible characters
  have hdigit : ∀ c : Char, '0' ≤ c ∧ c ≤ '9' → IsSpace c = false :=
    fun _ => IsSpace_of_visible (by decide) (by decide)
  have hletter : ∀ c : Char, 'a' ≤ c ∧ c ≤ 'z' → IsSpace c = false :=
    fun _ => IsSpace_of_visible (by decide) (by decide)
  intro c hc
  rw [h.eq] at hc
  simp only [List.mem_append, List.mem_cons] at hc
  rcases hc with hc | rfl | hc | rfl | hc
  · exact hletter c (h.name.2 c hc)
  · decide
  · exact hdigit c (h.eip155.digits c hc)
  · decide
  · exact hdigit c (h.epoch.digits c hc)

/-- ParseChainID reads only the trimmed string. -/
theorem ParseChainID_congr {s t : String} (h : TrimSpace s = TrimSpace t) :
    ParseChainID s = ParseChainID t := by
  unfold ParseChainID
  rw [h]

/-- **Padding does not change ParseChainID**: white space around a chain ID of the grammar is
    trimmed away. -/
theorem ParseChainID_pad {s : String} {id n e : List Char} (h : ChainIDForm s.toList id n e)
    {pre post : List Char} (hpre : ∀ c ∈ pre, IsSpace c = true)
    (hpost : ∀ c ∈ post, IsSpace c = true) :
    ParseChainID (String.ofList (pre ++ s.toList ++ post)) = ParseChainID s := by
  have hhead : ∀ c, s.toList.head? = some c → IsSpace c = false :=
    fun c hc => h.not_space c (List.mem_of_mem_head? hc)
  have hlast : ∀ c, s.toList.getLast? = some c → IsSpace c = false :=
    fun c hc => h.not_space c (List.mem_of_getLast? hc)
  apply ParseChainID_congr
  rw [← String.toList_inj, toList_TrimSpace_pad hpre hpost hhead hlast]
  have hnil : ∀ c ∈ ([] : List Char), IsSpace c = true := fun _ h => by cases h
  have hself := toList_TrimSpace_pad hnil hnil hhead hlast
  simp only [List.nil_append, List.append_nil, String.ofList_toList] at hself
  exact hself.symm

/-- **IsValidChainID refuses a padded chain ID**: the expression has no white space. -/
theorem IsValidChainID_pad {s : String} {pre post : List Char} (hpad : pre ++ post ≠ [])
    (hpre : ∀ c ∈ pre, IsSpace c = true) (hpost : ∀ c ∈ post, IsSpace c = true) :
    IsValidChainID (String.ofList (pre ++ s.toList ++ post)) = false := by
  rw [← Bool.not_eq_true, IsValidChainID_iff]
  rintro ⟨-, id, n, e, hform⟩
  obtain ⟨c, hc⟩ := List.exists_mem_of_ne_nil _ hpad
  have hspace : IsSpace c = true := (List.mem_append.mp hc).elim (hpre c) (hpost c)
  have hmem : c ∈ (String.ofList (pre ++ s.toList ++ post)).toList := by
    rw [String.toList_ofList]
    rcases List.mem_append.mp hc with hc | hc
    · exact List.mem_append_left _ (List.mem_append_left _ hc)
    · exact List.mem_append_right _ hc
  rw [hform.not_space c hmem] at hspace
  cases hspace

/-- **ParseChainID and IsValidChainID disagree on a padded chain ID**: `" ethermint_9000-1"`
    parses to 9000 and is not valid. -/
theorem ParseChainID_accepts_padded_chain_id :
    ParseChainID " ethermint_9000-1" = .ok 9000 ∧ IsValidChainID " ethermint_9000-1" = false := by
  decide

end AnconEvm
