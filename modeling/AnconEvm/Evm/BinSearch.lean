import AnconEvm.Lib.ForLoop
import AnconEvm.Evm.Query
/-
  The binary search of EstimateGas (x/evm/types/utils.go, BinSearch; the bounds from
  x/evm/keeper/grpc_query.go, EstimateGas).

  BinSearch probes the midpoint `(hi + lo) / 2` while `lo + 1 < hi`, in uint64, so the sum wraps
  modulo `2^64`: every midpoint lies below `2^63`.  The loop is a `ForLoop` over `(lo, hi)`.
  Steps:
    1. `round_eq_inl`, `round_eq_inr`: what one round can do.
    2. `SearchInv`: `lo` fails, `hi` lies in the searched range above it and passes below its
       top.  Every round keeps it, wrap or not, because a midpoint below `lo` fails too
       (`SearchInv.next`), so a search that returns finds the least sufficient gas
       (`BinSearch_sound`).
    3. Without a wrap (`hi ≤ 2^63`) `hi - lo` falls each round, so the search returns
       (`BinSearch_least_sufficient`).
    4. With `hi > 2^63` and an executable that fails below `2^63`, every midpoint fails and `hi`
       never moves: the search never returns (`BinSearch_diverges_of_wrap`).  EstimateGas
       searches up to the request's gas when the gas cap allows it.
-/

namespace AnconEvm.Evm

variable {ρ ε : Type}

/-! ## BinSearch -/

/-- One round of BinSearch's loop on `(lo, hi)`: while `lo + 1 < hi` probe the midpoint; an error
    ends the search with `(0, err)`, a failure raises `lo` to the midpoint and a success lowers
    `hi` to it.  Once `lo + 1 ≥ hi` the search returns `(hi, nil)`. -/
def BinSearch.round (executable : UInt64 → Bool × ρ × Option ε) :
    UInt64 × UInt64 → (UInt64 × Option ε) ⊕ (UInt64 × UInt64)
  | (lo, hi) =>
    if lo + 1 < hi then
      let mid := (hi + lo) / 2
      let (failed, _, err) := executable mid
      -- a consensus error: the message is never accepted, whatever its gas
      match err with
      | some err => .inl (0, some err)
      | none => if failed then .inr (mid, hi) else .inr (lo, mid)
    else .inl (hi, none)

/-- BinSearch, running at most `fuel` rounds of its loop: `none` when they run out. -/
def BinSearch (fuel : Nat) (lo hi : UInt64) (executable : UInt64 → Bool × ρ × Option ε) :
    Option (UInt64 × Option ε) :=
  ForLoop.run (BinSearch.round executable) fuel (lo, hi)

/-! ## The bounds of EstimateGas -/

/-- ethparams.TxGas: the gas of a plain transfer. -/
def TxGas : UInt64 := 21000

/-- The bounds EstimateGas searches.  A gas cap below TxGas is refused.  Then `lo = TxGas - 1`;
    `hi` is the request's gas when it is at least TxGas, else the block gas limit when the
    consensus parameters give a positive one, else the gas cap; a nonzero gas cap caps `hi`. -/
def EstimateGasBounds (args : CallArgs) (maxGas : Option Int) (gasCap : UInt64) :
    Except String (UInt64 × UInt64) :=
  if gasCap < TxGas then .error "gas cap cannot be lower than 21,000"
  else
    let lo := TxGas - 1
    -- the highest gas limit the estimation can use
    let hi :=
      if args.Gas.any (TxGas ≤ ·) then args.Gas.getD 0
      else if maxGas.any (0 < ·) then UInt64.ofInt (maxGas.getD 0)
      else gasCap
    -- recap the highest gas allowance with the gas cap
    let hi := if gasCap ≠ 0 ∧ hi > gasCap then gasCap else hi
    .ok (lo, hi)

/-- A request's gas of at least TxGas, within the gas cap, is the top of the search. -/
theorem EstimateGasBounds_of_gas (args : CallArgs) (maxGas : Option Int) {gas gasCap : UInt64}
    (hgas : args.Gas = some gas) (hle : TxGas ≤ gas) (hcap : gas ≤ gasCap) :
    EstimateGasBounds args maxGas gasCap = .ok (20999, gas) := by
  have hcap' : ¬ gasCap < TxGas := UInt64.not_lt.mpr (UInt64.le_trans hle hcap)
  simp only [EstimateGasBounds, if_neg hcap', hgas, Option.any_some, decide_eq_true hle, if_true,
    Option.getD_some, gt_iff_lt, if_neg (fun h : gasCap ≠ 0 ∧ gasCap < gas => UInt64.not_lt.mpr hcap h.2)]
  rfl

/-! ## Midpoints in uint64 -/

section Midpoint

variable {lo hi : UInt64}

/-- Every midpoint lies below `2^63`: it is half of a uint64. -/
theorem toNat_mid_lt (lo hi : UInt64) : ((hi + lo) / 2).toNat < 2 ^ 63 := by
  have := (hi + lo).toNat_lt
  rw [UInt64.toNat_div]
  simp only [UInt64.reduceToNat]
  omega

/-- The midpoint, wrap or not. -/
theorem toNat_mid (lo hi : UInt64) :
    ((hi + lo) / 2).toNat = (hi.toNat + lo.toNat) % 2 ^ 64 / 2 := by
  rw [UInt64.toNat_div, UInt64.toNat_add]
  rfl

/-- The midpoint lies below `hi`, whether or not `hi + lo` wraps. -/
theorem mid_lt (h : lo < hi) : (hi + lo) / 2 < hi := by
  rw [UInt64.lt_iff_toNat_lt] at h ⊢
  rw [toNat_mid]
  have := hi.toNat_lt
  omega

/-- Below `hi - 1`, `lo + 1 < hi` holds in uint64. -/
theorem add_one_lt_of_toNat (h : lo.toNat + 1 < hi.toNat) : lo + 1 < hi := by
  rw [UInt64.lt_iff_toNat_lt, UInt64.toNat_add]
  simp only [UInt64.reduceToNat]
  omega

/-- For `lo < hi`, `lo + 1 < hi` in uint64 is the comparison of the numbers: `lo + 1` does not
    wrap. -/
theorem add_one_lt_iff (hlt : lo < hi) : lo + 1 < hi ↔ lo.toNat + 1 < hi.toNat := by
  have := hi.toNat_lt
  have := UInt64.lt_iff_toNat_lt.mp hlt
  rw [UInt64.lt_iff_toNat_lt, UInt64.toNat_add]
  simp only [UInt64.reduceToNat]
  omega

end Midpoint

/-! ## One round -/

section Round

variable {executable : UInt64 → Bool × ρ × Option ε} {lo hi : UInt64}

/-- A round that exits: the range is closed, with `(hi, nil)`, or the probe erred, with
    `(0, err)`. -/
theorem round_eq_inl {r : UInt64 × Option ε} (h : BinSearch.round executable (lo, hi) = .inl r) :
    (¬ lo + 1 < hi ∧ r = (hi, none)) ∨
      (lo + 1 < hi ∧ ∃ err, (executable ((hi + lo) / 2)).2.2 = some err ∧ r = (0, some err)) := by
  by_cases hlt : lo + 1 < hi
  · simp only [BinSearch.round, if_pos hlt] at h
    cases herr : (executable ((hi + lo) / 2)).2.2 with
    | some err =>
      simp only [herr, Sum.inl.injEq] at h
      exact .inr ⟨hlt, err, rfl, h.symm⟩
    | none =>
      simp only [herr] at h
      split at h <;> cases h
  · simp only [BinSearch.round, if_neg hlt, Sum.inl.injEq] at h
    exact .inl ⟨hlt, h.symm⟩

/-- A round that goes on: the probe did not err, and its failure raised `lo` or its success
    lowered `hi` to the midpoint. -/
theorem round_eq_inr {s : UInt64 × UInt64} (h : BinSearch.round executable (lo, hi) = .inr s) :
    lo + 1 < hi ∧ (executable ((hi + lo) / 2)).2.2 = none ∧
      ((executable ((hi + lo) / 2)).1 = true ∧ s = ((hi + lo) / 2, hi) ∨
        (executable ((hi + lo) / 2)).1 = false ∧ s = (lo, (hi + lo) / 2)) := by
  by_cases hlt : lo + 1 < hi
  · simp only [BinSearch.round, if_pos hlt] at h
    cases herr : (executable ((hi + lo) / 2)).2.2 with
    | some err => simp only [herr, reduceCtorEq] at h
    | none =>
      simp only [herr] at h
      refine ⟨hlt, rfl, ?_⟩
      cases hfail : (executable ((hi + lo) / 2)).1 with
      | true =>
        simp only [hfail, if_true, Sum.inr.injEq] at h
        exact .inl ⟨rfl, h.symm⟩
      | false =>
        simp only [hfail, Bool.false_eq_true, if_false, Sum.inr.injEq] at h
        exact .inr ⟨rfl, h.symm⟩
  · simp only [BinSearch.round, if_neg hlt, reduceCtorEq] at h

/-- A probe that fails without an error raises `lo` to the midpoint. -/
theorem round_of_fails (hlt : lo + 1 < hi) (hfail : (executable ((hi + lo) / 2)).1 = true)
    (hnoerr : (executable ((hi + lo) / 2)).2.2 = none) :
    BinSearch.round executable (lo, hi) = .inr ((hi + lo) / 2, hi) := by
  simp only [BinSearch.round, if_pos hlt, hnoerr, hfail, if_true]

end Round

/-! ## What a search that returns finds -/

section Sound

variable (executable : UInt64 → Bool × ρ × Option ε)

/-- `r` is the least gas of `(lo, hi]` at which the executable does not fail, or `hi` when it
    fails on all of `(lo, hi)`. -/
structure LeastSufficient (lo hi r : UInt64) : Prop where
  lo_lt : lo < r
  le_hi : r ≤ hi
  fails_below : ∀ g, lo < g → g < r → (executable g).1 = true
  passes : r < hi → (executable r).1 = false

/-- The invariant of BinSearch's loop from `(lo, hi)` on its state `(l, h)`: `l` fails, `h` lies
    in `(lo, hi]` above `l`, and passes when it is below `hi`. -/
structure SearchInv (lo hi : UInt64) (s : UInt64 × UInt64) : Prop where
  lt : s.1 < s.2
  le_hi : s.2 ≤ hi
  lo_lt : lo < s.2
  fails : (executable s.1).1 = true
  passes : s.2 < hi → (executable s.2).1 = false

/-- The executable fails at every gas below one where it fails. -/
def FailsDownward : Prop :=
  ∀ g g', g' ≤ g → (executable g).1 = true → (executable g').1 = true

variable {executable} {lo hi : UInt64}

/-- The invariant holds at the start, when `lo` fails. -/
theorem SearchInv.init (hlo : (executable lo).1 = true) (hlt : lo < hi) :
    SearchInv executable lo hi (lo, hi) :=
  ⟨hlt, UInt64.le_refl hi, hlt, hlo, fun h => absurd h (UInt64.lt_irrefl hi)⟩

variable (hmono : FailsDownward executable)
include hmono

/-- A passing gas lies above every failing one. -/
theorem lt_of_passes {g g' : UInt64} (hg : (executable g).1 = true)
    (hg' : (executable g').1 = false) : g < g' := by
  by_contra hle
  have := hmono g g' (UInt64.not_lt.mp hle) hg
  rw [hg'] at this
  cases this

/-- **Every round that goes on keeps the invariant**, also when the midpoint wraps below `l`:
    it then fails, as `l` does. -/
theorem SearchInv.next (hlo : (executable lo).1 = true) {s s' : UInt64 × UInt64}
    (hinv : SearchInv executable lo hi s) (h : BinSearch.round executable s = .inr s') :
    SearchInv executable lo hi s' := by
  obtain ⟨l, r⟩ := s
  obtain ⟨-, -, hcases⟩ := round_eq_inr h
  have hmid : (r + l) / 2 < r := mid_lt hinv.lt
  rcases hcases with ⟨hfail, rfl⟩ | ⟨hpass, rfl⟩
  · -- the midpoint failed: it becomes `l`
    exact ⟨hmid, hinv.le_hi, hinv.lo_lt, hfail, hinv.passes⟩
  · -- the midpoint passed: it lies above `l` and `lo`, both failing, and becomes `h`
    exact ⟨lt_of_passes hmono hinv.fails hpass, UInt64.le_of_lt (UInt64.lt_of_lt_of_le hmid hinv.le_hi),
      lt_of_passes hmono hlo hpass, hinv.fails, fun _ => hpass⟩

/-- **A round that exits from the invariant returns the least sufficient gas**, without an error
    when the executable never errs: the range is closed, so `h = l + 1` and below it all fails. -/
theorem SearchInv.exit (hnoerr : ∀ g, (executable g).2.2 = none) {s : UInt64 × UInt64}
    {r : UInt64 × Option ε} (hinv : SearchInv executable lo hi s)
    (h : BinSearch.round executable s = .inl r) :
    r.2 = none ∧ LeastSufficient executable lo hi r.1 := by
  obtain ⟨l, t⟩ := s
  rcases round_eq_inl h with ⟨hclosed, rfl⟩ | ⟨-, err, herr, -⟩
  · have hlt' : l < t := hinv.lt
    have hlt : l.toNat < t.toNat := UInt64.lt_iff_toNat_lt.mp hlt'
    rw [add_one_lt_iff hlt'] at hclosed
    refine ⟨rfl, hinv.lo_lt, hinv.le_hi, fun g _ hgt => ?_, hinv.passes⟩
    -- below `t = l + 1` is at or below `l`, which fails
    have hgt' : g.toNat < t.toNat := UInt64.lt_iff_toNat_lt.mp hgt
    exact hmono l g (UInt64.le_iff_toNat_le.mpr (by omega)) hinv.fails
  · rw [hnoerr] at herr
    cases herr

/-- **A search that returns finds the least sufficient gas**, for every `lo < hi`, wrap or not,
    when the executable never errs, fails downward and fails at `lo`. -/
theorem BinSearch_sound (hnoerr : ∀ g, (executable g).2.2 = none)
    (hlo : (executable lo).1 = true) (hlt : lo < hi) {fuel : Nat} {r : UInt64 × Option ε}
    (h : BinSearch fuel lo hi executable = some r) :
    r.2 = none ∧ LeastSufficient executable lo hi r.1 :=
  ForLoop.run_inv (SearchInv executable lo hi) (fun _ _ hs hr => hs.exit hmono hnoerr hr)
    (fun _ _ hs hr => hs.next hmono hlo hr) (SearchInv.init hlo hlt) h

/-- **Without a wrap the search returns the least sufficient gas**: for `lo < hi ≤ 2^63`, when the
    executable never errs, fails downward and fails at `lo`, within `hi - lo + 1` rounds. -/
theorem BinSearch_least_sufficient (hnoerr : ∀ g, (executable g).2.2 = none)
    (hlo : (executable lo).1 = true) (hlt : lo < hi) (hhi : hi.toNat ≤ 2 ^ 63) :
    ∃ r, BinSearch (hi.toNat - lo.toNat + 1) lo hi executable = some (r, none) ∧
      LeastSufficient executable lo hi r := by
  -- the invariant, below `2^63`, with the width of the range as the measure
  let P : UInt64 × UInt64 → Prop := fun s => SearchInv executable lo hi s
  have hnext : ∀ s s', P s → BinSearch.round executable s = .inr s' →
      P s' ∧ s'.2.toNat - s'.1.toNat < s.2.toNat - s.1.toNat := by
    rintro ⟨l, t⟩ s' hs h
    refine ⟨hs.next hmono hlo h, ?_⟩
    obtain ⟨hopen, -, hcases⟩ := round_eq_inr h
    have hlt : l < t := hs.lt
    rw [add_one_lt_iff hlt] at hopen
    have ht : t.toNat ≤ 2 ^ 63 := le_trans (UInt64.le_iff_toNat_le.mp hs.le_hi) hhi
    have hmid := toNat_mid l t
    -- no wrap: the midpoint lies strictly inside the range
    rcases hcases with ⟨-, rfl⟩ | ⟨-, rfl⟩ <;> simp only at hopen ⊢ <;> omega
  obtain ⟨a, hrun, hnone, hls⟩ := ForLoop.run_exits P (fun s => s.2.toNat - s.1.toNat)
    (fun _ _ hs hr => hs.exit hmono hnoerr hr) hnext (SearchInv.init hlo hlt)
  obtain ⟨r, e⟩ := a
  simp only at hnone
  subst hnone
  exact ⟨r, hrun, hls⟩

omit hmono in
theorem BinSearch_least_sufficient_threshold :
    let executable := fun gas : UInt64 => (decide (gas < 21000), (), (none : Option String))
    ∃ r, BinSearch ((21001 : UInt64).toNat - (20000 : UInt64).toNat + 1) 20000 21001 executable =
      some (r, none) ∧ LeastSufficient executable 20000 21001 r :=
  BinSearch_least_sufficient
    (fun g g' hle h => by
      simp only [decide_eq_true_eq] at h ⊢
      exact UInt64.lt_of_le_of_lt hle h)
    (fun _ => rfl) rfl (by decide) (by decide)

/-- TestBinSearch: from `(20000, 21001)` the search finds the threshold 21000. -/
example : BinSearch 20 20000 21001 (fun gas => (decide (gas < 21000), (), (none : Option String))) =
    some (21000, none) := by
  decide +kernel

end Sound

/-! ## Errors -/

/-- **An error ends the search with `(0, err)`**: a result with an error is `0` and an error a
    probe returned. -/
theorem BinSearch_error {executable : UInt64 → Bool × ρ × Option ε} {fuel : Nat}
    {lo hi : UInt64} {r : UInt64 × Option ε} (h : BinSearch fuel lo hi executable = some r)
    {err : ε} (herr : r.2 = some err) : r.1 = 0 ∧ ∃ g, (executable g).2.2 = some err := by
  refine ForLoop.run_inv (fun _ => True) (Q := fun r => r.2 = some err → r.1 = 0 ∧
    ∃ g, (executable g).2.2 = some err) ?_ (fun _ _ _ _ => trivial) trivial h herr
  rintro ⟨l, t⟩ r - hr herr
  rcases round_eq_inl hr with ⟨-, rfl⟩ | ⟨-, err', hprobe, rfl⟩
  · cases herr
  · cases herr
    exact ⟨rfl, _, hprobe⟩

/-- TestBinSearch: an executable that errs ends the search at its first probe. -/
example : BinSearch 20 20000 21001 (fun _ => (true, (), some "contract failed")) =
    some (0, some "contract failed") := by
  decide +kernel

/-! ## The wrapping midpoint -/

/-- **From `hi > 2^63` the search never returns when the executable fails below `2^63`**: every
    midpoint lies below `2^63` (the sum wraps, or is halved), fails, and becomes `lo`; `hi` never
    moves, so the range never closes. -/
theorem BinSearch_diverges_of_wrap {executable : UInt64 → Bool × ρ × Option ε}
    (hnoerr : ∀ g, (executable g).2.2 = none)
    (hfail : ∀ g : UInt64, g.toNat < 2 ^ 63 → (executable g).1 = true) {lo hi : UInt64}
    (hhi : 2 ^ 63 < hi.toNat) (hlo : lo + 1 < hi) (fuel : Nat) :
    BinSearch fuel lo hi executable = none := by
  refine ForLoop.run_diverges (fun s => s.2 = hi ∧ s.1 + 1 < hi) ?_ ⟨rfl, hlo⟩ fuel
  rintro ⟨l, t⟩ ⟨ht, hopen⟩
  simp only at ht hopen
  subst ht
  have hmid := toNat_mid_lt l t
  refine ⟨((t + l) / 2, t), round_of_fails hopen (hfail _ hmid) (hnoerr _), rfl, ?_⟩
  show (t + l) / 2 + 1 < t
  exact add_one_lt_of_toNat (by omega)

/-- **BinSearch does not return on EstimateGas's bounds for a call that always fails**: a request
    with gas `2^64 - 1` and the gas cap `2^64 - 1` searches `(20999, 2^64 - 1)`.  An executable
    that fails at every gas without an error (a call that always reverts) fails downward and fails
    at `lo`, yet the search never returns. -/
theorem EstimateGas_BinSearch_never_returns :
    let args : CallArgs := ⟨none, some 0x2000, some (2 ^ 64 - 1), none, none, none, none⟩
    let executable : UInt64 → Bool × Option MsgEthereumTxResponse × Option String :=
      fun _ => (true, none, none)
    EstimateGasBounds args none (2 ^ 64 - 1) = .ok (20999, 2 ^ 64 - 1) ∧
      (∀ g, (executable g).2.2 = none) ∧ FailsDownward executable ∧ (executable 20999).1 = true ∧
      ∀ fuel, BinSearch fuel 20999 (2 ^ 64 - 1) executable = none := by
  intro args executable
  refine ⟨EstimateGasBounds_of_gas args none rfl (by decide +kernel) (UInt64.le_refl _),
    fun _ => rfl, fun _ _ _ _ => rfl, rfl, ?_⟩
  exact BinSearch_diverges_of_wrap (fun _ => rfl) (fun _ _ => rfl) (by decide +kernel)
    (by decide +kernel)

end AnconEvm.Evm
