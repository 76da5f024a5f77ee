import Mathlib.Data.List.Basic
/-
  Regular expressions of one shape, as Go's regexp runs them: `^r₁r₂…rₖ$`, each `rᵢ` a character
  class repeated between a least and a greatest count (`{m}`, `{m,}`, `*`, `+`), matched
  greedily, inside a capture group or not.

  Go's regexp reports the match that a backtracking matcher finds first (leftmost-first, and
  anchored here).  `splits` lists the matches in that order: each match is a split of the text
  into one piece per item, the greedy item trying its longest run first.  Its members are exactly
  the splits whose pieces the items take (`mem_splits_iff`), so `MatchString` is "some split
  matches", and `FindStringSubmatch` reads the groups off the one split that matches when the
  match is unique (`FindStringSubmatch_of_unique`).
-/

namespace Regex

/-- One item: characters of class `cls`, between `min` and `max` of them (`max = none`:
    unbounded), in capture group `group` if any. -/
structure Rep where
  cls : Char → Bool
  min : Nat
  max : Option Nat
  group : Option Nat

namespace Rep

/-- The item allows `n` repetitions. -/
def Allows (r : Rep) (n : Nat) : Bool := decide (r.min ≤ n) && r.max.all (n ≤ ·)

/-- The counts the greedy item tries at the start of `s`, longest first: those it allows, up to
    the run of its class there. -/
def counts (r : Rep) (s : List Char) : List Nat :=
  (List.range ((s.takeWhile r.cls).length + 1)).reverse.filter r.Allows

/-- A piece the item takes: a run of its class, of a length it allows. -/
def Takes (r : Rep) (piece : List Char) : Prop :=
  (∀ c ∈ piece, r.cls c = true) ∧ r.Allows piece.length = true

end Rep

/-- The items in capture group `g`: `(items)`. -/
def group (g : Nat) (items : List Rep) : List Rep := items.map fun r => { r with group := some g }

/-- The matches of the items on all of `s`, in the order a backtracking matcher tries them: each
    the list of the pieces the items take. -/
def splits : List Rep → List Char → List (List (List Char))
  | [], s => if s = [] then [[]] else []
  | r :: rs, s => (r.counts s).flatMap fun n => (splits rs (s.drop n)).map (s.take n :: ·)

/-- The pieces, one per item, each taken by its item. -/
def Matches : List Rep → List (List Char) → Prop
  | [], [] => True
  | r :: rs, p :: ps => r.Takes p ∧ Matches rs ps
  | _, _ => False

/-- regexp.MatchString of `^items$`. -/
def MatchString (items : List Rep) (s : String) : Bool := !(splits items s.toList).isEmpty

/-- The text capture group `g` holds in a match: the pieces of its items. -/
def capture (items : List Rep) (pieces : List (List Char)) (g : Nat) : String :=
  String.ofList (((items.zip pieces).filter fun e => e.1.group == some g).flatMap (·.2))

/-- regexp.FindStringSubmatch of `^items$` with `groups` capture groups: the text of the first
    match, then the text of each group; `none` (Go's nil) when nothing matches. -/
def FindStringSubmatch (items : List Rep) (groups : Nat) (s : String) : Option (List String) :=
  match splits items s.toList with
  | [] => none
  | pieces :: _ =>
    some (String.ofList pieces.flatten :: (List.range groups).map fun g => capture items pieces (g + 1))

/-! ## Matches -/

@[simp] theorem Matches_nil_iff {ps : List (List Char)} : Matches [] ps ↔ ps = [] := by
  cases ps <;> simp [Matches]

@[simp] theorem Matches_cons_iff {r : Rep} {rs : List Rep} {ps : List (List Char)} :
    Matches (r :: rs) ps ↔ ∃ p qs, ps = p :: qs ∧ r.Takes p ∧ Matches rs qs := by
  cases ps <;> simp [Matches]

/-- An item `c{1}` takes one character of its class. -/
theorem takes_one_iff {cls : Char → Bool} {g : Option Nat} {p : List Char} :
    Rep.Takes ⟨cls, 1, some 1, g⟩ p ↔ ∃ c, p = [c] ∧ cls c = true := by
  constructor
  · rintro ⟨hcls, hallows⟩
    simp only [Rep.Allows, Option.all_some, Bool.and_eq_true, decide_eq_true_eq] at hallows
    match p, hallows with
    | [c], _ => exact ⟨c, rfl, hcls c List.mem_cons_self⟩
  · rintro ⟨c, rfl, hc⟩
    exact ⟨by simpa using hc, by simp [Rep.Allows]⟩

/-- An item `c{1,}` (`c+`) takes a non-empty run of its class. -/
theorem takes_plus_iff {cls : Char → Bool} {g : Option Nat} {p : List Char} :
    Rep.Takes ⟨cls, 1, none, g⟩ p ↔ p ≠ [] ∧ ∀ c ∈ p, cls c = true := by
  simp only [Rep.Takes, Rep.Allows, Option.all_none, Bool.and_true, decide_eq_true_eq,
    Nat.one_le_iff_ne_zero, ne_eq, List.length_eq_zero_iff]
  exact And.comm

/-- An item `c*` takes any run of its class. -/
theorem takes_star_iff {cls : Char → Bool} {g : Option Nat} {p : List Char} :
    Rep.Takes ⟨cls, 0, none, g⟩ p ↔ ∀ c ∈ p, cls c = true := by
  simp [Rep.Takes, Rep.Allows]

/-- A separator that the pieces before it do not contain fixes the split at it. -/
theorem append_cons_inj_of_not_mem {α : Type} {c : α} :
    ∀ {a a' b b' : List α}, a ++ c :: b = a' ++ c :: b' → c ∉ a → c ∉ a' → a = a' ∧ b = b'
  | [], [], _, _, h, _, _ => ⟨rfl, (List.cons.inj h).2⟩
  | [], x :: a', _, _, h, _, ha' => absurd ((List.cons.inj h).1 ▸ List.mem_cons_self) ha'
  | x :: a, [], _, _, h, ha, _ => absurd ((List.cons.inj h).1 ▸ List.mem_cons_self) ha
  | x :: a, y :: a', _, _, h, ha, ha' => by
    obtain ⟨hxy, h⟩ := List.cons.inj h
    obtain ⟨rfl, rfl⟩ := append_cons_inj_of_not_mem h (fun hc => ha (List.mem_cons_of_mem x hc))
      (fun hc => ha' (List.mem_cons_of_mem y hc))
    exact ⟨hxy ▸ rfl, rfl⟩

/-- The run of `p` at the start of `s` reaches `n` exactly when the first `n` characters all
    satisfy `p`. -/
theorem le_length_takeWhile_iff {p : Char → Bool} {s : List Char} {n : Nat} :
    n ≤ (s.takeWhile p).length ↔ n ≤ s.length ∧ ∀ c ∈ s.take n, p c = true := by
  induction s generalizing n with
  | nil => simp
  | cons a s ih =>
    cases n with
    | zero => simp
    | succ n =>
      by_cases ha : p a = true
      · simp only [List.takeWhile_cons, ha, if_true, List.length_cons, List.take_succ_cons,
          List.mem_cons, forall_eq_or_imp, true_and, Nat.add_le_add_iff_right, ih]
      · simp [ha]

theorem mem_counts_iff {r : Rep} {s : List Char} {n : Nat} :
    n ∈ r.counts s ↔ n ≤ (s.takeWhile r.cls).length ∧ r.Allows n = true := by
  simp only [Rep.counts, List.mem_filter, List.mem_reverse, List.mem_range, Nat.lt_succ_iff]

/-- **The backtracking matcher lists exactly the matches**: the splits of `s` into pieces that
    the items take. -/
theorem mem_splits_iff {rs : List Rep} {s : List Char} {ps : List (List Char)} :
    ps ∈ splits rs s ↔ Matches rs ps ∧ ps.flatten = s := by
  induction rs generalizing s ps with
  | nil =>
    cases ps with
    | nil => simp [splits, Matches, eq_comm]
    | cons p ps => simp [splits, Matches]
  | cons r rs ih =>
    simp only [splits, List.mem_flatMap, List.mem_map, mem_counts_iff, ih]
    cases ps with
    | nil => simp [Matches]
    | cons p ps =>
      simp only [List.cons.injEq, Matches, List.flatten_cons]
      constructor
      · -- the piece is the first `n` characters, a run of the class
        rintro ⟨n, ⟨hrun, hallows⟩, qs, ⟨hmatch, hflat⟩, rfl, rfl⟩
        obtain ⟨hlen, hcls⟩ := le_length_takeWhile_iff.mp hrun
        refine ⟨⟨⟨hcls, ?_⟩, hmatch⟩, ?_⟩
        · rwa [List.length_take, Nat.min_eq_left hlen]
        · rw [hflat, List.take_append_drop]
      · -- the first piece's length is the count
        rintro ⟨⟨⟨hcls, hallows⟩, hmatch⟩, rfl⟩
        have htake : (p ++ ps.flatten).take p.length = p := List.take_left' rfl
        refine ⟨p.length, ⟨?_, hallows⟩, ps, ⟨hmatch, ?_⟩, htake, rfl⟩
        · refine le_length_takeWhile_iff.mpr ⟨by simp, ?_⟩
          rw [htake]
          exact hcls
        · exact (List.drop_left' rfl).symm

/-- **MatchString holds exactly when some split matches.** -/
theorem MatchString_iff {items : List Rep} {s : String} :
    MatchString items s = true ↔ ∃ ps, Matches items ps ∧ ps.flatten = s.toList := by
  rw [MatchString, Bool.not_eq_true', List.isEmpty_eq_false_iff_exists_mem]
  simp only [mem_splits_iff]

/-- Without a match, FindStringSubmatch is nil. -/
theorem FindStringSubmatch_eq_none {items : List Rep} {groups : Nat} {s : String}
    (h : MatchString items s = false) : FindStringSubmatch items groups s = none := by
  rw [MatchString, Bool.not_eq_false', List.isEmpty_iff] at h
  rw [FindStringSubmatch, h]

/-- **The submatches of a unique match**: the whole text, then the text of each group. -/
theorem FindStringSubmatch_of_unique {items : List Rep} {groups : Nat} {s : String}
    {ps : List (List Char)} (hmatch : Matches items ps) (hflat : ps.flatten = s.toList)
    (huniq : ∀ qs, Matches items qs → qs.flatten = s.toList → qs = ps) :
    FindStringSubmatch items groups s =
      some (s :: (List.range groups).map fun g => capture items ps (g + 1)) := by
  have hmem : ps ∈ splits items s.toList := mem_splits_iff.mpr ⟨hmatch, hflat⟩
  rw [FindStringSubmatch]
  cases hs : splits items s.toList with
  | nil =>
    rw [hs] at hmem
    cases hmem
  | cons qs rest =>
    -- the first split the matcher finds is a match, hence the one
    have hqs := mem_splits_iff.mp (hs ▸ List.mem_cons_self : qs ∈ splits items s.toList)
    rw [huniq qs hqs.1 hqs.2]
    dsimp only
    rw [hflat, String.ofList_toList]

end Regex
