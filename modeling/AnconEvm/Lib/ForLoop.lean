import Mathlib.Logic.Basic
/-
  A Go `for` loop with a condition, run with fuel.  Each round of the body either exits with a
  result (`.inl`: the condition failed, or the body returned) or goes on with a new state (`.inr`).
  At most `fuel` rounds run, and running out of fuel is `none`, so a loop that never exits is
  `none` for every fuel.

  Three rules reason about such loops:
    * `run_inv`: an invariant that every round keeps holds of every result (partial correctness);
    * `run_exits`: an invariant under which every round lowers a measure makes the loop exit
      (a variant), with enough fuel given by the measure;
    * `run_diverges`: a set of states that every round stays inside makes the loop run out of
      every fuel.
-/

namespace ForLoop

variable {σ α : Type}

/-- The loop: `body` exits with a result (`.inl`) or goes on with a new state (`.inr`); at most
    `fuel` rounds run, and `none` means the fuel ran out. -/
def run (body : σ → α ⊕ σ) : Nat → σ → Option α
  | 0, _ => none
  | fuel + 1, s =>
    match body s with
    | .inl a => some a
    | .inr s' => run body fuel s'

variable {body : σ → α ⊕ σ}

@[simp] theorem run_zero (s : σ) : run body 0 s = none := rfl

theorem run_succ_of_inl {s : σ} {a : α} (h : body s = .inl a) (fuel : Nat) :
    run body (fuel + 1) s = some a := by
  rw [run, h]

theorem run_succ_of_inr {s s' : σ} (h : body s = .inr s') (fuel : Nat) :
    run body (fuel + 1) s = run body fuel s' := by
  rw [run, h]

/-- **A loop that exits keeps its result under more fuel.** -/
theorem run_mono {n m : Nat} (hle : n ≤ m) {s : σ} {a : α} (h : run body n s = some a) :
    run body m s = some a := by
  induction n generalizing m s with
  | zero => cases h
  | succ n ih =>
    obtain ⟨m, rfl⟩ : ∃ m', m = m' + 1 := ⟨m - 1, by omega⟩
    cases hb : body s with
    | inl b =>
      rw [run_succ_of_inl hb] at h ⊢
      exact h
    | inr s' =>
      rw [run_succ_of_inr hb] at h ⊢
      exact ih (by omega) h

section Rules

variable (P : σ → Prop)

/-- **Invariant rule**: an invariant that every round going on keeps, and from which every exit
    gives `Q`, gives `Q` of every result. -/
theorem run_inv {Q : α → Prop} (hexit : ∀ s a, P s → body s = .inl a → Q a)
    (hnext : ∀ s s', P s → body s = .inr s' → P s') {fuel : Nat} {s : σ} {a : α} (hs : P s)
    (h : run body fuel s = some a) : Q a := by
  induction fuel generalizing s with
  | zero => cases h
  | succ fuel ih =>
    cases hb : body s with
    | inl b =>
      rw [run_succ_of_inl hb, Option.some.injEq] at h
      subst h
      exact hexit s b hs hb
    | inr s' =>
      rw [run_succ_of_inr hb] at h
      exact ih (hnext s s' hs hb) h

/-- **Variant rule**: under an invariant every round of which that goes on lowers a measure `μ`,
    the loop exits within `μ s + 1` rounds, with a result `Q` when every exit gives `Q`. -/
theorem run_exits {Q : α → Prop} (μ : σ → Nat) (hexit : ∀ s a, P s → body s = .inl a → Q a)
    (hnext : ∀ s s', P s → body s = .inr s' → P s' ∧ μ s' < μ s) {s : σ} (hs : P s) :
    ∃ a, run body (μ s + 1) s = some a ∧ Q a := by
  -- strong induction on the measure of the state
  induction hμ : μ s using Nat.strongRecOn generalizing s with
  | ind n ih =>
    cases hb : body s with
    | inl a => exact ⟨a, run_succ_of_inl hb _, hexit s a hs hb⟩
    | inr s' =>
      obtain ⟨hs', hlt⟩ := hnext s s' hs hb
      obtain ⟨a, hrun, hq⟩ := ih (μ s') (hμ ▸ hlt) hs' rfl
      refine ⟨a, ?_, hq⟩
      rw [run_succ_of_inr hb]
      exact run_mono (by omega) hrun

/-- **Divergence rule**: from a set of states in which every round goes on to a state of the set,
    the loop never exits: it runs out of every fuel. -/
theorem run_diverges (hnext : ∀ s, P s → ∃ s', body s = .inr s' ∧ P s') {s : σ} (hs : P s)
    (fuel : Nat) : run body fuel s = none := by
  induction fuel generalizing s with
  | zero => rfl
  | succ fuel ih =>
    obtain ⟨s', hb, hs'⟩ := hnext s hs
    rw [run_succ_of_inr hb]
    exact ih hs'

end Rules

end ForLoop
