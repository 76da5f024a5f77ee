import Mathlib.Logic.Basic
/-
  Go control flow in `Except`: a sequence of steps that may fail, and a `for` loop over a list
  whose body may fail, stop early or go on.  A `filterMapM` whose steps cannot fail is a
  `filterMap` (`Except.filterMapM_eq_ok`).

  A successful sequence is taken apart with `Except.bind_eq_ok`.  A loop is reasoned about by an
  invariant of its state (`Except.forIn_invariant`): one that every successful run of the body
  keeps, whether the body goes on (`yield`) or stops (`done`), holds of the state a successful
  loop ends in.
-/

namespace Except

variable {ε α β : Type}

/-- A successful `do` step: the first computation succeeded, and the rest did from its value. -/
theorem bind_eq_ok {x : Except ε α} {f : α → Except ε β} {b : β} (h : x >>= f = .ok b) :
    ∃ a, x = .ok a ∧ f a = .ok b := by
  cases x with
  | error e => cases h
  | ok a => exact ⟨a, rfl, h⟩

/-- A successful result seen through a map: the computation succeeded, with a value mapped to it. -/
theorem map_eq_ok {x : Except ε α} {f : α → β} {b : β} (h : x.map f = .ok b) :
    ∃ a, x = .ok a ∧ f a = b := by
  cases x with
  | error e => cases h
  | ok a => exact ⟨a, rfl, Except.ok.inj h⟩

/-- A step that succeeded passes its value on. -/
@[simp] theorem ok_bind (a : α) (f : α → Except ε β) : (Except.ok a >>= f) = f a := rfl

/-- **A `filterMapM` whose every step succeeds** is the `filterMap` of the steps' values. -/
theorem filterMapM_eq_ok {f : α → Except ε (Option β)} {g : α → Option β} {l : List α}
    (hf : ∀ a ∈ l, f a = .ok (g a)) : l.filterMapM f = .ok (l.filterMap g) := by
  induction l with
  | nil => rfl
  | cons a l ih =>
    rw [List.filterMapM_cons, hf a List.mem_cons_self,
      ih fun a' ha' => hf a' (List.mem_cons_of_mem a ha'), List.filterMap_cons]
    cases g a <;> rfl

/-- **The invariant rule of a `for` loop**: an invariant of the loop state that each successful
    run of the body keeps holds when the loop succeeds. -/
theorem forIn_invariant (I : β → Prop) {l : List α} {f : α → β → Except ε (ForInStep β)}
    {b b' : β} (h0 : I b) (hf : ∀ a ∈ l, ∀ b r, I b → f a b = .ok r → I r.value)
    (h : forIn l b f = .ok b') : I b' := by
  induction l generalizing b with
  | nil =>
    cases h
    exact h0
  | cons a l ih =>
    rw [List.forIn_cons] at h
    obtain ⟨r, hr, hrest⟩ := bind_eq_ok h
    have hI : I r.value := hf a List.mem_cons_self b r h0 hr
    cases r with
    | done c =>
      cases hrest
      exact hI
    | yield c => exact ih hI (fun a' ha' => hf a' (List.mem_cons_of_mem a ha')) hrest

end Except
