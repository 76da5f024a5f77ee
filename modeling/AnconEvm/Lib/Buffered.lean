import Mathlib.Algebra.Group.Action.Defs
/-
  Computations that read a state and BUFFER their writes.

  A `Buffered D S ε α` starts from a state `s : S`, and either fails with an `ε` or returns its
  result together with the write buffer `d : D` it made; the state it leaves is `d • s`.  In
  `x >>= f` the continuation reads the state with `x`'s buffer applied, and the two buffers are
  multiplied, the later write first (`d₂ * d₁`).  A failed computation leaves no buffer at all.

  This is how a keeper running through a context stack writes: it reads the state through the
  top context and hands its buffer to that context (`ContextStack.write`), so code written as a
  plain sequence of reads and writes can be run on any layer of the stack.
-/

/-- A computation over states `S` that reads the state it starts from and returns, with its
    result, the writes it made as a buffer `D`; it may fail with `ε`. -/
def Buffered (D S ε α : Type) : Type := S → Except ε (α × D)

namespace Buffered

variable {D S ε α β : Type}

/-- Buffer the writes `d`. -/
def write (d : D) : Buffered D S ε Unit := fun _ => .ok ((), d)

/-- Fail with `e`, writing nothing. -/
def fail (e : ε) : Buffered D S ε α := fun _ => .error e

@[simp] theorem write_apply (d : D) (s : S) : (write d : Buffered D S ε Unit) s = .ok ((), d) :=
  rfl

@[simp] theorem fail_apply (e : ε) (s : S) : (fail e : Buffered D S ε α) s = .error e := rfl

variable [Monoid D]

/-- Return a value and write nothing. -/
protected def pure (a : α) : Buffered D S ε α := fun _ => .ok (a, 1)

/-- The current state. -/
def read : Buffered D S ε S := fun s => .ok (s, 1)

@[simp] theorem read_apply (s : S) : (read : Buffered D S ε S) s = .ok (s, 1) := rfl

variable [MulAction D S]

/-- Run `x`, then `f` on its result from the state with `x`'s writes applied. -/
protected def bind (x : Buffered D S ε α) (f : α → Buffered D S ε β) : Buffered D S ε β :=
  fun s =>
    match x s with
    | .error e => .error e
    | .ok (a, d) =>
      match f a (d • s) with
      | .error e => .error e
      | .ok (b, d') => .ok (b, d' * d)

instance : Monad (Buffered D S ε) where
  pure := Buffered.pure
  bind := Buffered.bind

/-- The state a computation leaves: its writes applied to the state it started from. -/
def exec (x : Buffered D S ε α) (s : S) : Except ε S :=
  (x s).map fun r => r.2 • s

@[simp] theorem pure_apply (a : α) (s : S) : (pure a : Buffered D S ε α) s = .ok (a, 1) := rfl

/-- A failed first step fails the sequence. -/
theorem bind_apply_error {x : Buffered D S ε α} {f : α → Buffered D S ε β} {s : S} {e : ε}
    (h : x s = .error e) : (x >>= f) s = .error e := by
  show Buffered.bind x f s = _
  simp only [Buffered.bind, h]

/-- A successful first step hands its result and its state to the rest. -/
theorem bind_apply_ok {x : Buffered D S ε α} {f : α → Buffered D S ε β} {s : S} {a : α} {d : D}
    (h : x s = .ok (a, d)) :
    (x >>= f) s = (f a (d • s)).map fun r => (r.1, r.2 * d) := by
  show Buffered.bind x f s = _
  simp only [Buffered.bind, h]
  cases f a (d • s) with
  | error e => rfl
  | ok r => rfl

/-- A first step that writes nothing hands the same state to the rest. -/
theorem bind_apply_of_read {x : Buffered D S ε α} {f : α → Buffered D S ε β} {s : S} {a : α}
    (h : x s = .ok (a, 1)) : (x >>= f) s = f a s := by
  rw [bind_apply_ok h, one_smul]
  cases f a s with
  | error e => rfl
  | ok r =>
    show Except.ok (r.1, r.2 * 1) = Except.ok r
    rw [mul_one]

/-- A sequence ending in `pure` maps the first step's result and keeps its writes. -/
theorem bind_pure_apply (x : Buffered D S ε α) (f : α → β) (s : S) :
    (x >>= fun a => pure (f a)) s = (x s).map fun r => (f r.1, r.2) := by
  cases hx : x s with
  | error e => exact bind_apply_error hx
  | ok r =>
    rw [bind_apply_ok hx, pure_apply]
    show Except.ok (f r.1, 1 * r.2) = Except.ok (f r.1, r.2)
    rw [one_mul]

/-- Inversion of a successful sequence. -/
theorem bind_eq_ok {x : Buffered D S ε α} {f : α → Buffered D S ε β} {s : S} {b : β} {d : D}
    (h : (x >>= f) s = .ok (b, d)) :
    ∃ a d₁ d₂, x s = .ok (a, d₁) ∧ f a (d₁ • s) = .ok (b, d₂) ∧ d = d₂ * d₁ := by
  cases hx : x s with
  | error e =>
    rw [bind_apply_error hx] at h
    cases h
  | ok r =>
    obtain ⟨a, d₁⟩ := r
    rw [bind_apply_ok hx] at h
    cases hf : f a (d₁ • s) with
    | error e =>
      rw [hf] at h
      cases h
    | ok r' =>
      obtain ⟨b', d₂⟩ := r'
      rw [hf] at h
      cases h
      exact ⟨a, d₁, d₂, rfl, hf, rfl⟩

/-! ## Invariants of the state

  `Preserves P x`: from a state satisfying `P`, every successful run of `x` leaves a state
  satisfying `P`.  The rules follow the combinators: reads and failures change no state, a write
  must keep `P` itself, and a sequence keeps `P` when each of its steps does. -/

/-- `x` keeps the invariant `P` of the state over every successful run. -/
def Preserves (P : S → Prop) (x : Buffered D S ε α) : Prop :=
  ∀ s a d, P s → x s = .ok (a, d) → P (d • s)

variable {P : S → Prop}

theorem Preserves.pure (a : α) : Preserves P (pure a : Buffered D S ε α) := by
  intro s b d hs h
  cases h
  rwa [one_smul]

theorem Preserves.read : Preserves P (read : Buffered D S ε S) := by
  intro s b d hs h
  cases h
  rwa [one_smul]

theorem Preserves.fail (e : ε) : Preserves P (fail e : Buffered D S ε α) := by
  intro s b d hs h
  cases h

theorem Preserves.write {d : D} (hd : ∀ s, P s → P (d • s)) :
    Preserves P (write d : Buffered D S ε Unit) := by
  intro s b d' hs h
  cases h
  exact hd s hs

theorem Preserves.bind {x : Buffered D S ε α} {f : α → Buffered D S ε β} (hx : Preserves P x)
    (hf : ∀ a, Preserves P (f a)) : Preserves P (x >>= f) := by
  intro s b d hs h
  obtain ⟨a, d₁, d₂, h₁, h₂, rfl⟩ := bind_eq_ok h
  rw [mul_smul]
  exact hf a (d₁ • s) b d₂ (hx s a d₁ hs h₁) h₂

theorem Preserves.ite {c : Prop} [Decidable c] {x y : Buffered D S ε α} (hx : Preserves P x)
    (hy : Preserves P y) : Preserves P (if c then x else y) := by
  split
  · exact hx
  · exact hy

/-- The state a successful run of such a computation leaves keeps the invariant. -/
theorem Preserves.exec {x : Buffered D S ε α} {s s' : S} (hx : Preserves P x) (hs : P s)
    (h : exec x s = .ok s') : P s' := by
  unfold Buffered.exec at h
  cases hxs : x s with
  | error e =>
    rw [hxs] at h
    cases h
  | ok r =>
    rw [hxs] at h
    cases h
    exact hx s r.1 r.2 hs hxs

end Buffered
