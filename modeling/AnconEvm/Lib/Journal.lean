import Mathlib.Algebra.Group.Action.Defs
import Mathlib.Data.List.Basic
/-
  Layered write buffers, and the snapshot journal they implement.

  A stack of cache layers over a base state is a list of buffers `[d₀, …, dₙ₋₁]` (bottom first)
  drawn from a monoid `D` that acts on states `S` (`KV.Delta` acting on `KV.Store` is the
  instance a key-value store gives).  The state it shows is `dₙ₋₁ • ⋯ • d₀ • s` (`Layers.view`).

  What such a stack is FOR is a journal (`Journal`): a current state and the states saved by the
  snapshots still open, where

  * a write changes the current state only;
  * a snapshot saves the current state and returns its position;
  * reverting to position `i` restores the `i`-th saved state and drops it and every later one;
  * committing keeps the current state and drops every snapshot;
  * the COMMITTED state (`Journal.committed`) is the oldest saved state, or the current one when
    no snapshot is open.

  `Layers.journal` reads the journal off a stack: the current state is the view of the whole stack
  and the `i`-th saved state is the view of its `i` lowest layers.  The four square lemmas
  (`journal_write`, `journal_push`, `journal_truncate`, `journal_flush`) say that writing into the
  top layer, pushing an empty layer, truncating the stack and flushing it into the base are the
  journal's write, snapshot, revert and commit.  A concrete layered store that performs these four
  moves therefore refines the journal, with no reasoning about its own representation.
-/

/-- A journal of states: the current state and the states saved by the open snapshots, oldest
    first. -/
structure Journal (S : Type) where
  /-- The state every read sees. -/
  current : S
  /-- The states saved by the snapshots still open, oldest first. -/
  saved : List S

namespace Journal

variable {S : Type}

/-- A write: change the current state by `f`. -/
def write (f : S → S) (j : Journal S) : Journal S := { j with current := f j.current }

/-- A snapshot: save the current state; its position is returned. -/
def snapshot (j : Journal S) : Nat × Journal S :=
  (j.saved.length, { j with saved := j.saved ++ [j.current] })

/-- Revert to the snapshot at position `i`: restore the state it saved, and drop it and every later
    snapshot (`none` when no such snapshot is open). -/
def revert (i : Nat) (j : Journal S) : Option (Journal S) :=
  j.saved[i]?.map fun s => ⟨s, j.saved.take i⟩

/-- Commit: keep the current state and close every snapshot. -/
def commit (j : Journal S) : Journal S := ⟨j.current, []⟩

/-- The committed state: the oldest saved state, or the current one when no snapshot is open. -/
def committed (j : Journal S) : S := j.saved.headD j.current

@[simp] theorem write_current (f : S → S) (j : Journal S) : (j.write f).current = f j.current := rfl
@[simp] theorem write_saved (f : S → S) (j : Journal S) : (j.write f).saved = j.saved := rfl
@[simp] theorem snapshot_fst (j : Journal S) : j.snapshot.1 = j.saved.length := rfl
@[simp] theorem snapshot_current (j : Journal S) : j.snapshot.2.current = j.current := rfl
@[simp] theorem snapshot_saved (j : Journal S) : j.snapshot.2.saved = j.saved ++ [j.current] := rfl
@[simp] theorem write_id (j : Journal S) : j.write id = j := rfl
theorem write_write (f g : S → S) (j : Journal S) : (j.write f).write g = j.write (g ∘ f) := rfl
@[simp] theorem commit_current (j : Journal S) : j.commit.current = j.current := rfl
@[simp] theorem commit_saved (j : Journal S) : j.commit.saved = [] := rfl

/-- A revert to an open snapshot restores exactly the state that snapshot saved. -/
theorem revert_eq_some {i : Nat} {j : Journal S} (h : i < j.saved.length) :
    j.revert i = some ⟨j.saved[i], j.saved.take i⟩ := by
  simp [revert, List.getElem?_eq_getElem h]

theorem revert_eq_none {i : Nat} {j : Journal S} (h : j.saved.length ≤ i) : j.revert i = none := by
  simp [revert, List.getElem?_eq_none h]

/-! ## Runs of a journal

  A run is a list of operations.  It is defined (`some`) exactly when every revert targets an
  open snapshot.  Three laws hold of every run, and they are what a journal is for:

  * `run_restores`: a snapshot, then any run that keeps it open, then a revert to it, restores the
    state the snapshot saw;
  * `committed_run`: while the oldest snapshot stays open, the committed state does not move;
  * `run_commit`: a commit publishes the current state. -/

/-- An operation on a journal. -/
inductive Op (S : Type)
  | write (f : S → S)
  | snapshot
  | revert (i : Nat)
  | commit

/-- One operation; `none` for a revert to a snapshot that is not open. -/
def exec : Op S → Journal S → Option (Journal S)
  | .write f, j => some (j.write f)
  | .snapshot, j => some j.snapshot.2
  | .revert i, j => j.revert i
  | .commit, j => some j.commit

/-- A run: the operations in order. -/
def run : List (Op S) → Journal S → Option (Journal S)
  | [], j => some j
  | op :: ops, j => (exec op j).bind (run ops)

/-- Snapshot `i` stays open through `ops`: no commit, and every revert targets a later snapshot. -/
def KeepsOpen (i : Nat) (ops : List (Op S)) : Prop :=
  ∀ op ∈ ops, (∀ k, op = .revert k → i < k) ∧ op ≠ .commit

/-- Every revert of `ops`, run from `n` open snapshots, targets a snapshot open at its time. -/
def RevertsOpen : Nat → List (Op S) → Prop
  | _, [] => True
  | n, .write _ :: ops => RevertsOpen n ops
  | n, .snapshot :: ops => RevertsOpen (n + 1) ops
  | n, .revert i :: ops => i < n ∧ RevertsOpen i ops
  | _, .commit :: ops => RevertsOpen 0 ops

@[simp] theorem run_nil (j : Journal S) : run [] j = some j := rfl

theorem run_append (ops ops' : List (Op S)) (j : Journal S) :
    run (ops ++ ops') j = (run ops j).bind (run ops') := by
  induction ops generalizing j with
  | nil => rfl
  | cons op ops ih =>
    simp only [List.cons_append, run]
    cases exec op j <;> simp [ih]

theorem KeepsOpen.tail {i : Nat} {op : Op S} {ops : List (Op S)} (h : KeepsOpen i (op :: ops)) :
    KeepsOpen i ops := fun o ho => h o (List.mem_cons_of_mem op ho)

/-- A run whose reverts all target open snapshots is defined. -/
theorem run_isSome {ops : List (Op S)} {j : Journal S} (h : RevertsOpen j.saved.length ops) :
    (run ops j).isSome := by
  induction ops generalizing j with
  | nil => rfl
  | cons op ops ih =>
    cases op with
    | write f => exact ih h
    | snapshot => exact ih (by simpa [RevertsOpen] using h)
    | revert i =>
      obtain ⟨hi, hrest⟩ := h
      simp only [run, exec, revert_eq_some hi, Option.bind_some]
      exact ih (by simpa [Nat.min_eq_left (Nat.le_of_lt hi)] using hrest)
    | commit => exact ih (by simpa [RevertsOpen] using h)

/-- **The frame of a run**: while snapshot `i` stays open, the saved states up to `i` are not
    touched.  Induction on the run; a write leaves `saved` alone, a snapshot appends to it, and a
    revert to a later snapshot `k > i` truncates it after position `k`. -/
theorem saved_take_run {i : Nat} {ops : List (Op S)} {j j' : Journal S} (hk : KeepsOpen i ops)
    (hi : i < j.saved.length) (h : run ops j = some j') :
    j'.saved.take (i + 1) = j.saved.take (i + 1) ∧ i < j'.saved.length := by
  induction ops generalizing j with
  | nil => cases h; exact ⟨rfl, hi⟩
  | cons op ops ih =>
    obtain ⟨hrev, hcommit⟩ := hk op List.mem_cons_self
    cases op with
    | write f =>
      simp only [run, exec, Option.bind_some] at h
      exact ih (j := j.write f) hk.tail hi h
    | snapshot =>
      simp only [run, exec, Option.bind_some] at h
      have hlen : i < j.snapshot.2.saved.length := by simp; omega
      obtain ⟨htake, hlt⟩ := ih hk.tail hlen h
      refine ⟨?_, hlt⟩
      rw [htake, snapshot_saved, List.take_append_of_le_length (Nat.succ_le_of_lt hi)]
    | revert k =>
      have hik : i < k := hrev k rfl
      have hkl : k < j.saved.length := by
        by_contra hge
        simp [run, exec, revert_eq_none (Nat.le_of_not_lt hge)] at h
      simp only [run, exec, revert_eq_some hkl, Option.bind_some] at h
      have hlen : i < (j.saved.take k).length := by simp; omega
      obtain ⟨htake, hlt⟩ := ih (j := ⟨j.saved[k], j.saved.take k⟩) hk.tail hlen h
      refine ⟨?_, hlt⟩
      rw [htake, List.take_take, Nat.min_eq_left (Nat.succ_le_of_lt hik)]
    | commit => exact absurd rfl hcommit

/-- **Revert restores the snapshot's state.**  A snapshot taken at depth `j.saved.length`, then any
    run that keeps it open, then a revert to it: the journal is back to the state the snapshot
    saw, with the same snapshots open. -/
theorem run_restores {mid : List (Op S)} {j j' : Journal S} (hk : KeepsOpen j.saved.length mid)
    (h : run (.snapshot :: mid ++ [.revert j.saved.length]) j = some j') :
    j'.current = j.current ∧ j'.saved = j.saved := by
  simp only [List.cons_append, run, exec, Option.bind_some, run_append] at h
  cases hm : run mid j.snapshot.2 with
  | none => simp [hm] at h
  | some jm =>
    have hlen : j.saved.length < j.snapshot.2.saved.length := by simp
    obtain ⟨htake, hlt⟩ := saved_take_run hk hlen hm
    simp only [hm, Option.bind_some] at h
    simp only [revert_eq_some hlt] at h
    cases h
    have hsaved : jm.saved.take (j.saved.length + 1) = j.saved ++ [j.current] := by
      rw [htake, snapshot_saved]
      exact List.take_of_length_le (by simp)
    have hget : jm.saved[j.saved.length] = j.current := by
      have := congrArg (·[j.saved.length]?) hsaved
      simpa [List.getElem?_take, List.getElem?_eq_getElem hlt] using this
    refine ⟨hget, ?_⟩
    have := congrArg (List.take j.saved.length) hsaved
    simpa [List.take_take] using this

/-- **The committed state does not move while the oldest snapshot stays open.** -/
theorem committed_run {ops : List (Op S)} {j j' : Journal S} (hk : KeepsOpen 0 ops)
    (hne : j.saved ≠ []) (h : run ops j = some j') : j'.committed = j.committed := by
  have hpos : 0 < j.saved.length := List.length_pos_iff.mpr hne
  obtain ⟨htake, hlt⟩ := saved_take_run hk hpos h
  obtain ⟨s, ss, hs⟩ := List.exists_cons_of_ne_nil hne
  obtain ⟨s', ss', hs'⟩ := List.exists_cons_of_length_pos hlt
  simp only [hs, hs', List.take_succ_cons, List.take_zero] at htake
  simp [committed, hs, hs', List.cons.inj htake]

/-- A commit publishes the current state and closes every snapshot. -/
theorem run_commit (j : Journal S) : run [.commit] j = some ⟨j.current, []⟩ := rfl

/-! ## The shape of a run

  Whether a run keeps a snapshot open depends on its snapshots, reverts and commits only, not on
  what its writes do.  `Op.erase` forgets the writes, so that a run whose writes are known only
  up to existence (as those of a concrete store are) can be checked against the predicates. -/

/-- The operation with its write forgotten. -/
def Op.erase : Op S → Op Unit
  | .write _ => .write id
  | .snapshot => .snapshot
  | .revert i => .revert i
  | .commit => .commit

theorem Op.erase_eq_snapshot {op : Op S} : op.erase = .snapshot ↔ op = .snapshot := by
  cases op <;> simp [Op.erase]

theorem Op.erase_eq_revert {op : Op S} {i : Nat} : op.erase = .revert i ↔ op = .revert i := by
  cases op <;> simp [Op.erase]

theorem keepsOpen_map_erase {i : Nat} {ops : List (Op S)} :
    KeepsOpen i (ops.map Op.erase) ↔ KeepsOpen i ops := by
  simp only [KeepsOpen, List.forall_mem_map]
  refine forall₂_congr fun op _ => ?_
  cases op <;> simp [Op.erase]

/-! ## Invariants of a journal

  A property of states holds of a journal when it holds of the current state and of every saved
  one.  A write that keeps it on the current state keeps it; a snapshot, a revert and a commit
  only move states between the current one and the saved ones. -/

/-- `P` holds of every state the journal keeps. -/
def All (P : S → Prop) (j : Journal S) : Prop := P j.current ∧ ∀ s ∈ j.saved, P s

variable {P : S → Prop}

theorem All.write {f : S → S} {j : Journal S} (h : j.All P) (hf : P j.current → P (f j.current)) :
    (j.write f).All P :=
  ⟨hf h.1, h.2⟩

theorem All.snapshot {j : Journal S} (h : j.All P) : j.snapshot.2.All P := by
  refine ⟨h.1, fun s hs => ?_⟩
  rw [snapshot_saved, List.mem_append, List.mem_singleton] at hs
  rcases hs with hs | rfl
  · exact h.2 s hs
  · exact h.1

theorem All.revert {i : Nat} {j j' : Journal S} (h : j.All P) (hr : j.revert i = some j') :
    j'.All P := by
  unfold Journal.revert at hr
  obtain ⟨s, hs, rfl⟩ := Option.map_eq_some_iff.mp hr
  exact ⟨h.2 s (List.mem_of_getElem? hs), fun s' hs' => h.2 s' (List.mem_of_mem_take hs')⟩

theorem All.commit {j : Journal S} (h : j.All P) : j.commit.All P :=
  ⟨h.1, fun _ hs => absurd hs List.not_mem_nil⟩

/-- The state a commit would keep is one of the journal's. -/
theorem All.committed {j : Journal S} (h : j.All P) : P j.committed := by
  show P (j.saved.headD j.current)
  cases hs : j.saved with
  | nil => exact h.1
  | cons s rest => exact h.2 s (by rw [hs]; exact List.mem_cons_self)

/-- **The invariant rule of runs**: a property that every write of a run keeps holds of every
    state the run leaves, when it held of every state it started with. -/
theorem All.run {ops : List (Op S)} {j j' : Journal S} (h : j.All P)
    (hwrites : ∀ f, Op.write f ∈ ops → ∀ s, P s → P (f s)) (hrun : run ops j = some j') :
    j'.All P := by
  induction ops generalizing j with
  | nil =>
    cases hrun
    exact h
  | cons op ops ih =>
    have hrest : ∀ f, Op.write f ∈ ops → ∀ s, P s → P (f s) :=
      fun f hf => hwrites f (List.mem_cons_of_mem op hf)
    cases op with
    | write f =>
      exact ih (h.write (hwrites f List.mem_cons_self _)) hrest hrun
    | snapshot => exact ih h.snapshot hrest hrun
    | revert i =>
      cases hr : j.revert i with
      | none => simp [Journal.run, exec, hr] at hrun
      | some jr =>
        simp only [Journal.run, exec, hr, Option.bind_some] at hrun
        exact ih (h.revert hr) hrest hrun
    | commit => exact ih h.commit hrest hrun

/-! ## A journal seen through a function

  A function of the states maps a journal to the journal of the images.  Snapshots, reverts and
  commits commute with it, and so does a write that the function sees as a write of its own.  A
  part of a larger state that only some writes change therefore behaves as a journal of its
  own. -/

section Map

variable {T : Type}

/-- The journal of the images under `g`. -/
def map (g : S → T) (j : Journal S) : Journal T := ⟨g j.current, j.saved.map g⟩

@[simp] theorem map_current (g : S → T) (j : Journal S) : (j.map g).current = g j.current := rfl
@[simp] theorem map_saved (g : S → T) (j : Journal S) : (j.map g).saved = j.saved.map g := rfl

/-- A write that `g` sees as the write `f'` of the images: only the current state counts. -/
theorem map_write (g : S → T) {f : S → S} {f' : T → T} {j : Journal S}
    (hf : g (f j.current) = f' (g j.current)) : (j.write f).map g = (j.map g).write f' := by
  simp [map, write, hf]

theorem map_snapshot (g : S → T) (j : Journal S) : j.snapshot.2.map g = (j.map g).snapshot.2 := by
  simp [map, snapshot]

theorem map_revert (g : S → T) (i : Nat) (j : Journal S) :
    (j.revert i).map (map g) = (j.map g).revert i := by
  cases h : j.saved[i]? <;> simp [revert, map, h, List.map_take]

end Map

end Journal

namespace Layers

variable {D S : Type} [Monoid D] [MulAction D S]

/-- The state seen through the layers `ds` (bottom first) over the base `s`. -/
def view (s : S) (ds : List D) : S := ds.foldl (fun acc d => d • acc) s

@[simp] theorem view_nil (s : S) : view s ([] : List D) = s := rfl

@[simp] theorem view_cons (s : S) (d : D) (ds : List D) : view s (d :: ds) = view (d • s) ds := rfl

@[simp] theorem view_append (s : S) (ds es : List D) : view s (ds ++ es) = view (view s ds) es := by
  simp [view, List.foldl_append]

@[simp] theorem view_concat (s : S) (ds : List D) (d : D) : view s (ds ++ [d]) = d • view s ds := by
  simp

/-- The views of the prefixes `[]`, `[d₀]`, …, `[d₀, …, dₙ₋₂]` of a stack: what each of its layers
    saw below itself when it was pushed. -/
def prefixViews (s : S) : List D → List S
  | [] => []
  | d :: ds => s :: prefixViews (d • s) ds

@[simp] theorem length_prefixViews (s : S) (ds : List D) : (prefixViews s ds).length = ds.length := by
  induction ds generalizing s with
  | nil => rfl
  | cons d ds ih => simp [prefixViews, ih]

@[simp] theorem prefixViews_concat (s : S) (ds : List D) (d : D) :
    prefixViews s (ds ++ [d]) = prefixViews s ds ++ [view s ds] := by
  induction ds generalizing s with
  | nil => rfl
  | cons e ds ih => simp [prefixViews, ih]

theorem prefixViews_take (s : S) (ds : List D) (i : Nat) :
    (prefixViews s ds).take i = prefixViews s (ds.take i) := by
  induction ds generalizing s i with
  | nil => simp [prefixViews]
  | cons d ds ih =>
    cases i with
    | zero => simp [prefixViews]
    | succ i => simp [prefixViews, ih]

/-- The `i`-th prefix view is the view of the `i` lowest layers. -/
theorem getElem_prefixViews (s : S) (ds : List D) (i : Nat) (h : i < (prefixViews s ds).length) :
    (prefixViews s ds)[i] = view s (ds.take i) := by
  induction ds generalizing s i with
  | nil => simp at h
  | cons d ds ih =>
    cases i with
    | zero => simp [prefixViews]
    | succ i => simp [prefixViews, ih]

/-- The journal a stack of layers implements: the view of the whole stack is the current state,
    the view of its `i` lowest layers is the state saved by the `i`-th snapshot. -/
def journal (s : S) (ds : List D) : Journal S := ⟨view s ds, prefixViews s ds⟩

/-- Writing `w` into the top layer is a journal write. -/
theorem journal_write (s : S) (ds : List D) (d w : D) :
    journal s (ds ++ [w * d]) = (journal s (ds ++ [d])).write (w • ·) := by
  simp [journal, Journal.write, mul_smul]

/-- Writing `w` into the base when there is no layer is a journal write. -/
theorem journal_write_base (s : S) (w : D) :
    journal (w • s) ([] : List D) = (journal s ([] : List D)).write (w • ·) := rfl

/-- Pushing an empty layer is a journal snapshot, and its position is the old depth. -/
theorem journal_push (s : S) (ds : List D) :
    journal s (ds ++ [1]) = (journal s ds).snapshot.2 ∧ (journal s ds).snapshot.1 = ds.length := by
  simp [journal, Journal.snapshot]

/-- Truncating the stack to its `i` lowest layers is the journal's revert to snapshot `i`. -/
theorem journal_truncate (s : S) (ds : List D) {i : Nat} (h : i < ds.length) :
    (journal s ds).revert i = some (journal s (ds.take i)) := by
  rw [Journal.revert_eq_some (by simpa [journal] using h)]
  simp [journal, getElem_prefixViews, prefixViews_take]

/-- Flushing the whole stack into its base and emptying it is the journal's commit. -/
theorem journal_flush (s : S) (ds : List D) :
    journal (view s ds) ([] : List D) = (journal s ds).commit := rfl

/-- The committed state of a stack's journal is its base. -/
@[simp] theorem committed_journal (s : S) (ds : List D) : (journal s ds).committed = s := by
  cases ds <;> simp [journal, Journal.committed, prefixViews]

end Layers
