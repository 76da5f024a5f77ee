import Mathlib.Algebra.Group.Nat.Defs
import AnconEvm.Lib.Journal
import AnconEvm.Lib.KVStore
import AnconEvm.Lib.Except
/-
  `x/evm/keeper/context_stack.go`: the initial context and the stack of cached contexts behind
  `StateDB.Snapshot` and `StateDB.RevertToSnapshot`.

  A context is modelled by what the keeper uses of it: the state of its multistore and the events
  of its `EventManager`.  A cached context (`ctx.CacheContext()` in cosmos-sdk v0.44) is a write
  buffer over its parent's multistore with a fresh `EventManager`; its `commit` writes the buffer
  into the parent's store and does not touch events.  The model is generic in the buffer monoid
  `D` and the states `S` it acts on (`Lib/Journal.lean`), and in the event type `E`: the Go type
  does not depend on what the store holds.

  Panics (`RevertToSnapshot` out of bounds) are `Except.error` with the panic's message.
-/

namespace AnconEvm

/-- An `sdk.Context`, by what the EVM keeper uses of it: its multistore's state and the events of
    its `EventManager`. -/
structure Context (S E : Type) where
  /-- The state of the context's multistore. -/
  store : S
  /-- The events emitted into the context's `EventManager`, in emission order. -/
  events : List E

/-- `cachedContext`: a cache context and its commit method.  The context is its write buffer over
    its parent and its own (fresh) `EventManager`; `commit` flushes the buffer into the parent. -/
structure CachedContext (D E : Type) where
  /-- The writes buffered by the cache context's multistore. -/
  delta : D
  /-- The events of the cache context's own `EventManager`. -/
  events : List E

/-- `ContextStack`: the initial context and the stack of cached contexts, bottom first (index `i`
    of `cachedContexts` is the context returned by the `i`-th open `Snapshot`). -/
structure ContextStack (D S E : Type) where
  /-- The context of the initial state before transaction execution. -/
  initialCtx : Context S E
  /-- The cached contexts, bottom first. -/
  cachedContexts : List (CachedContext D E)

namespace ContextStack

variable {D S E : Type} [Monoid D] [MulAction D S]

/-- The buffers of the cached contexts, bottom first. -/
def deltas (cs : ContextStack D S E) : List D := cs.cachedContexts.map (·.delta)

/-- The state seen through the top context: the initial store under every cached buffer. -/
def view (cs : ContextStack D S E) : S := Layers.view cs.initialCtx.store cs.deltas

/-- `CurrentContext`: the top context of the cached stack, or the initial context when the stack
    is empty. -/
def CurrentContext (cs : ContextStack D S E) : Context S E :=
  match cs.cachedContexts.getLast? with
  | none => cs.initialCtx
  | some c => ⟨cs.view, c.events⟩

/-- `Reset`: set the initial context and clear the cache context stack. -/
def Reset (ctx : Context S E) (cs : ContextStack D S E) : ContextStack D S E :=
  -- the source clears the stack only when it is non-empty; both branches leave it empty
  { cs with initialCtx := ctx, cachedContexts := [] }

/-- `IsEmpty`: the cache context stack is empty. -/
def IsEmpty (cs : ContextStack D S E) : Bool := cs.cachedContexts.isEmpty

/-- A store write `w` made through `CurrentContext()`: it lands in the top cached context's buffer,
    or in the initial store when the stack is empty. -/
def write (w : D) (cs : ContextStack D S E) : ContextStack D S E :=
  match cs.cachedContexts.getLast? with
  | none => { cs with initialCtx := { cs.initialCtx with store := w • cs.initialCtx.store } }
  | some c => { cs with cachedContexts := cs.cachedContexts.dropLast ++ [{ c with delta := w * c.delta }] }

/-- An event emitted through `CurrentContext().EventManager()`. -/
def emit (e : E) (cs : ContextStack D S E) : ContextStack D S E :=
  match cs.cachedContexts.getLast? with
  | none => { cs with initialCtx := { cs.initialCtx with events := cs.initialCtx.events ++ [e] } }
  | some c => { cs with cachedContexts := cs.cachedContexts.dropLast ++ [{ c with events := c.events ++ [e] }] }

/-- The loop of `Commit`, over the cached contexts top first.  At each context it emits the
    context's events into the initial context, then runs its `commit`, which writes the context's
    buffer into its parent; `pending` is what has been flushed into the current context's buffer
    from the contexts above it.  When the bottom context has committed, its buffer (holding every
    write above it) has been written into the initial store. -/
def commitLoop (pending : D) (initial : Context S E) : List (CachedContext D E) → Context S E
  | [] => { initial with store := pending • initial.store }
  | c :: rest => commitLoop (pending * c.delta) { initial with events := initial.events ++ c.events } rest

/-- `Commit`: commit all the cached contexts from top to bottom in order, keeping their events in
    the initial context, and clear the stack.  (The source panics on a nil commit function, which
    a cached context made by `Snapshot` never has.) -/
def Commit (cs : ContextStack D S E) : ContextStack D S E :=
  ⟨commitLoop 1 cs.initialCtx cs.cachedContexts.reverse, []⟩

/-- `Snapshot`: push a new cached context over the current one and return its index. -/
def Snapshot (cs : ContextStack D S E) : Nat × ContextStack D S E :=
  (cs.cachedContexts.length, { cs with cachedContexts := cs.cachedContexts ++ [⟨1, []⟩] })

/-- `RevertToSnapshot`: pop all the cached contexts from the target index on; panics when the
    target is out of `[0, len)`. -/
def RevertToSnapshot (target : Int) (cs : ContextStack D S E) : Except String (ContextStack D S E) :=
  if target < 0 ∨ cs.cachedContexts.length ≤ target then
    .error "snapshot index out of bound"
  else
    .ok { cs with cachedContexts := cs.cachedContexts.take target.toNat }

/-- `RevertAll`: discard all the cache contexts. -/
def RevertAll (cs : ContextStack D S E) : ContextStack D S E :=
  if cs.cachedContexts.length > 0 then
    -- `RevertToSnapshot(0)` cannot panic on a non-empty stack
    match cs.RevertToSnapshot 0 with
    | .ok cs' => cs'
    | .error _ => cs
  else cs

/-! ## Each operation is a journal operation

  `journal` reads off the stack the journal it implements (`Layers.journal`): its current state
  is the view through the top context, its saved states the views below each cached context.
  One lemma per operation says which journal operation it performs. -/

/-- The journal the stack implements. -/
def journal (cs : ContextStack D S E) : Journal S := Layers.journal cs.initialCtx.store cs.deltas

omit [Monoid D] [MulAction D S] in
@[simp] theorem deltas_nil (ctx : Context S E) : (⟨ctx, []⟩ : ContextStack D S E).deltas = [] := rfl

omit [Monoid D] [MulAction D S] in
@[simp] theorem deltas_append (cs : ContextStack D S E) (cs' : List (CachedContext D E)) :
    ({ cs with cachedContexts := cs.cachedContexts ++ cs' } : ContextStack D S E).deltas =
      cs.deltas ++ cs'.map (·.delta) := by
  simp [deltas]

omit [Monoid D] [MulAction D S] in
@[simp] theorem length_deltas (cs : ContextStack D S E) : cs.deltas.length = cs.cachedContexts.length := by
  simp [deltas]

/-- The journal's committed state is the initial context's store. -/
@[simp] theorem committed_journal (cs : ContextStack D S E) : cs.journal.committed = cs.initialCtx.store :=
  Layers.committed_journal _ _

@[simp] theorem current_journal (cs : ContextStack D S E) : cs.journal.current = cs.view := rfl

/-- A write through the current context is a journal write. -/
theorem journal_write (w : D) (cs : ContextStack D S E) :
    (cs.write w).journal = cs.journal.write (w • ·) := by
  obtain ⟨ctx, ccs⟩ := cs
  cases h : ccs.getLast? with
  | none =>
    have hnil : ccs = [] := List.getLast?_eq_none_iff.mp h
    subst hnil
    simp only [write, h]
    exact Layers.journal_write_base _ _
  | some c =>
    obtain ⟨pre, rfl⟩ : ∃ pre, ccs = pre ++ [c] := List.getLast?_eq_some_iff.mp h
    simp only [write, h, List.dropLast_concat]
    simpa [journal, deltas] using Layers.journal_write ctx.store (pre.map (·.delta)) c.delta w

/-- A write through the current context is seen through it. -/
@[simp] theorem view_write (w : D) (cs : ContextStack D S E) : (cs.write w).view = w • cs.view := by
  rw [← current_journal, journal_write, Journal.write_current, current_journal]

/-- An event changes no state. -/
@[simp] theorem view_emit (e : E) (cs : ContextStack D S E) : (cs.emit e).view = cs.view := by
  unfold emit
  split
  · rfl
  · rename_i c hc
    obtain ⟨pre, hpre⟩ : ∃ pre, cs.cachedContexts = pre ++ [c] := List.getLast?_eq_some_iff.mp hc
    simp only [view, deltas, hpre, List.dropLast_concat, List.map_append, List.map_cons,
      List.map_nil]

/-- A write keeps the depth of the stack. -/
@[simp] theorem length_write (w : D) (cs : ContextStack D S E) :
    (cs.write w).cachedContexts.length = cs.cachedContexts.length := by
  unfold write
  split
  · rfl
  · rename_i c hc
    obtain ⟨pre, hpre⟩ : ∃ pre, cs.cachedContexts = pre ++ [c] := List.getLast?_eq_some_iff.mp hc
    simp [hpre]

omit [Monoid D] [MulAction D S] in
/-- An event keeps the depth of the stack. -/
@[simp] theorem length_emit (e : E) (cs : ContextStack D S E) :
    (cs.emit e).cachedContexts.length = cs.cachedContexts.length := by
  unfold emit
  split
  · rfl
  · rename_i c hc
    obtain ⟨pre, hpre⟩ : ∃ pre, cs.cachedContexts = pre ++ [c] := List.getLast?_eq_some_iff.mp hc
    simp [hpre]

/-- With no cached context, the view is the initial store. -/
theorem view_of_length_eq_zero {cs : ContextStack D S E} (h : cs.cachedContexts.length = 0) :
    cs.view = cs.initialCtx.store := by
  rw [List.length_eq_zero_iff] at h
  simp [view, deltas, h]

/-- `Snapshot` is a journal snapshot: same position, same saved state. -/
theorem journal_Snapshot (cs : ContextStack D S E) :
    cs.Snapshot.1 = cs.journal.snapshot.1 ∧ cs.Snapshot.2.journal = cs.journal.snapshot.2 := by
  obtain ⟨hpush, hpos⟩ := Layers.journal_push cs.initialCtx.store cs.deltas
  refine ⟨by simpa [Snapshot, journal] using hpos.symm, ?_⟩
  simpa [Snapshot, journal] using hpush

/-- `RevertToSnapshot` to an open snapshot succeeds and is the journal's revert. -/
theorem RevertToSnapshot_of_lt {cs : ContextStack D S E} {i : Nat} (h : i < cs.cachedContexts.length) :
    ∃ cs', cs.RevertToSnapshot i = .ok cs' ∧ cs.journal.revert i = some cs'.journal ∧
      cs'.initialCtx = cs.initialCtx ∧ cs'.cachedContexts = cs.cachedContexts.take i := by
  refine ⟨{ cs with cachedContexts := cs.cachedContexts.take i }, ?_, ?_, rfl, rfl⟩
  · simp [RevertToSnapshot]; omega
  · rw [journal, Layers.journal_truncate _ _ (by simpa using h)]
    simp [journal, deltas, List.map_take]

omit [Monoid D] [MulAction D S] in
/-- `RevertToSnapshot` to anything but an open snapshot panics. -/
theorem RevertToSnapshot_error {cs : ContextStack D S E} {t : Int}
    (h : t < 0 ∨ cs.cachedContexts.length ≤ t) : ∃ msg, cs.RevertToSnapshot t = .error msg :=
  ⟨_, if_pos h⟩

/-- The store `Commit`'s loop leaves in the initial context: everything buffered below `pending`,
    flushed in order. -/
theorem commitLoop_store (pending : D) (ctx : Context S E) (l : List (CachedContext D E)) :
    (commitLoop pending ctx l).store = pending • Layers.view ctx.store (l.reverse.map (·.delta)) := by
  induction l generalizing pending ctx with
  | nil => rfl
  | cons c rest ih => simp [commitLoop, ih, mul_smul]

/-- The events `Commit`'s loop leaves in the initial context: its own, then each cached context's
    in loop order. -/
theorem commitLoop_events (pending : D) (ctx : Context S E) (l : List (CachedContext D E)) :
    (commitLoop pending ctx l).events = ctx.events ++ (l.map (·.events)).flatten := by
  induction l generalizing pending ctx with
  | nil => simp [commitLoop]
  | cons c rest ih => simp [commitLoop, ih]

/-- `Commit` is the journal's commit. -/
theorem journal_Commit (cs : ContextStack D S E) : cs.Commit.journal = cs.journal.commit := by
  have hs : cs.Commit.initialCtx.store = cs.view := by
    simp [Commit, commitLoop_store, view, deltas]
  simp only [journal, Commit, deltas_nil] at hs ⊢
  rw [hs]
  exact Layers.journal_flush _ _

/-- **The events `Commit` keeps**: the initial context's own, then each cached context's, from the
    top of the stack to the bottom. -/
theorem Commit_events (cs : ContextStack D S E) :
    cs.Commit.initialCtx.events =
      cs.initialCtx.events ++ (cs.cachedContexts.reverse.map (·.events)).flatten := by
  simp only [Commit]
  exact commitLoop_events 1 cs.initialCtx cs.cachedContexts.reverse

omit [MulAction D S] in
/-- An event emitted right after a `Snapshot` lands in the new top context, the only one that
    holds it. -/
theorem emit_Snapshot (e : E) (cs : ContextStack D S E) :
    cs.Snapshot.2.emit e = { cs with cachedContexts := cs.cachedContexts ++ [⟨1, [e]⟩] } := by
  simp [Snapshot, emit]

/-- An outer call emits `e₁` after a first `Snapshot`, a nested call emits `e₂` after a second
    one, and neither is reverted: `Commit` forwards `e₂` before `e₁`, the reverse of their
    emission order. -/
theorem Commit_nested_events_reversed (ctx : Context S E) {e₁ e₂ : E} (hne : e₁ ≠ e₂) :
    let cs : ContextStack D S E := ((⟨ctx, []⟩ : ContextStack D S E).Snapshot.2.emit e₁).Snapshot.2.emit e₂
    cs.Commit.initialCtx.events = ctx.events ++ [e₂, e₁] ∧
      cs.Commit.initialCtx.events ≠ ctx.events ++ [e₁, e₂] := by
  intro cs
  have hevents : cs.Commit.initialCtx.events = ctx.events ++ [e₂, e₁] := by
    simp [cs, Commit_events, emit_Snapshot]
  refine ⟨hevents, ?_⟩
  rw [hevents]
  intro h
  -- the two orders agree only if the events do
  exact hne (List.cons.inj (List.append_cancel_left h)).1.symm

/-- Two transfers, the outer call's and then the nested call's, committed in the other order. -/
theorem Commit_nested_events_reversed_transfers :
    ("coin_spent" ≠ "coin_received") ∧
      let cs : ContextStack Nat Nat String :=
        ((⟨⟨0, []⟩, []⟩ : ContextStack Nat Nat String).Snapshot.2.emit "coin_spent").Snapshot.2.emit
          "coin_received"
      cs.Commit.initialCtx.events = [] ++ ["coin_received", "coin_spent"] ∧
        cs.Commit.initialCtx.events ≠ [] ++ ["coin_spent", "coin_received"] :=
  ⟨by decide, @Commit_nested_events_reversed Nat Nat String _ _ ⟨0, []⟩ _ _ (by decide)⟩

/-! ## Runs: the context stack refines the journal

  The StateDB drives the stack with four operations.  Run in lockstep with the journal
  (`journal_run`), the stack panics exactly when the journal's run is undefined, and otherwise
  implements the same journal; the journal's laws (`Lib/Journal.lean`) then transfer. -/

/-- An operation of the StateDB on the context stack. -/
inductive Op (D : Type)
  /-- a store write through `CurrentContext()` -/
  | write (w : D)
  /-- `Snapshot()` -/
  | snapshot
  /-- `RevertToSnapshot(i)` -/
  | revert (i : Nat)
  /-- `Commit()` -/
  | commit

/-- One operation on the stack. -/
def exec : Op D → ContextStack D S E → Except String (ContextStack D S E)
  | .write w, cs => .ok (cs.write w)
  | .snapshot, cs => .ok cs.Snapshot.2
  | .revert i, cs => cs.RevertToSnapshot i
  | .commit, cs => .ok cs.Commit

/-- A run: the operations in order, stopping at the first panic. -/
def run : List (Op D) → ContextStack D S E → Except String (ContextStack D S E)
  | [], cs => .ok cs
  | op :: ops, cs => (exec op cs).bind (run ops)

/-- The journal operation an operation performs. -/
def Op.toJournal : Op D → Journal.Op S
  | .write w => .write (w • ·)
  | .snapshot => .snapshot
  | .revert i => .revert i
  | .commit => .commit

theorem run_append (ops ops' : List (Op D)) (cs : ContextStack D S E) :
    run (ops ++ ops') cs = (run ops cs).bind (run ops') := by
  induction ops generalizing cs with
  | nil => rfl
  | cons op ops ih =>
    simp only [List.cons_append, run]
    cases exec op cs <;> simp [Except.bind, ih]

/-- One operation performs its journal operation, panicking exactly when the journal's is
    undefined. -/
theorem journal_exec (op : Op D) (cs : ContextStack D S E) :
    (exec op cs).toOption.map journal = Journal.exec (S := S) op.toJournal cs.journal := by
  cases op with
  | write w => simp [exec, Op.toJournal, Journal.exec, Except.toOption, journal_write]
  | snapshot => simp [exec, Op.toJournal, Journal.exec, Except.toOption, (journal_Snapshot cs).2]
  | revert i =>
    simp only [exec, Op.toJournal, Journal.exec]
    by_cases h : i < cs.cachedContexts.length
    · obtain ⟨cs', hok, hj, -, -⟩ := RevertToSnapshot_of_lt h
      simp [hok, hj, Except.toOption]
    · obtain ⟨msg, herr⟩ := RevertToSnapshot_error (t := i) (Or.inr (show cs.cachedContexts.length ≤ (i : Int) by omega))
      rw [herr, Journal.revert_eq_none (by simp [journal, Layers.journal]; omega)]
      rfl
  | commit => simp [exec, Op.toJournal, Journal.exec, Except.toOption, journal_Commit]

/-- **The context stack refines the journal**: a run of the stack is the journal's run of the same
    operations, and panics exactly when that run is undefined. -/
theorem journal_run (ops : List (Op D)) (cs : ContextStack D S E) :
    (run ops cs).toOption.map journal = Journal.run (ops.map Op.toJournal) cs.journal := by
  induction ops generalizing cs with
  | nil => rfl
  | cons op ops ih =>
    have hstep := journal_exec op cs
    simp only [run, List.map_cons, Journal.run]
    cases hop : exec op cs with
    | error msg =>
      rw [hop] at hstep
      simp [Except.toOption] at hstep
      simp [Except.bind, ← hstep, Except.toOption]
    | ok cs' =>
      rw [hop] at hstep
      simp only [Except.toOption, Option.map_some] at hstep
      simp [Except.bind, ← hstep, ih]

/-- A journal run that is defined is matched by a run of the stack that does not panic. -/
theorem run_ok_of_journal {ops : List (Op D)} (cs : ContextStack D S E) {j : Journal S}
    (h : Journal.run (ops.map Op.toJournal) cs.journal = some j) :
    ∃ cs', run ops cs = .ok cs' ∧ cs'.journal = j := by
  rw [← journal_run] at h
  cases hr : run ops cs with
  | error msg => simp [hr, Except.toOption] at h
  | ok cs' => exact ⟨cs', rfl, by simpa [hr, Except.toOption] using h⟩

/-- **`ContextStack` implements a journal.**  Over every run of writes through `CurrentContext`,
    `Snapshot`, `RevertToSnapshot` and `Commit`:

    (1) a `RevertToSnapshot(i)`, where `i` was returned by a `Snapshot` that the operations since
        kept open (no commit, every revert to a later snapshot, and every revert to an open
        one), does not panic and shows again exactly the state `CurrentContext` showed when that
        `Snapshot` was taken;
    (2) after `Commit` the initial context holds exactly the state `CurrentContext` showed before
        it, and the stack is empty;
    (3) while the bottom cached context stays open, no operation reaches the initial context, so
        `GetCommittedState`, which reads the initial context, sees none of the writes. -/
theorem contextStack_journal_laws :
    (∀ (cs cs₁ : ContextStack D S E) (pre mid : List (Op D)), run pre cs = .ok cs₁ →
      Journal.KeepsOpen cs₁.cachedContexts.length (mid.map (Op.toJournal (S := S))) →
      Journal.RevertsOpen (cs₁.cachedContexts.length + 1) (mid.map (Op.toJournal (S := S))) →
      cs₁.Snapshot.1 = cs₁.cachedContexts.length ∧
      ∃ cs₂, run (pre ++ .snapshot :: mid ++ [.revert cs₁.cachedContexts.length]) cs = .ok cs₂ ∧
        cs₂.view = cs₁.view) ∧
    (∀ cs : ContextStack D S E, cs.Commit.initialCtx.store = cs.view ∧ cs.Commit.cachedContexts = []) ∧
    (∀ (cs cs' : ContextStack D S E) (ops : List (Op D)), cs.cachedContexts ≠ [] →
      Journal.KeepsOpen 0 (ops.map (Op.toJournal (S := S))) → run ops cs = .ok cs' →
      cs'.initialCtx.store = cs.initialCtx.store) := by
  refine ⟨?_, ?_, ?_⟩
  · intro cs cs₁ pre mid hpre hkeep hopen
    refine ⟨rfl, ?_⟩
    set n := cs₁.cachedContexts.length with hn
    set mid' := mid.map (Op.toJournal (S := S)) with hmid'
    -- the snapshot returns `n`, the number of snapshots open in `cs₁`'s journal
    have hlen : cs₁.journal.saved.length = n := by simp [journal, Layers.journal, hn]
    have hkeep' : Journal.KeepsOpen cs₁.journal.saved.length mid' := by rw [hlen]; exact hkeep
    -- the journal's run of `mid` after the snapshot is defined, and keeps the snapshot open
    have hopen' : Journal.RevertsOpen cs₁.journal.snapshot.2.saved.length mid' := by
      simpa [hlen] using hopen
    obtain ⟨jm, hjm⟩ := Option.isSome_iff_exists.mp (Journal.run_isSome hopen')
    obtain ⟨-, hlt⟩ := Journal.saved_take_run hkeep' (by simp) hjm
    have hrun : Journal.run (.snapshot :: mid' ++ [.revert cs₁.journal.saved.length]) cs₁.journal =
        some ⟨jm.saved[cs₁.journal.saved.length], jm.saved.take cs₁.journal.saved.length⟩ := by
      simp [Journal.run_append, Journal.run, Journal.exec, hjm, Journal.revert_eq_some hlt]
    have hmap : (Op.snapshot :: mid ++ [Op.revert n]).map (Op.toJournal (S := S)) =
        .snapshot :: mid' ++ [.revert cs₁.journal.saved.length] := by
      simp [Op.toJournal, hlen, hmid']
    -- the journal's law, then its refinement by the stack
    obtain ⟨hcur, -⟩ := Journal.run_restores hkeep' hrun
    obtain ⟨cs₂, hok, hj₂⟩ := run_ok_of_journal cs₁ (hmap ▸ hrun)
    refine ⟨cs₂, ?_, ?_⟩
    · rw [List.append_assoc, run_append, hpre]
      exact hok
    · rw [← current_journal, ← current_journal, hj₂]
      exact hcur
  · intro cs
    refine ⟨?_, rfl⟩
    simp [Commit, commitLoop_store, view, deltas]
  · intro cs cs' ops hne hkeep hrun
    have hj : Journal.run (ops.map Op.toJournal) cs.journal = some cs'.journal := by
      rw [← journal_run, hrun]; rfl
    have hsaved : cs.journal.saved ≠ [] := by
      simpa [journal, Layers.journal, ← List.length_pos_iff] using hne
    have := Journal.committed_run hkeep hsaved hj
    simpa using this

/-- Part (1) on a key-value store, at a run whose reverted part nests a snapshot and its own
    revert: key 0 holds 5 when the outer snapshot is taken, and its revert shows 5 again. -/
theorem contextStack_journal_laws_nested :
    let w : Nat → Op (KV.Delta Nat Nat) := fun v => .write (KV.Delta.set 0 v)
    let cs : ContextStack (KV.Delta Nat Nat) (KV.Store Nat Nat) Unit := ⟨⟨∅, []⟩, []⟩
    let pre := [w 1, .snapshot, w 5]
    let mid := [w 2, .snapshot, w 3, .revert 2, w 4]
    ∃ cs₁ cs₂, run pre cs = .ok cs₁ ∧ cs₁.view[0]? = some 5 ∧
      run (pre ++ .snapshot :: mid ++ [.revert 1]) cs = .ok cs₂ ∧ cs₂.view = cs₁.view := by
  intro w cs pre mid
  obtain ⟨cs₁, hpre, hflags⟩ := Except.map_eq_ok (show (run pre cs).map (fun cs₁ =>
    decide (cs₁.cachedContexts.length = 1 ∧ cs₁.view[0]? = some 5)) = .ok true by decide +kernel)
  obtain ⟨hn, h5⟩ := of_decide_eq_true hflags
  -- the reverted part neither commits nor reverts below the outer snapshot
  have hkeep : Journal.KeepsOpen cs₁.cachedContexts.length
      (mid.map (Op.toJournal (S := KV.Store Nat Nat))) := by
    rw [hn]
    intro op hop
    simp only [mid, w, List.map_cons, List.map_nil, Op.toJournal, List.mem_cons, List.not_mem_nil,
      or_false] at hop
    rcases hop with rfl | rfl | rfl | rfl | rfl <;> simp
  have hopen : Journal.RevertsOpen (cs₁.cachedContexts.length + 1)
      (mid.map (Op.toJournal (S := KV.Store Nat Nat))) := by
    rw [hn]
    simp [mid, w, Op.toJournal, Journal.RevertsOpen]
  obtain ⟨-, cs₂, hrun, hview⟩ := contextStack_journal_laws.1 cs cs₁ pre mid hpre hkeep hopen
  rw [hn] at hrun
  exact ⟨cs₁, cs₂, hpre, h5, hrun, hview⟩

end ContextStack

end AnconEvm
