import AnconEvm.Evm.StateDB
import AnconEvm.Lib.ByteOrder
import AnconEvm.Lib.AssocList
/-
  The logs of a block in the transient store (x/evm/keeper/keeper.go, statedb.go).

  AddLog gives each log the tx hash SetTxHashTransient set last, the tx index of the transient
  store and the number of logs already added in the block as its index, and stores it under `txHash ++ BigEndian64(index)` in the prefix
  store of `KeyPrefixTransientTxLogs`.  GetTxLogsTransient(h) iterates `[h, h ++ 0xff*8)` of that
  prefix store.

  The abstract model is a log book: the tx hash set last, the tx index, and the logs added so far,
  in order (`LogBook`).  A keeper holds a book (`HoldsBook`) when its transient store has the
  book's tx hash, tx index and log count, and each of its logs under that log's key.  Steps:
    1. `inTxRange_logKey`: a log key lies in the range of `h` exactly for the logs of `h` whose
       index is not `2^64 - 1`; `compare_logKey`: logs of one hash iterate by index.
    2. `HoldsBook.setTxHash`, `HoldsBook.increaseTxIndex`, `HoldsBook.addLog`: each call keeps
       the book (step lemmas), and `HoldsBook.run` a whole block (run lemma).
    3. `GetTxLogsTransient_of_holdsBook`: a keeper that holds a book reads back the book's logs of
       `h`, in order.
    4. `GetTxLogsTransient_block`: the read after every block of calls.
-/

namespace AnconEvm.Evm

/-! ## The calls on the transient log storage -/

/-- The calls of a block on the transient log storage: SetTxHashTransient before each
    transaction, AddLog for each log its execution emits, and IncreaseTxIndexTransient after it
    (ApplyTransaction). -/
inductive LogEvent
  | SetTxHash (hash : Hash)
  | AddLog (log : Log)
  | IncreaseTxIndex
  deriving Repr

namespace LogEvent

/-- One call on the keeper. -/
def exec : LogEvent → Keeper → Except String Keeper
  | .SetTxHash hash, k => .ok (k.SetTxHashTransient hash)
  | .AddLog log, k => k.AddLog log
  | .IncreaseTxIndex, k => k.IncreaseTxIndexTransient

/-- The calls in turn; a panic stops them. -/
def run : List LogEvent → Keeper → Except String Keeper
  | [], k => .ok k
  | e :: es, k => (e.exec k).bind (run es)

/-- The number of logs the calls add. -/
def addedLogs : List LogEvent → Nat
  | [] => 0
  | .AddLog _ :: es => addedLogs es + 1
  | .SetTxHash _ :: es => addedLogs es
  | .IncreaseTxIndex :: es => addedLogs es

end LogEvent

/-! ## The log book -/

/-- What the transient log storage stands for in a block: the tx hash set last, the tx index,
    and the logs added so far, in order. -/
structure LogBook where
  txHash : Hash
  txIndex : UInt64
  logs : List Log

namespace LogBook

variable (blockHash : Hash)

/-- The log AddLog stores: the block hash, the tx index, the tx hash set last, and the number of
    logs before it as its index. -/
def fill (b : LogBook) (log : Log) : Log :=
  { log with BlockHash := blockHash, TxIndex := b.txIndex.toNat, TxHash := b.txHash,
             Index := b.logs.length }

/-- One call on the book. -/
def step (b : LogBook) : LogEvent → LogBook
  | .SetTxHash hash => { b with txHash := hash }
  | .AddLog log => { b with logs := b.logs ++ [fill blockHash b log] }
  | .IncreaseTxIndex => { b with txIndex := b.txIndex + 1 }

/-- The calls in turn. -/
def run (b : LogBook) (events : List LogEvent) : LogBook := events.foldl (step blockHash) b

/-- The logs stored while the tx hash was `h`, in the order they were added. -/
def txLogs (b : LogBook) (h : Hash) : List Log := b.logs.filter fun l => l.TxHash == h

theorem length_run (b : LogBook) (events : List LogEvent) :
    (run blockHash b events).logs.length = b.logs.length + LogEvent.addedLogs events := by
  induction events generalizing b with
  | nil => rfl
  | cons e es ih =>
    cases e with
    | AddLog log =>
      rw [run, List.foldl_cons, ← run, ih, LogEvent.addedLogs]
      simp only [step, List.length_append, List.length_singleton]
      omega
    | SetTxHash hash => exact ih _
    | IncreaseTxIndex => exact ih _

/-- **The logs of a book are numbered by their position**, so those of one tx hash come out in
    increasing index order. -/
theorem pairwise_txLogs {b : LogBook} (hnum : b.logs.map Log.Index = List.range b.logs.length)
    (h : Hash) : (b.txLogs h).Pairwise fun l l' => l.Index < l'.Index := by
  have hsorted : (b.logs.map Log.Index).Pairwise (· < ·) := by
    rw [hnum]
    exact List.pairwise_lt_range
  exact (List.pairwise_map.mp hsorted).filter _

end LogBook

/-! ## Log keys and the range of a read -/

/-- The eight bytes 0xff that end GetTxLogsTransient's range. -/
def txRangeEnd : Bytes := [255, 255, 255, 255, 255, 255, 255, 255]

/-- The range GetTxLogsTransient iterates, `[h, h ++ 0xff*8)`, on a key of the prefix store. -/
def inTxRange (h : Hash) (key : Bytes) : Bool :=
  compare key h.Bytes != .lt && compare key (h.Bytes ++ txRangeEnd) == .lt

theorem txRangeEnd_eq : txRangeEnd = Uint64ToBigEndian (UInt64.ofNat (2 ^ 64 - 1)) := by
  decide

/-- Two hashes compare as their bytes; only equal hashes compare equal. -/
theorem compare_Bytes_eq_eq_iff (h h' : Hash) : compare h'.Bytes h.Bytes = .eq ↔ h' = h := by
  constructor
  · intro heq
    exact Hash.Bytes_injective (Std.LawfulEqOrd.eq_of_compare heq)
  · rintro rfl
    exact Std.ReflOrd.compare_self

/-- **A log key lies in the range of `h` exactly for a log of `h`** whose index is not
    `2^64 - 1`, the one index the range leaves out. -/
theorem inTxRange_logKey (h h' : Hash) (i : UInt64) :
    inTxRange h (h'.Bytes ++ Uint64ToBigEndian i) = true ↔ h' = h ∧ i.toNat < 2 ^ 64 - 1 := by
  have hlen : h'.Bytes.length = h.Bytes.length := by rw [length_Hash_Bytes, length_Hash_Bytes]
  have hstart : compare (h'.Bytes ++ Uint64ToBigEndian i) h.Bytes =
      (compare h'.Bytes h.Bytes).then .gt := by
    rw [← List.append_nil h.Bytes, BigEndian.compare_append_of_length_eq hlen, List.append_nil]
    -- eight bytes follow against none
    rfl
  have hstop : compare (h'.Bytes ++ Uint64ToBigEndian i) (h.Bytes ++ txRangeEnd) =
      (compare h'.Bytes h.Bytes).then (compare i.toNat (2 ^ 64 - 1)) := by
    rw [BigEndian.compare_append_of_length_eq hlen, txRangeEnd_eq, Uint64ToBigEndian,
      Uint64ToBigEndian, BigEndian.compare_encodeFixed i.toNat_lt (by decide), UInt64.toNat_ofNat']
    rfl
  unfold inTxRange
  rw [hstart, hstop]
  -- the hash bytes decide unless they are equal
  cases hcmp : compare h'.Bytes h.Bytes with
  | eq =>
    have heq := (compare_Bytes_eq_eq_iff h h').mp hcmp
    simp only [Ordering.then, heq, true_and]
    rw [← Nat.compare_eq_lt]
    cases compare i.toNat (2 ^ 64 - 1) <;> decide
  | lt | gt =>
    have hne : h' ≠ h := fun heq => by rw [(compare_Bytes_eq_eq_iff h h').mpr heq] at hcmp; cases hcmp
    simp [hne]

open Keeper

/-- Two logs under one key have one tx hash and one index modulo `2^64`. -/
theorem logKey_eq_logKey {l l' : Log} (h : logKey l = logKey l') :
    l.TxHash = l'.TxHash ∧ UInt64.ofNat l.Index = UInt64.ofNat l'.Index := by
  unfold logKey at h
  have hlen : l.TxHash.Bytes.length = l'.TxHash.Bytes.length := by
    rw [length_Hash_Bytes, length_Hash_Bytes]
  obtain ⟨hhash, hindex⟩ := List.append_inj (List.append_cancel_left h) hlen
  refine ⟨Hash.Bytes_injective hhash, ?_⟩
  have hread := congrArg BigEndianToUint64 hindex
  rw [BigEndianToUint64_Uint64ToBigEndian, BigEndianToUint64_Uint64ToBigEndian] at hread
  exact Except.ok.inj hread

/-- Keys of the transient store compare as their bytes. -/
theorem compare_transient (a b : Bytes) :
    compare (MultiKey.transient a) (MultiKey.transient b) = compare a b := by
  show compare (1 :: a) (1 :: b) = compare a b
  rw [List.compare_cons_cons, Std.ReflOrd.compare_self]
  rfl

/-- **Logs of one tx hash iterate by index**: their keys in the multistore compare as the indices. -/
theorem compare_logKey {l l' : Log} (hhash : l.TxHash = l'.TxHash) (hl : l.Index < 2 ^ 64)
    (hl' : l'.Index < 2 ^ 64) :
    compare (MultiKey.transient (logKey l)) (MultiKey.transient (logKey l')) = compare l.Index l'.Index := by
  have hprefix : (KeyPrefixTransientTxLogs ++ l.TxHash.Bytes).length =
      (KeyPrefixTransientTxLogs ++ l'.TxHash.Bytes).length := by rw [hhash]
  rw [compare_transient, logKey, logKey, ← List.append_assoc, ← List.append_assoc,
    BigEndian.compare_append_of_length_eq hprefix, hhash, Std.ReflOrd.compare_self,
    Uint64ToBigEndian, Uint64ToBigEndian,
    BigEndian.compare_encodeFixed (UInt64.toNat_lt _) (UInt64.toNat_lt _), UInt64.toNat_ofNat',
    UInt64.toNat_ofNat', Nat.mod_eq_of_lt hl, Nat.mod_eq_of_lt hl']
  rfl

/-- A write of one key of the multistore leaves the others. -/
theorem getElem?_set_smul (K K' : MultiKey) (v : MultiValue) (s : MultiStore) :
    ((KV.Delta.set K v : MultiDelta) • s)[K']? = if K = K' then some v else s[K']? := by
  rw [KV.Delta.getElem?_smul, KV.Delta.writes_set]
  split <;> rfl

/-- A transient key that does not start with the logs' prefix is none of the keys under it. -/
theorem ne_logs (pre : Bytes) (hpre : pre.head? ≠ some 9) (key : Bytes) :
    MultiKey.transient pre ≠ .transient (KeyPrefixTransientTxLogs ++ key) := by
  intro h
  apply hpre
  cases h
  rfl

theorem ne_logKey (pre : Bytes) (hpre : pre.head? ≠ some 9) (l : Log) :
    MultiKey.transient pre ≠ .transient (logKey l) :=
  ne_logs pre hpre _

/-- A write of a counter or of the tx hash leaves the keys under the logs' prefix. -/
theorem getElem?_set_logs (pre : Bytes) (hpre : pre.head? ≠ some 9) (v : MultiValue)
    (s : MultiStore) (key : Bytes) :
    ((KV.Delta.set (.transient pre) v : MultiDelta) • s)[MultiKey.transient
      (KeyPrefixTransientTxLogs ++ key)]? = s[MultiKey.transient (KeyPrefixTransientTxLogs ++ key)]? := by
  rw [getElem?_set_smul, if_neg (ne_logs pre hpre key)]

/-! ## Keepers that hold a log book -/

/-- **A keeper holds a log book** in a block with header hash `blockHash`: no state error, the
    book's tx hash, tx index and log count in the transient store, the logs numbered by their
    position, and under the logs' prefix exactly the book's logs, each under its key. -/
structure HoldsBook (blockHash : Hash) (k : Keeper) (b : LogBook) : Prop where
  noError : k.stateErr = none
  header : BytesToHash k.HeaderHash = blockHash
  txIndexOk : k.GetTxIndexTransient = .ok b.txIndex
  txHash : k.GetTxHashTransient = b.txHash
  logSize : k.GetLogSizeTransient = .ok (UInt64.ofNat b.logs.length)
  numbered : b.logs.map Log.Index = List.range b.logs.length
  stored : ∀ key v, k.view[MultiKey.transient (KeyPrefixTransientTxLogs ++ key)]? = some v →
    ∃ l ∈ b.logs, KeyPrefixTransientTxLogs ++ key = logKey l ∧ v = .log l
  present : ∀ l ∈ b.logs, k.view[MultiKey.transient (logKey l)]? = some (.log l)

namespace HoldsBook

variable {blockHash : Hash} {k : Keeper} {b : LogBook}

/-- A log of the book has an index below the book's count. -/
theorem index_lt (hb : HoldsBook blockHash k b) {l : Log} (hl : l ∈ b.logs) :
    l.Index < b.logs.length := by
  have hmem : l.Index ∈ b.logs.map Log.Index := List.mem_map_of_mem hl
  rw [hb.numbered, List.mem_range] at hmem
  exact hmem

/-- A write of a transient key outside the logs' prefix keeps the book's logs, each under its
    key, and nothing else there. -/
theorem logs_of_set (hb : HoldsBook blockHash k b) {k' : Keeper} {pre : Bytes}
    (hpre : pre.head? ≠ some 9) {v : MultiValue}
    (hview : k'.view = (KV.Delta.set (.transient pre) v : MultiDelta) • k.view) :
    (∀ key v, k'.view[MultiKey.transient (KeyPrefixTransientTxLogs ++ key)]? = some v →
      ∃ l ∈ b.logs, KeyPrefixTransientTxLogs ++ key = logKey l ∧ v = .log l) ∧
    ∀ l ∈ b.logs, k'.view[MultiKey.transient (logKey l)]? = some (.log l) := by
  constructor
  · intro key v hget
    rw [hview, getElem?_set_logs pre hpre] at hget
    exact hb.stored key v hget
  · intro l hl
    rw [hview, logKey, getElem?_set_logs pre hpre]
    exact hb.present l hl

/-- **SetTxHashTransient keeps the book**, with the new tx hash. -/
theorem setTxHash (hb : HoldsBook blockHash k b) (hash : Hash) :
    HoldsBook blockHash (k.SetTxHashTransient hash) (b.step blockHash (.SetTxHash hash)) := by
  have hview : (k.SetTxHashTransient hash).view =
      (KV.Delta.set (.transient KeyPrefixTransientTxHash) (.bytes hash.Bytes) : MultiDelta) • k.view :=
    view_write k _
  obtain ⟨hstored, hpresent⟩ := hb.logs_of_set (by decide) hview
  show HoldsBook blockHash (k.SetTxHashTransient hash) { b with txHash := hash }
  refine ⟨hb.noError, hb.header, ?_, ?_, ?_, hb.numbered, hstored, hpresent⟩
  · rw [← hb.txIndexOk]
    simp only [GetTxIndexTransient, getCounter, hview, MultiStore.Get_smul_set_bytes]
    rfl
  · simp only [GetTxHashTransient, hview, MultiStore.Get_smul_set_bytes, if_true, length_Hash_Bytes]
    exact BytesToHash_Bytes hash
  · rw [← hb.logSize]
    simp only [GetLogSizeTransient, getCounter, hview, MultiStore.Get_smul_set_bytes]
    rfl

/-- **IncreaseTxIndexTransient keeps the book**, with the next tx index. -/
theorem increaseTxIndex (hb : HoldsBook blockHash k b) :
    ∃ k', k.IncreaseTxIndexTransient = .ok k' ∧
      HoldsBook blockHash k' (b.step blockHash .IncreaseTxIndex) := by
  have hinc : k.IncreaseTxIndexTransient = .ok (k.SetTxIndexTransient (b.txIndex + 1)) := by
    simp only [IncreaseTxIndexTransient, hb.txIndexOk, bind, Except.bind, pure, Except.pure]
  have hview : (k.SetTxIndexTransient (b.txIndex + 1)).view =
      (KV.Delta.set (.transient KeyPrefixTransientTxIndex)
        (.bytes (Uint64ToBigEndian (b.txIndex + 1))) : MultiDelta) • k.view :=
    view_setCounter _ _ k
  obtain ⟨hstored, hpresent⟩ := hb.logs_of_set (by decide) hview
  show ∃ k', _ ∧ HoldsBook blockHash k' { b with txIndex := b.txIndex + 1 }
  refine ⟨_, hinc, hb.noError, hb.header, ?_, ?_, ?_, hb.numbered, hstored, hpresent⟩
  · -- the index reads back bumped
    simp only [GetTxIndexTransient, getCounter, hview, MultiStore.Get_smul_set_bytes, if_true]
    rw [if_neg (by rw [Uint64ToBigEndian, BigEndian.length_encodeFixed]; decide),
      BigEndianToUint64_Uint64ToBigEndian]
  · rw [← hb.txHash]
    simp only [GetTxHashTransient, hview, MultiStore.Get_smul_set_bytes]
    rfl
  · rw [← hb.logSize]
    simp only [GetLogSizeTransient, getCounter, hview, MultiStore.Get_smul_set_bytes]
    rfl

/-- **AddLog keeps the book**, with the filled log appended, while the count stays below
    `2^64`. -/
theorem addLog (hb : HoldsBook blockHash k b) (hlen : b.logs.length + 1 < 2 ^ 64) (log : Log) :
    ∃ k', k.AddLog log = .ok k' ∧ HoldsBook blockHash k' (b.step blockHash (.AddLog log)) := by
  let log' := b.fill blockHash log
  let k₁ := setCounter KeyPrefixTransientLogSize (UInt64.ofNat b.logs.length + 1) k
  have hidx : (UInt64.ofNat b.logs.length).toNat = b.logs.length := by
    rw [UInt64.toNat_ofNat']
    exact Nat.mod_eq_of_lt (by omega)
  -- AddLog fills in the book's log and bumps the count
  have hadd : k.AddLog log = .ok (k₁.AddLogTransient log') := by
    have hnoerr : k.HasStateError = false := by simp [HasStateError, hb.noError]
    unfold AddLog IncreaseLogSizeTransient
    simp only [hnoerr, hb.txIndexOk, hb.logSize, hb.header, hb.txHash, hidx, Bool.false_eq_true,
      if_false, bind, Except.bind, pure, Except.pure]
    rfl
  have hview : (k₁.AddLogTransient log').view =
      (KV.Delta.set (.transient (logKey log')) (.log log') : MultiDelta) •
        (KV.Delta.set (.transient KeyPrefixTransientLogSize)
          (.bytes (Uint64ToBigEndian (UInt64.ofNat b.logs.length + 1))) : MultiDelta) • k.view := by
    rw [← view_setCounter]
    exact view_write k₁ _
  have hindex : log'.Index = b.logs.length := rfl
  show ∃ k', k.AddLog log = .ok k' ∧ HoldsBook blockHash k' { b with logs := b.logs ++ [log'] }
  refine ⟨_, hadd, hb.noError, hb.header, ?_, ?_, ?_, ?_, ?_, ?_⟩
  · rw [← hb.txIndexOk]
    simp only [GetTxIndexTransient, getCounter, hview,
      MultiStore.Get_smul_set_of_ne _ _ (ne_logKey KeyPrefixTransientTxIndex (by decide) log').symm,
      MultiStore.Get_smul_set_bytes]
    rfl
  · rw [← hb.txHash]
    simp only [GetTxHashTransient, hview,
      MultiStore.Get_smul_set_of_ne _ _ (ne_logKey KeyPrefixTransientTxHash (by decide) log').symm,
      MultiStore.Get_smul_set_bytes]
    rfl
  · -- the count reads back bumped
    simp only [GetLogSizeTransient, getCounter, hview,
      MultiStore.Get_smul_set_of_ne _ _ (ne_logKey KeyPrefixTransientLogSize (by decide) log').symm,
      MultiStore.Get_smul_set_bytes, if_true, List.length_append, List.length_singleton]
    rw [if_neg (by rw [Uint64ToBigEndian, BigEndian.length_encodeFixed]; decide),
      BigEndianToUint64_Uint64ToBigEndian]
    simp
  · rw [List.map_append, hb.numbered, List.length_append, List.length_singleton, List.range_succ]
    rfl
  · intro key v hget
    rw [hview, getElem?_set_smul, getElem?_set_logs KeyPrefixTransientLogSize (by decide)] at hget
    by_cases hkey : MultiKey.transient (logKey log') = .transient (KeyPrefixTransientTxLogs ++ key)
    · -- the new log
      rw [if_pos hkey] at hget
      cases hget
      exact ⟨log', List.mem_append_right _ List.mem_cons_self, (MultiKey.transient.inj hkey).symm,
        rfl⟩
    · rw [if_neg hkey] at hget
      obtain ⟨l, hl, hkeyl, hv⟩ := hb.stored key v hget
      exact ⟨l, List.mem_append_left _ hl, hkeyl, hv⟩
  · intro l hl
    rw [hview, getElem?_set_smul, getElem?_set_smul,
      if_neg (ne_logKey KeyPrefixTransientLogSize (by decide) l)]
    rcases List.mem_append.mp hl with hold | hnew
    · -- an older log has a smaller index, hence another key
      have hlt := hb.index_lt hold
      have hne : logKey log' ≠ logKey l := by
        intro heq
        have hofNat := congrArg UInt64.toNat (logKey_eq_logKey heq).2
        rw [UInt64.toNat_ofNat', UInt64.toNat_ofNat', hindex, Nat.mod_eq_of_lt (by omega),
          Nat.mod_eq_of_lt (by omega)] at hofNat
        omega
      rw [if_neg (fun h => hne (MultiKey.transient.inj h))]
      exact hb.present l hold
    · rw [List.mem_singleton.mp hnew, if_pos rfl]

/-- **A fresh block holds the empty book**: no state error, no log count and nothing under the
    logs' prefix of the transient store. -/
theorem start {t : UInt64} (herr : k.stateErr = none) (hindex : k.GetTxIndexTransient = .ok t)
    (hsize : k.GetLogSizeTransient = .ok 0)
    (hempty : ∀ key, k.view[MultiKey.transient (KeyPrefixTransientTxLogs ++ key)]? = none) :
    HoldsBook (BytesToHash k.HeaderHash) k ⟨k.GetTxHashTransient, t, []⟩ where
  noError := herr
  header := rfl
  txIndexOk := hindex
  txHash := rfl
  logSize := hsize
  numbered := rfl
  stored key v hget := by
    rw [hempty key] at hget
    cases hget
  present l hl := by cases hl

/-- **Every block of calls keeps the book**, while the count stays below `2^64`. -/
theorem run (hb : HoldsBook blockHash k b) {events : List LogEvent}
    (hcount : b.logs.length + LogEvent.addedLogs events < 2 ^ 64) :
    ∃ k', LogEvent.run events k = .ok k' ∧ HoldsBook blockHash k' (b.run blockHash events) := by
  induction events generalizing k b with
  | nil => exact ⟨k, rfl, hb⟩
  | cons e es ih =>
    cases e with
    | AddLog log =>
      have hcount' : b.logs.length + 1 + LogEvent.addedLogs es < 2 ^ 64 := by
        simpa [LogEvent.addedLogs, Nat.add_assoc, Nat.add_comm 1] using hcount
      obtain ⟨k₁, hadd, hb₁⟩ := hb.addLog (by omega) log
      obtain ⟨k', hrun, hb'⟩ := ih hb₁ (by simpa [LogBook.step] using hcount')
      refine ⟨k', ?_, hb'⟩
      show (k.AddLog log).bind (LogEvent.run es) = _
      rw [hadd]
      exact hrun
    | SetTxHash hash =>
      -- the count does not move
      exact ih (hb.setTxHash hash) (by simpa [LogEvent.addedLogs, LogBook.step] using hcount)
    | IncreaseTxIndex =>
      obtain ⟨k₁, hinc, hb₁⟩ := hb.increaseTxIndex
      obtain ⟨k', hrun, hb'⟩ := ih hb₁ (by simpa [LogEvent.addedLogs, LogBook.step] using hcount)
      refine ⟨k', ?_, hb'⟩
      show k.IncreaseTxIndexTransient.bind (LogEvent.run es) = _
      rw [hinc]
      exact hrun

end HoldsBook

/-! ## Reading the logs of a transaction -/

/-- What GetTxLogsTransient makes of an entry of the multistore: the log of a transient key
    under the logs' prefix whose rest lies in the range of `h`. -/
def txLogEntry (h : Hash) : MultiKey × MultiValue → Option Log
  | (.transient key, v) =>
    if KeyPrefixTransientTxLogs.isPrefixOf key && inTxRange h (key.drop 1) then
      match v with
      | .log l => some l
      | _ => none
    else none
  | _ => none

/-- GetTxLogsTransient reads the multistore's entries in key order, one `filterMap`. -/
theorem GetTxLogsTransient_eq (h : Hash) (k : Keeper) :
    k.GetTxLogsTransient h = k.view.toList.filterMap (txLogEntry h) := by
  unfold GetTxLogsTransient MultiStore.TransientIterator MultiStore.entries
  rw [List.filterMap_filterMap, List.filterMap_filterMap]
  congr 1
  funext e
  obtain ⟨key, v⟩ := e
  cases key <;> simp only [MultiStore.transientKey?, Option.map_none, Option.map_some,
    Option.bind_none, Option.bind_some, txLogEntry]
  -- a transient key: the prefix, then the range, then the value
  rename_i key
  simp only [inTxRange, txRangeEnd, KeyPrefixTransientTxLogs, List.length_singleton]
  -- the value is read the same way on both sides, once its constructor is known
  cases v <;>
    by_cases hpre : [(9 : UInt8)].isPrefixOf key = true <;>
    by_cases hrange : (compare (key.drop 1) h.Bytes != .lt &&
      compare (key.drop 1) (h.Bytes ++ [255, 255, 255, 255, 255, 255, 255, 255]) == .lt) = true <;>
    simp only [hpre, hrange, if_true, if_false, Bool.and_self, Bool.and_true, Bool.and_false,
      Bool.false_eq_true, Option.bind_some, Option.bind_none]

section Read

variable {blockHash : Hash} {k : Keeper} {b : LogBook}

/-- An entry the read keeps is a log of the book with the tx hash `h`, under its own key. -/
theorem txLogEntry_of_mem (hb : HoldsBook blockHash k b) {h : Hash}
    {e : MultiKey × MultiValue} (he : e ∈ k.view.toList) {l : Log} (hl : txLogEntry h e = some l) :
    l ∈ b.logs ∧ l.TxHash = h ∧ e.1 = .transient (logKey l) := by
  obtain ⟨key, v⟩ := e
  cases key with
  | transient key =>
    simp only [txLogEntry] at hl
    split at hl
    · rename_i hcond
      obtain ⟨hpre, hrange⟩ := Bool.and_eq_true _ _ ▸ hcond
      cases v with
      | log l' =>
        injection hl with hl
        subst hl
        -- the key is the prefix, then the log's hash and index
        have hkey : KeyPrefixTransientTxLogs ++ key.drop 1 = key :=
          List.prefix_iff_eq_append.mp (List.isPrefixOf_iff_prefix.mp hpre)
        have hget : k.view[MultiKey.transient (KeyPrefixTransientTxLogs ++ key.drop 1)]? =
            some (.log l') := by
          rw [hkey]
          exact Std.ExtTreeMap.mem_toList_iff_getElem?_eq_some.mp he
        obtain ⟨l'', hl'', hkeyl, hv⟩ := hb.stored _ _ hget
        cases hv
        have hrest : key.drop 1 = l'.TxHash.Bytes ++ Uint64ToBigEndian (UInt64.ofNat l'.Index) :=
          List.append_cancel_left hkeyl
        rw [hrest, inTxRange_logKey] at hrange
        exact ⟨hl'', hrange.1, by rw [← hkey, hkeyl]⟩
      | bytes => cases hl
      | account => cases hl
      | amount => cases hl
    · cases hl
  | evm => cases hl
  | account => cases hl
  | balance => cases hl
  | supply => cases hl

/-- **A keeper that holds a book reads back the book's logs of `h`**, in the order they were
    added, while no log's index reaches `2^64 - 1`. -/
theorem GetTxLogsTransient_of_holdsBook (hb : HoldsBook blockHash k b)
    (hlen : b.logs.length < 2 ^ 64 - 1) (h : Hash) :
    k.GetTxLogsTransient h = b.txLogs h := by
  rw [GetTxLogsTransient_eq]
  refine KV.eq_of_pairwise_of_mem_iff (r := fun l l' => l.Index < l'.Index)
    (fun l l' hlt hgt => by omega) ?_ (LogBook.pairwise_txLogs hb.numbered h) ?_
  · -- the read goes in key order, and the keys of one hash order by index
    refine (List.Pairwise.and_mem.mp Std.ExtTreeMap.ordered_keys_toList).filterMap _ ?_
    rintro e e' ⟨he, he', hlt⟩ l hl l' hl'
    obtain ⟨hmem, hhash, hkey⟩ := txLogEntry_of_mem hb he hl
    obtain ⟨hmem', hhash', hkey'⟩ := txLogEntry_of_mem hb he' hl'
    have hidx := hb.index_lt hmem
    have hidx' := hb.index_lt hmem'
    rw [hkey, hkey', compare_logKey (hhash.trans hhash'.symm) (by omega) (by omega)] at hlt
    exact Nat.compare_eq_lt.mp hlt
  · intro l
    rw [List.mem_filterMap, LogBook.txLogs, List.mem_filter, beq_iff_eq]
    constructor
    · rintro ⟨e, he, hl⟩
      obtain ⟨hmem, hhash, -⟩ := txLogEntry_of_mem hb he hl
      exact ⟨hmem, hhash⟩
    · rintro ⟨hmem, hhash⟩
      refine ⟨(.transient (logKey l), .log l),
        Std.ExtTreeMap.mem_toList_iff_getElem?_eq_some.mpr (hb.present l hmem), ?_⟩
      -- the log's key is under the prefix, and its rest lies in the range of its hash
      have hidx : (UInt64.ofNat l.Index).toNat < 2 ^ 64 - 1 := by
        have := hb.index_lt hmem
        rw [UInt64.toNat_ofNat', Nat.mod_eq_of_lt (by omega)]
        omega
      have hrange : inTxRange h ((logKey l).drop 1) = true := by
        rw [logKey, KeyPrefixTransientTxLogs, List.singleton_append, List.drop_one, List.tail_cons]
        exact (inTxRange_logKey h l.TxHash _).mpr ⟨hhash, hidx⟩
      simp only [txLogEntry, hrange, Bool.and_true]
      rw [if_pos (by simp [logKey, KeyPrefixTransientTxLogs])]

end Read

/-- **The logs of a transaction read back exactly and in order**: from the start of a block,
    every sequence of calls runs, and afterwards GetTxLogsTransient(h) returns the logs AddLog
    stored while the tx hash was `h`, all of hash `h`, in increasing index order, while fewer than
    `2^64 - 1` logs were added. -/
theorem GetTxLogsTransient_block {k : Keeper} {t : UInt64} {events : List LogEvent}
    (herr : k.stateErr = none) (hindex : k.GetTxIndexTransient = .ok t)
    (hsize : k.GetLogSizeTransient = .ok 0)
    (hempty : ∀ key, k.view[MultiKey.transient (KeyPrefixTransientTxLogs ++ key)]? = none)
    (hcount : LogEvent.addedLogs events < 2 ^ 64 - 1) :
    ∃ k', LogEvent.run events k = .ok k' ∧ ∀ h : Hash,
      k'.GetTxLogsTransient h =
          (LogBook.run (BytesToHash k.HeaderHash) ⟨k.GetTxHashTransient, t, []⟩ events).txLogs h ∧
        (k'.GetTxLogsTransient h).Pairwise (fun l l' => l.Index < l'.Index) ∧
        ∀ l ∈ k'.GetTxLogsTransient h, l.TxHash = h := by
  have hb := HoldsBook.start herr hindex hsize hempty
  have hcount' : ([] : List Log).length + LogEvent.addedLogs events < 2 ^ 64 := by
    simp only [List.length_nil]
    omega
  obtain ⟨k', hrun, hb'⟩ := hb.run hcount'
  have hlen := LogBook.length_run (BytesToHash k.HeaderHash) ⟨k.GetTxHashTransient, t, []⟩ events
  refine ⟨k', hrun, fun h => ?_⟩
  have hread := GetTxLogsTransient_of_holdsBook hb' (by simp only [hlen, List.length_nil]; omega) h
  refine ⟨hread, ?_, ?_⟩
  · rw [hread]
    exact LogBook.pairwise_txLogs hb'.numbered h
  · rw [hread]
    intro l hl
    exact beq_iff_eq.mp (List.mem_filter.mp hl).2

/-- Two transactions of a block, with two logs and one. -/
theorem GetTxLogsTransient_block_two_txs :
    let log : Log := ⟨0x2000, [], [], 1, 0, 0, 0, 0, false⟩
    let events := [.SetTxHash 0xab01, .AddLog log, .AddLog log, .IncreaseTxIndex,
      .SetTxHash 0xab02, .AddLog log, .IncreaseTxIndex]
    let k : Keeper := ⟨⟨⟨∅, []⟩, []⟩, ⟨"aphoton", true, true, []⟩, 1, [], "", false, none, none,
      fun _ => 0⟩
    ∃ k', LogEvent.run events k = .ok k' ∧ ∀ h : Hash,
      k'.GetTxLogsTransient h =
          (LogBook.run (BytesToHash k.HeaderHash) ⟨k.GetTxHashTransient, 0, []⟩ events).txLogs h ∧
        (k'.GetTxLogsTransient h).Pairwise (fun l l' => l.Index < l'.Index) ∧
        ∀ l ∈ k'.GetTxLogsTransient h, l.TxHash = h :=
  GetTxLogsTransient_block rfl (by decide) (by decide)
    (fun key => Std.ExtTreeMap.getElem?_empty) (by decide)

/-- In that block, the second transaction reads its one log, with the second tx index and the
    block's third log index. -/
example :
    let log : Log := ⟨0x2000, [], [], 1, 0, 0, 0, 0, false⟩
    let events := [.SetTxHash 0xab01, .AddLog log, .AddLog log, .IncreaseTxIndex,
      .SetTxHash 0xab02, .AddLog log, .IncreaseTxIndex]
    let k : Keeper := ⟨⟨⟨∅, []⟩, []⟩, ⟨"aphoton", true, true, []⟩, 1, [], "", false, none, none,
      fun _ => 0⟩
    (LogEvent.run events k).map (fun k' =>
      (k'.GetTxLogsTransient 0xab02).map fun l => (l.TxIndex, l.Index)) = .ok [(1, 2)] := by
  decide +kernel

end AnconEvm.Evm
