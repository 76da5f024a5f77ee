import AnconEvm.Evm.Logs
import AnconEvm.Lib.Bloom
/-
  The log filters of the JSON-RPC server (ethereum/rpc/namespaces/eth/filters, with
  `GetFilteredBlocks` and `checkMatches` of ethereum/rpc/backend/backend.go).

  `eth_getLogs` filters logs by criteria: a list of addresses (any of them), and a list of topic
  positions, each a list of topics (any of them at that position; none for a wildcard).
  `FilterLogs` applies the criteria to logs.  Two filters use a block's 2048-bit bloom first to
  skip blocks with no match: `Filter.blockLogs`, for one block given by its hash, asks
  `bloomFilter`; the range filter of `NewRangeFilter` turns the criteria into groups of bloom
  bits (`createBloomFilters`) that `GetFilteredBlocks` checks at every height.

  go-ethereum's bloom is the library filter of `Lib/Bloom.lean` over 256 bytes: `LogsBloom`
  records the address and the topics of every log, and `BloomLookup` tests an item.  These and
  `calcBloomIVs` transcribe core/types/bloom9.go of go-ethereum v1.10.3, the version src/go.mod
  pins.  Which
  bits an item gets is computed as `calcBloomIVs` computes it, from the first six bytes of the
  item's Keccak-256 hash (a parameter).  So a bloom has no false negatives
  (`BloomLookup_LogsBloom`), and both filters are sound exactly when their bloom test accepts
  every block with a matching log: the range filter always does (`GetFilteredBlocks_mem`); the
  single-block filter does unless the criteria have neither addresses nor topics, where
  `bloomFilter` answers `false` for every block (`blockLogs_without_criteria_empty`).
-/

namespace AnconEvm.Filters

open Evm

/-! ## Blooms -/

/-- ethtypes.BloomByteLength. -/
def BloomByteLength : Nat := 256

/-- ethtypes.Bloom. -/
abbrev Bloom := Bloom.Filter BloomByteLength

/-- BloomIV: the byte indexes and the bit values of one item in a bloom. -/
structure BloomIV where
  I : Fin 3 → Fin BloomByteLength
  V : Fin 3 → UInt8

/-- The three (index, bit) pairs of a BloomIV. -/
def BloomIV.bits (iv : BloomIV) : List (Fin BloomByteLength × UInt8) :=
  List.ofFn fun j => (iv.I j, iv.V j)

/-- calcBloomIVs: the bits of an item, from the first six bytes of its hash.  (Writing to and
    reading from the Keccak state never fail, so the source's error results never occur.) -/
def calcBloomIVs (Keccak256 : Bytes → Hash) (data : Bytes) : BloomIV :=
  let hashbuf := (Keccak256 data).Bytes.take 6
  { V := fun j => 1 <<< (hashbuf.getD (2 * j + 1) 0 &&& 0x7)
    I := fun j => ⟨BloomByteLength - ((BigEndian.decode ((hashbuf.drop (2 * j)).take 2) &&& 0x7ff) >>> 3) - 1,
      by simp only [BloomByteLength]; omega⟩ }

section Geth

variable (Keccak256 : Bytes → Hash)

/-- go-ethereum's BloomLookup (Bloom.Test): the item's bits are set. -/
def BloomLookup (bin : Bloom) (data : Bytes) : Bool := Bloom.test bin (calcBloomIVs Keccak256 data).bits

/-- The items of a log that go-ethereum's LogsBloom records: its address, then its topics. -/
def logItems (log : EthLog) : List Bytes := log.Address.Bytes :: log.Topics.elems.map Hash.Bytes

/-- go-ethereum's LogsBloom: every item of every log added in order to an empty bloom. -/
def LogsBloom (logs : List EthLog) : Bloom :=
  Bloom.addAll Bloom.empty ((logs.flatMap logItems).map fun d => (calcBloomIVs Keccak256 d).bits)

/-- **A block's bloom has no false negatives**: every address and every topic of its logs is
    found in it. -/
theorem BloomLookup_LogsBloom {logs : List EthLog} {log : EthLog} (hlog : log ∈ logs) {d : Bytes}
    (hd : d ∈ logItems log) : BloomLookup Keccak256 (LogsBloom Keccak256 logs) d = true := by
  apply Bloom.test_addAll_of_mem
  exact List.mem_map.mpr ⟨d, List.mem_flatMap.mpr ⟨log, hlog, hd⟩, rfl⟩

end Geth

/-- Bloom.Bytes: the bloom's 256 bytes. -/
def Bloom.Bytes (b : Bloom) : Bytes := List.ofFn b

/-- BytesToBloom (Bloom.SetBytes): the bytes right-aligned in the 256 bytes of a bloom; more than
    256 bytes panic. -/
def BytesToBloom (b : Bytes) : Except String Bloom :=
  if b.length > BloomByteLength then
    .error ("bloom bytes too big " ++ toString BloomByteLength ++ " " ++ toString b.length)
  else .ok fun i => (List.replicate (BloomByteLength - b.length) 0 ++ b).getD i 0

/-! ## FilterLogs -/

/-- The block bounds of FilterLogs: a bound set to a non-negative height excludes the logs beyond
    it.  (The bounds are `*big.Int`s read with `Int64()`; they are heights, in its range.) -/
def inBlockRange (fromBlock toBlock : Option Int) (n : UInt64) : Bool :=
  !(fromBlock.any fun b => 0 ≤ b && (n.toNat : Int) < b) &&
    !(toBlock.any fun b => 0 ≤ b && b < (n.toNat : Int))

/-- includes. -/
def includes (addresses : List Address) (a : Address) : Bool := addresses.any fun addr => addr == a

/-- The topic positions of FilterLogs, each matched against the log's topic at its index: an
    empty position is a wildcard, else one of its topics must be there. -/
def topicsMatch (topics : List (List Hash)) (logTopics : List Hash) : Bool :=
  (topics.zip logTopics).all fun (sub, topic) => sub.length == 0 || sub.any fun t => topic == t

/-- FilterLogs: the logs in the block bounds, from one of the addresses (if any are given),
    with at least as many topics as positions, each position matched. -/
def FilterLogs (logs : List EthLog) (fromBlock toBlock : Option Int) (addresses : List Address)
    (topics : List (List Hash)) : List EthLog :=
  logs.filter fun log =>
    inBlockRange fromBlock toBlock log.BlockNumber &&
      !(addresses.length > 0 && !includes addresses log.Address) &&
      !(topics.length > log.Topics.elems.length) &&
      topicsMatch topics log.Topics.elems

/-- What a log FilterLogs keeps has: its address among the addresses (if any), and for every
    non-wildcard position one of the position's topics among its topics. -/
theorem of_mem_FilterLogs {logs : List EthLog} {fromBlock toBlock : Option Int}
    {addresses : List Address} {topics : List (List Hash)} {log : EthLog}
    (h : log ∈ FilterLogs logs fromBlock toBlock addresses topics) :
    log ∈ logs ∧ (addresses ≠ [] → log.Address ∈ addresses) ∧
      ∀ sub ∈ topics, sub ≠ [] → ∃ t ∈ sub, t ∈ log.Topics.elems := by
  simp only [FilterLogs, List.mem_filter, Bool.and_eq_true, Bool.not_eq_true', Bool.and_eq_false_iff,
    decide_eq_false_iff_not] at h
  obtain ⟨hmem, ⟨⟨-, haddr⟩, hlen⟩, htopics⟩ := h
  refine ⟨hmem, ?_, ?_⟩
  · intro hne
    rcases haddr with hempty | hincl
    · exact absurd (List.length_pos_iff.mpr hne) hempty
    · simpa [includes] using hincl
  · intro sub hsub hne
    -- the position's index, which the log's topics have, since it has at least as many
    obtain ⟨i, hi, rfl⟩ := List.getElem_of_mem hsub
    have hi' : i < log.Topics.elems.length := by omega
    have hpair : (topics[i], log.Topics.elems[i]) ∈ topics.zip log.Topics.elems := by
      rw [List.mem_iff_getElem]
      exact ⟨i, by simp [hi, hi'], by simp⟩
    simp only [topicsMatch, List.all_eq_true] at htopics
    have hmatch := htopics _ hpair
    simp only [Bool.or_eq_true, beq_iff_eq, List.length_eq_zero_iff, List.any_eq_true] at hmatch
    rcases hmatch with hnil | ⟨t, ht, heq⟩
    · exact absurd hnil hne
    · exact ⟨t, ht, heq ▸ List.getElem_mem hi'⟩

/-! ## The single-block filter -/

/-- go-ethereum's filters.FilterCriteria. -/
structure FilterCriteria where
  BlockHash : Option Hash
  FromBlock : Option Int
  ToBlock : Option Int
  Addresses : List Address
  Topics : List (List Hash)

/-- Filter: its criteria and the bloom bit groups of a range filter. -/
structure Filter where
  criteria : FilterCriteria
  bloomFilters : List (List BloomIV)

/-- What the filters read of an ethtypes.Header. -/
structure Header where
  Number : Int
  Bloom : Bloom

section Backend

variable (Keccak256 : Bytes → Hash)

/-- The verdict bloomFilter gives at one topic position: a wildcard, or one of its topics is
    found. -/
def subIncluded (bloom : Bloom) (sub : List Hash) : Bool :=
  sub.length == 0 || sub.any fun topic => BloomLookup Keccak256 bloom topic.Bytes

/-- bloomFilter: whether the block's bloom may hold a match.  The verdict starts `false`, is
    `true` once an address is found, and every topic position overwrites it. -/
def bloomFilter (bloom : Bloom) (addresses : List Address) (topics : List (List Hash)) : Bool :=
  let included := addresses.any fun addr => BloomLookup Keccak256 bloom addr.Bytes
  if addresses.length > 0 && !included then false
  else topics.foldl (fun _ sub => subIncluded Keccak256 bloom sub) included

variable (GetLogsByNumber : Int → Except String (List (List EthLog)))

/-- Filter.blockLogs: the matching logs of one block, none when its bloom rules a match out. -/
def Filter.blockLogs (f : Filter) (header : Header) : Except String (List EthLog) :=
  if !bloomFilter Keccak256 header.Bloom f.criteria.Addresses f.criteria.Topics then .ok []
  else
    match GetLogsByNumber header.Number with
    | .error err => .error ("failed to fetch logs block number " ++ toString header.Number ++ ": " ++ err)
    | .ok logsList =>
      let logs := FilterLogs logsList.flatten none none f.criteria.Addresses f.criteria.Topics
      if logs.length = 0 then .ok [] else .ok logs

end Backend

/-- A fold whose step ignores the accumulator ends with the last element's value. -/
theorem foldl_overwrite {α β : Type} (g : α → β) (init : β) (xs : List α) :
    xs.foldl (fun _ x => g x) init = (xs.getLast?.map g).getD init := by
  induction xs using List.reverseRecOn with
  | nil => rfl
  | append_singleton xs x _ => simp [List.foldl_append]

section Sound

variable {Keccak256 : Bytes → Hash}

/-- **The single-block bloom test is sound when the criteria are not empty**: a block whose bloom
    is its logs' bloom passes whenever one of its logs matches. -/
theorem bloomFilter_of_mem_FilterLogs {logs : List EthLog} {addresses : List Address}
    {topics : List (List Hash)} {log : EthLog}
    (hlog : log ∈ FilterLogs logs none none addresses topics) (hcrit : addresses ≠ [] ∨ topics ≠ []) :
    bloomFilter Keccak256 (LogsBloom Keccak256 logs) addresses topics = true := by
  obtain ⟨hmem, haddr, htopics⟩ := of_mem_FilterLogs hlog
  -- an address given is found: the log's own
  have hincluded : addresses ≠ [] →
      (addresses.any fun addr => BloomLookup Keccak256 (LogsBloom Keccak256 logs) addr.Bytes) = true := by
    intro hne
    exact List.any_eq_true.mpr ⟨log.Address, haddr hne,
      BloomLookup_LogsBloom Keccak256 hmem List.mem_cons_self⟩
  unfold bloomFilter
  dsimp only
  rw [foldl_overwrite]
  have hguard : ¬ (addresses.length > 0 && !(addresses.any fun addr =>
      BloomLookup Keccak256 (LogsBloom Keccak256 logs) addr.Bytes)) = true := by
    by_cases hne : addresses = []
    · simp [hne]
    · simp [hincluded hne]
  simp only [hguard, Bool.false_eq_true, if_false]
  cases hlast : topics.getLast? with
  | none =>
    -- no topic position: the verdict of the addresses, which are given
    have hnil : topics = [] := List.getLast?_eq_none_iff.mp hlast
    have hne : addresses ≠ [] := hcrit.resolve_right (fun h => h hnil)
    exact hincluded hne
  | some sub =>
    -- the last position decides: a wildcard, or one of its topics is the log's
    simp only [Option.map_some, Option.getD_some, subIncluded, Bool.or_eq_true]
    by_cases hsub : sub = []
    · left
      simp [hsub]
    · right
      obtain ⟨t, ht, htlog⟩ := htopics sub (List.mem_of_getLast? hlast) hsub
      have hfound : BloomLookup Keccak256 (LogsBloom Keccak256 logs) t.Bytes = true :=
        BloomLookup_LogsBloom Keccak256 hmem (List.mem_cons_of_mem _ (List.mem_map_of_mem htlog))
      exact List.any_eq_true.mpr ⟨t, ht, hfound⟩

/-- So for criteria with an address or a topic position, `eth_getLogs` by block hash returns
    exactly the logs FilterLogs keeps (an empty result is returned as an empty list either way). -/
theorem blockLogs_eq_FilterLogs {GetLogsByNumber : Int → Except String (List (List EthLog))}
    {f : Filter} {header : Header} {logsList : List (List EthLog)}
    (hlogs : GetLogsByNumber header.Number = .ok logsList)
    (hbloom : header.Bloom = LogsBloom Keccak256 logsList.flatten)
    (hcrit : f.criteria.Addresses ≠ [] ∨ f.criteria.Topics ≠ []) :
    f.blockLogs Keccak256 GetLogsByNumber header =
      .ok (FilterLogs logsList.flatten none none f.criteria.Addresses f.criteria.Topics) := by
  unfold Filter.blockLogs
  cases hfl : FilterLogs logsList.flatten none none f.criteria.Addresses f.criteria.Topics with
  | nil =>
    -- nothing matches: both branches return the empty list
    split
    · rfl
    · simp only [hlogs, hfl, List.length_nil, if_true]
  | cons log rest =>
    have hmem : log ∈ FilterLogs logsList.flatten none none f.criteria.Addresses f.criteria.Topics := by
      rw [hfl]
      exact List.mem_cons_self
    have hpass : bloomFilter Keccak256 header.Bloom f.criteria.Addresses f.criteria.Topics = true := by
      rw [hbloom]
      exact bloomFilter_of_mem_FilterLogs hmem hcrit
    simp only [hpass, Bool.not_true, Bool.false_eq_true, if_false, hlogs, hfl, List.length_cons]
    rfl

end Sound

/-- **A query by block hash with no address and no topic returns nothing**: every log of the
    block matches such criteria, but `bloomFilter` keeps its initial `false`, so `blockLogs`
    returns the empty list whatever the block holds. -/
theorem blockLogs_without_criteria_empty (Keccak256 : Bytes → Hash)
    (GetLogsByNumber : Int → Except String (List (List EthLog))) (blockHash : Hash)
    (header : Header) (logs : List EthLog) :
    FilterLogs logs none none [] [] = logs ∧
      bloomFilter Keccak256 header.Bloom [] [] = false ∧
      Filter.blockLogs Keccak256 GetLogsByNumber ⟨⟨some blockHash, none, none, [], []⟩, []⟩ header =
        .ok [] := by
  have hfilter : FilterLogs logs none none [] [] = logs := by
    simp [FilterLogs, inBlockRange, topicsMatch]
  have hbloom : bloomFilter Keccak256 header.Bloom [] [] = false := rfl
  refine ⟨hfilter, hbloom, ?_⟩
  simp only [Filter.blockLogs, hbloom, Bool.not_false, if_true]

/-! ## The range filter -/

/-- The byte groups of NewRangeFilter: the addresses first, if any, then one group per topic
    position (empty for a wildcard). -/
def filtersBz (addresses : List Address) (topics : List (List Hash)) : List (List Bytes) :=
  (if addresses.length > 0 then [addresses.map Address.Bytes] else []) ++
    topics.map fun topicList => topicList.map Hash.Bytes

/-- createBloomFilters: the bits of every group, dropping the empty ones.  (The clauses are the
    bytes of addresses and hashes, never nil, so no group is dropped for a nil clause.) -/
def createBloomFilters (Keccak256 : Bytes → Hash) (filters : List (List Bytes)) : List (List BloomIV) :=
  filters.filterMap fun filter =>
    if filter.length = 0 then none else some (filter.map (calcBloomIVs Keccak256))

/-- NewRangeFilter. -/
def NewRangeFilter (Keccak256 : Bytes → Hash) (begin endBlock : Int) (addresses : List Address)
    (topics : List (List Hash)) : Filter :=
  ⟨⟨none, some begin, some endBlock, addresses, topics⟩,
    createBloomFilters Keccak256 (filtersBz addresses topics)⟩

/-- checkMatches: one item of the group has all its bits in the bloom. -/
def checkMatches (bloom : Bloom) (filter : List BloomIV) : Bool :=
  filter.any fun bloomIV => Bloom.test bloom bloomIV.bits

/-- The loop of GetFilteredBlocks over the groups at one block: `false` where it continues the
    block loop without the block.  The group at index 0 is the address group when
    `filterAddresses` is set. -/
def matchesFilters (bloom : Bloom) (filters : List (List BloomIV)) (filterAddresses : Bool) : Bool :=
  go 0 filters
where
  go : Nat → List (List BloomIV) → Bool
    | _, [] => true
    | i, filter :: rest =>
      if filterAddresses && i == 0 then
        if !checkMatches bloom filter then false
        -- the filter doesn't have any topics
        else if filters.length == 1 then true
        else go (i + 1) rest
      else if filter.length > 0 && !checkMatches bloom filter then false
      else go (i + 1) rest

/-- The heights of GetFilteredBlocks' loop, `fromHeight` to `toHeight`. -/
def heights (fromHeight toHeight : Int) : List Int :=
  (List.range (toHeight + 1 - fromHeight).toNat).map fun k : Nat => fromHeight + (k : Int)

/-- GetFilteredBlocks: the heights whose bloom passes every group, failing at the first bloom
    that cannot be read.  (The backend context's cancellation is not modelled.) -/
def GetFilteredBlocks (BlockBloom : Int → Except String Bloom) (fromHeight toHeight : Int)
    (filters : List (List BloomIV)) (filterAddresses : Bool) : Except String (List Int) :=
  (heights fromHeight toHeight).foldlM (fun matchedBlocks height => do
      let bloom ← BlockBloom height
      return if matchesFilters bloom filters filterAddresses then matchedBlocks ++ [height]
        else matchedBlocks) []

theorem mem_heights {fromHeight toHeight h : Int} :
    h ∈ heights fromHeight toHeight ↔ fromHeight ≤ h ∧ h ≤ toHeight := by
  simp only [heights, List.mem_map]
  constructor
  · rintro ⟨k, hk, rfl⟩
    have hk' := List.mem_range.mp hk
    omega
  · intro hh
    exact ⟨(h - fromHeight).toNat, List.mem_range.mpr (by omega), by omega⟩

/-- A block passes when every group matches its bloom, whichever group is the address group. -/
theorem matchesFilters_of_forall {bloom : Bloom} {filters : List (List BloomIV)}
    (filterAddresses : Bool) (h : ∀ filter ∈ filters, checkMatches bloom filter = true) :
    matchesFilters bloom filters filterAddresses = true := by
  unfold matchesFilters
  -- the loop goes down the list with its index; every group it checks matches
  suffices hgo : ∀ (i : Nat) (rest : List (List BloomIV)), (∀ filter ∈ rest, checkMatches bloom filter = true) →
      matchesFilters.go bloom filters filterAddresses i rest = true from hgo 0 filters h
  intro i rest hrest
  induction rest generalizing i with
  | nil => rfl
  | cons filter rest ih =>
    have hfilter : checkMatches bloom filter = true := hrest filter List.mem_cons_self
    have hrest' := ih (i + 1) (fun f hf => hrest f (List.mem_cons_of_mem _ hf))
    simp only [matchesFilters.go, hfilter, Bool.not_true, Bool.false_eq_true, if_false,
      Bool.and_false, hrest', ite_self]

/-- The blocks found so far stay found. -/
theorem subset_foldlM_GetFilteredBlocks {BlockBloom : Int → Except String Bloom}
    {filters : List (List BloomIV)} {filterAddresses : Bool} {hs : List Int} {acc blocks : List Int}
    (h : hs.foldlM (fun matchedBlocks height => do
      let bloom ← BlockBloom height
      return if matchesFilters bloom filters filterAddresses then matchedBlocks ++ [height]
        else matchedBlocks) acc = .ok blocks) : acc ⊆ blocks := by
  induction hs generalizing acc with
  | nil =>
    cases h
    exact List.Subset.refl _
  | cons height hs ih =>
    rw [List.foldlM_cons] at h
    obtain ⟨acc', hstep, hrest⟩ := Except.bind_eq_ok h
    obtain ⟨bloom, -, hacc'⟩ := Except.bind_eq_ok hstep
    have hsub := ih hrest
    cases hacc'
    split at hsub
    · exact fun x hx => hsub (List.mem_append_left _ hx)
    · exact hsub

/-- Every height of the loop whose bloom passes is found. -/
theorem mem_foldlM_GetFilteredBlocks {BlockBloom : Int → Except String Bloom}
    {filters : List (List BloomIV)} {filterAddresses : Bool} {hs : List Int} {acc blocks : List Int}
    {height : Int} {bloom : Bloom} (hheight : height ∈ hs) (hbloom : BlockBloom height = .ok bloom)
    (hpass : matchesFilters bloom filters filterAddresses = true)
    (h : hs.foldlM (fun matchedBlocks height => do
      let bloom ← BlockBloom height
      return if matchesFilters bloom filters filterAddresses then matchedBlocks ++ [height]
        else matchedBlocks) acc = .ok blocks) : height ∈ blocks := by
  induction hs generalizing acc with
  | nil => cases hheight
  | cons h₀ hs ih =>
    rw [List.foldlM_cons] at h
    obtain ⟨acc', hstep, hrest⟩ := Except.bind_eq_ok h
    rcases List.mem_cons.mp hheight with rfl | hmem
    · -- the block is appended now, and stays
      rw [hbloom] at hstep
      simp only [Except.ok_bind, hpass, if_true] at hstep
      cases hstep
      exact subset_foldlM_GetFilteredBlocks hrest (List.mem_append_right _ List.mem_cons_self)
    · exact ih hmem hrest

/-- GetFilteredBlocks fails only at a bloom it cannot read. -/
theorem GetFilteredBlocks_ok {BlockBloom : Int → Except String Bloom} {fromHeight toHeight : Int}
    (filters : List (List BloomIV)) (filterAddresses : Bool)
    (h : ∀ height, fromHeight ≤ height → height ≤ toHeight → ∃ bloom, BlockBloom height = .ok bloom) :
    ∃ blocks, GetFilteredBlocks BlockBloom fromHeight toHeight filters filterAddresses = .ok blocks := by
  unfold GetFilteredBlocks
  -- the loop succeeds from any accumulator over heights whose blooms can be read
  have hloop : ∀ (hs : List Int) (acc : List Int),
      (∀ height ∈ hs, ∃ bloom, BlockBloom height = .ok bloom) →
      ∃ blocks, hs.foldlM (fun matchedBlocks height => do
        let bloom ← BlockBloom height
        return if matchesFilters bloom filters filterAddresses then matchedBlocks ++ [height]
          else matchedBlocks) acc = .ok blocks := by
    intro hs
    induction hs with
    | nil => exact fun acc _ => ⟨acc, rfl⟩
    | cons height hs ih =>
      intro acc hread
      obtain ⟨bloom, hbloom⟩ := hread height List.mem_cons_self
      rw [List.foldlM_cons, hbloom]
      exact ih _ (fun h' hh' => hread h' (List.mem_cons_of_mem _ hh'))
  exact hloop _ [] (fun height hh => h height (mem_heights.mp hh).1 (mem_heights.mp hh).2)

section Sound

variable {Keccak256 : Bytes → Hash}

/-- Every group of NewRangeFilter matches the bloom of a block with a matching log: the address
    group holds the log's address, and a topic position's group one of the log's topics. -/
theorem checkMatches_createBloomFilters {logs : List EthLog} {fromBlock toBlock : Option Int}
    {addresses : List Address} {topics : List (List Hash)} {log : EthLog}
    (hlog : log ∈ FilterLogs logs fromBlock toBlock addresses topics) :
    ∀ filter ∈ createBloomFilters Keccak256 (filtersBz addresses topics),
      checkMatches (LogsBloom Keccak256 logs) filter = true := by
  obtain ⟨hmem, haddr, htopics⟩ := of_mem_FilterLogs hlog
  -- a group holding the bits of one of the log's items matches
  have hitem : ∀ (group : List Bytes) (d : Bytes), d ∈ group → d ∈ logItems log →
      checkMatches (LogsBloom Keccak256 logs) (group.map (calcBloomIVs Keccak256)) = true := by
    intro group d hd hdlog
    exact List.any_eq_true.mpr ⟨calcBloomIVs Keccak256 d, List.mem_map_of_mem hd,
      BloomLookup_LogsBloom Keccak256 hmem hdlog⟩
  intro filter hfilter
  simp only [createBloomFilters, List.mem_filterMap] at hfilter
  obtain ⟨group, hgroup, hsome⟩ := hfilter
  split at hsome
  · cases hsome
  rename_i hne
  cases hsome
  have hne' : group ≠ [] := fun h => hne (by simp [h])
  simp only [filtersBz, List.mem_append, List.mem_map] at hgroup
  rcases hgroup with haddrs | ⟨sub, hsub, rfl⟩
  · -- the address group
    split at haddrs
    · rename_i hpos
      obtain rfl := List.mem_singleton.mp haddrs
      have hne_addr : addresses ≠ [] := List.ne_nil_of_length_pos hpos
      exact hitem _ _ (List.mem_map_of_mem (haddr hne_addr)) List.mem_cons_self
    · cases haddrs
  · -- the group of a topic position, not a wildcard since it is not empty
    have hsub_ne : sub ≠ [] := fun h => hne' (by simp [h])
    obtain ⟨t, ht, htlog⟩ := htopics sub hsub hsub_ne
    exact hitem _ _ (List.mem_map_of_mem ht) (List.mem_cons_of_mem _ (List.mem_map_of_mem htlog))

/-- **The range filter never drops a matching block**: a height in the range whose bloom is its
    logs' bloom, with a log FilterLogs keeps under the criteria, is among the blocks
    GetFilteredBlocks returns for the groups of NewRangeFilter. -/
theorem GetFilteredBlocks_mem {BlockBloom : Int → Except String Bloom}
    {begin endBlock fromHeight toHeight height : Int} {addresses : List Address}
    {topics : List (List Hash)} {logs : List EthLog} {log : EthLog}
    {fromBlock toBlock : Option Int} {blocks : List Int}
    (hrange : fromHeight ≤ height ∧ height ≤ toHeight)
    (hbloom : BlockBloom height = .ok (LogsBloom Keccak256 logs))
    (hlog : log ∈ FilterLogs logs fromBlock toBlock addresses topics)
    (h : GetFilteredBlocks BlockBloom fromHeight toHeight
      (NewRangeFilter Keccak256 begin endBlock addresses topics).bloomFilters
      (addresses.length > 0) = .ok blocks) :
    height ∈ blocks := by
  have hall : ∀ filter ∈ (NewRangeFilter Keccak256 begin endBlock addresses topics).bloomFilters,
      checkMatches (LogsBloom Keccak256 logs) filter = true :=
    checkMatches_createBloomFilters hlog
  have hpass := matchesFilters_of_forall (addresses.length > 0) hall
  exact mem_foldlM_GetFilteredBlocks (mem_heights.mpr hrange) hbloom hpass h

/-- Heights 4 to 6, each with the bloom of one log at height 5, under criteria with the log's
    address and its second topic.  The hash is Keccak-256 at the three items hashed: the
    address and the two topics. -/
theorem GetFilteredBlocks_mem_one_log :
    let K : Bytes → Hash := fun d =>
      if d = Address.Bytes 0x1234 then
        0xe7490fade3a8e31113ecb6c0d2635e28a6f5ca8359a57afe914827f41ddf0848
      else if d = Hash.Bytes 3 then
        0xc2575a0e9e593c00f959f8c92f12db2869c3395a3b0502d05e2516446f71f85b
      else if d = Hash.Bytes 7 then
        0xa66cc928b5edb82af9bd49922954155ab7b0942694bea4ce44661d9a8736c688
      else 0
    let log : EthLog := ⟨0x1234, .mk [3, 7], [], 5, 0, 0, 0, 0, false⟩
    let BlockBloom : Int → Except String Bloom := fun _ => .ok (LogsBloom K [log])
    (4 ≤ (5 : Int) ∧ (5 : Int) ≤ 6) ∧ log ∈ FilterLogs [log] none none [0x1234] [[], [7]] ∧
      GetFilteredBlocks BlockBloom 4 6 (NewRangeFilter K 4 6 [0x1234] [[], [7]]).bloomFilters
        ([(0x1234 : Address)].length > 0) = .ok [4, 5, 6] ∧
      (5 : Int) ∈ [4, 5, 6] := by
  intro K log BlockBloom
  have hrange : 4 ≤ (5 : Int) ∧ (5 : Int) ≤ 6 := by decide
  have hlog : log ∈ FilterLogs [log] none none [0x1234] [[], [7]] := by decide
  have hblocks : GetFilteredBlocks BlockBloom 4 6
      (NewRangeFilter K 4 6 [0x1234] [[], [7]]).bloomFilters ([(0x1234 : Address)].length > 0) =
        .ok [4, 5, 6] := by
    decide
  exact ⟨hrange, hlog, hblocks, GetFilteredBlocks_mem hrange rfl hlog hblocks⟩

end Sound

end AnconEvm.Filters
