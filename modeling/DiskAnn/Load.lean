import DiskAnn.Search.Outcome

/-
  DiskANN index loading: the disk-index header `load_from_separate_paths` reads
  (`pq_flash_index.cpp`, lines 1262-1361), and in partition mode `read_partition_info`
  (lines 915-948), `load_graph_index` (lines 950-1007) and the branch that calls them
  (lines 1450-1457).

  Model. The header is the sequence of 64-bit words after its `nr, nc` pair: `disk_nnodes`,
  `disk_ndims`, `medoid_id_on_file`, `_max_node_len`, `_nnodes_per_sector`,
  `_num_frozen_points`, `file_frozen_id`, `_reorder_data_exists`, and with reorder data
  `_reorder_data_start_sector`, `_ndims_reorder_vecs` and `_nvecs_per_sector`. A read past
  the last word fails the stream and leaves the variable unspecified (`truncated`). A point
  count that differs from the compressed data's makes `load` return `-1`
  (`pointCountMismatch`); a degree above `MAX_GRAPH_DEGREE`, or reorder data without disk PQ,
  throws the source's message. `_max_degree` is computed in `uint64_t`. In partition mode the
  header is not read: the fields keep their initial values and `_max_node_len` comes from the
  graph file. `MAX_GRAPH_DEGREE` (from `defaults`, not among the sources) is a parameter.

  Proved: what an accepted header sets (`readIndexMeta_spec`), that every well-formed header
  written in the format's layout is read back (`readIndexMeta_encodeIndexMeta`), and that
  partition mode keeps `_nnodes_per_sector = 0` and no frozen point (`loadIndexMeta_partition`).
  `load` announces that a declared frozen point is not output at search time, but the search
  never reads `_frozen_location` (`cachedBeamSearch_outputs_frozen_point`).

  Partition mode. `read_partition_info` and `load_graph_index` return `1` when their file
  does not open, and the branch drops both codes. `load_graph_index` sizes `meta_info` by the
  file's `int meta_n` (a negative one throws), keeps the zeroes a short file leaves, reads
  `meta_info[8]` (undefined below nine entries), and sets `_graph_node_len`, `_max_degree`,
  `_disk_bytes_per_point` and `_max_node_len` in `uint64_t` with no check. The byte decoding
  of `partition.bin` is not modelled: the file is given as the values its reads produce.

  Proved: the default path's wrap-then-compare is sound when `_disk_bytes_per_point` leaves
  room below `2^64` (`readIndexMeta_degree_bound`); partition mode returns `0` for missing
  files and for every graph header with `meta_n ≥ 9`, wrapped values included
  (`loadPartitionBranch_unchecked`).
-/

namespace DiskAnn

/-- The members the header sets. -/
structure IndexMeta where
  medoidIdOnFile : Nat
  maxNodeLen : Nat
  nnodesPerSector : Nat
  maxDegree : Nat
  numFrozenPoints : Nat
  frozenLocation : Nat
  reorderDataExists : Bool
  reorderDataStartSector : Nat
  ndimsReorderVecs : Nat
  nvecsPerSector : Nat
deriving DecidableEq, Repr

/-- How reading the header can fail. -/
inductive LoadError where
  | pointCountMismatch
  | thrown (msg : String)
  | truncated
deriving DecidableEq, Repr

/-- `uint64_t` subtraction. -/
def u64Sub (a b : Nat) : Nat := (a + 2 ^ 64 - b) % 2 ^ 64

/-- `_max_degree = ((_max_node_len - _disk_bytes_per_point) / sizeof(uint32_t)) - 1`. -/
def maxDegreeOf (maxNodeLen diskBytesPerPoint : Nat) : Nat :=
  u64Sub (u64Sub maxNodeLen diskBytesPerPoint / 4) 1

/-- The header read of `load_from_separate_paths`, in the order of its reads and checks.
    `READ_U64` into the one-byte `_reorder_data_exists` stores the word's low byte there (its
    other seven bytes land in the padding and `_reoreder_data_offset` after it, which this
    model does not track). -/
def readIndexMeta (numPoints diskBytesPerPoint maxGraphDegree : Nat) (useDiskIndexPq : Bool) :
    List Nat → Except LoadError IndexMeta
  | diskNnodes :: _ :: ws =>
    if diskNnodes ≠ numPoints then throw .pointCountMismatch
    else match ws with
    | medoidIdOnFile :: maxNodeLen :: nnodesPerSector :: ws =>
      let maxDegree := maxDegreeOf maxNodeLen diskBytesPerPoint
      if maxGraphDegree < maxDegree then
        throw (.thrown ("Error loading index. Ensure that max graph degree (R) does not exceed " ++
          toString maxGraphDegree ++ "\n"))
      else match ws with
      | numFrozenPoints :: fileFrozenId :: reorderWord :: ws =>
        let m : IndexMeta := ⟨medoidIdOnFile, maxNodeLen, nnodesPerSector, maxDegree,
          numFrozenPoints, if numFrozenPoints = 1 then fileFrozenId else 0, reorderWord % 256 != 0,
          0, 0, 0⟩
        if m.reorderDataExists then
          if !useDiskIndexPq then
            throw (.thrown "Reordering is designed for used with disk PQ compression option")
          else match ws with
          | start :: ndims :: nvecs :: _ =>
            pure { m with reorderDataStartSector := start, ndimsReorderVecs := ndims,
                          nvecsPerSector := nvecs }
          | _ => throw .truncated
        else pure m
      | _ => throw .truncated
    | _ => throw .truncated
  | _ => throw .truncated

/-- The members before the header is read. -/
def IndexMeta.initial : IndexMeta := ⟨0, 0, 0, 0, 0, 0, false, 0, 0, 0⟩

/-- The header part of loading: partition mode skips the header, and `load_graph_index`
    later sets `_max_node_len` and `_max_degree` from the graph file. -/
def loadIndexMeta (usePartition : Bool) (graphMaxNodeLen graphMaxDegree : Nat)
    (numPoints diskBytesPerPoint maxGraphDegree : Nat) (useDiskIndexPq : Bool) (ws : List Nat) :
    Except LoadError IndexMeta :=
  if usePartition then
    pure { IndexMeta.initial with maxNodeLen := graphMaxNodeLen, maxDegree := graphMaxDegree }
  else readIndexMeta numPoints diskBytesPerPoint maxGraphDegree useDiskIndexPq ws

/-! ## Accepted headers -/

/-- (PROVED) An accepted header counts as many points as the compressed data, has a degree
    within `MAX_GRAPH_DEGREE`, has reorder data only with disk PQ, and sets the frozen location
    from the file exactly when it declares one frozen point. -/
theorem readIndexMeta_spec {numPoints dbpp mgd : Nat} {pq : Bool} {ws : List Nat}
    {m : IndexMeta} (e : readIndexMeta numPoints dbpp mgd pq ws = .ok m) :
    ws.head? = some numPoints ∧ m.maxDegree = maxDegreeOf m.maxNodeLen dbpp ∧
      m.maxDegree ≤ mgd ∧ (m.reorderDataExists = true → pq = true) ∧
      m.frozenLocation = (if m.numFrozenPoints = 1 then ws.getD 6 0 else 0) := by
  unfold readIndexMeta at e
  split at e
  · split at e
    · cases e
    · rename_i hn
      split at e
      · dsimp only at e
        split at e
        · cases e
        · rename_i hdeg
          split at e
          · split at e
            · split at e
              · cases e
              · rename_i hr hpq
                split at e
                · cases e
                  exact ⟨by simpa using hn, rfl, Nat.le_of_not_gt hdeg,
                    fun _ => by simpa using hpq, rfl⟩
                · cases e
            · rename_i hr
              cases e
              exact ⟨by simpa using hn, rfl, Nat.le_of_not_gt hdeg, fun h => absurd h hr, rfl⟩
          · cases e
      · cases e
  · cases e

/-- `load` announces "Will not output it at search time" for a declared frozen point, but
    the search never reads `_frozen_location`: an index whose header declares its medoid `0`
    the frozen point answers a query with `0`. -/
theorem cachedBeamSearch_outputs_frozen_point :
    ((readIndexMeta 3 4 512 false [3, 1, 0, 16, 256, 1, 0, 0]).toOption.map
        fun m => (m.numFrozenPoints, m.frozenLocation)) = some (1, 0) ∧
      ((cachedBeamSearch { graphIndex forkGraph with maxNodeLen := 16, nnodesPerSector := 256 }
          (graphParams 100 2 false false .zero) 5).toOption.map fun r => r.out.map (·.1)) =
        some (some [0]) :=
  ⟨by decide, by decide⟩

/-- (PROVED) Partition mode does not read the header: no frozen point is declared and
    `_nnodes_per_sector` stays `0`, so nodes span `ceil(_max_node_len / SECTOR_LEN)` sectors. -/
theorem loadIndexMeta_partition (graphMaxNodeLen graphMaxDegree numPoints dbpp mgd : Nat)
    (pq : Bool) (ws : List Nat) :
    loadIndexMeta true graphMaxNodeLen graphMaxDegree numPoints dbpp mgd pq ws =
      .ok { IndexMeta.initial with maxNodeLen := graphMaxNodeLen, maxDegree := graphMaxDegree } ∧
      numSectorsPerNode IndexMeta.initial.nnodesPerSector graphMaxNodeLen =
        divRoundUp graphMaxNodeLen sectorLen :=
  ⟨rfl, rfl⟩

/-! ## The layout the format writes -/

/-- Modelled from the spec (the writer is not among the sources): the header words in the
    order of the format's metadata sector, reorder fields only with reorder data. -/
def encodeIndexMeta (numPoints diskNdims : Nat) (m : IndexMeta) : List Nat :=
  [numPoints, diskNdims, m.medoidIdOnFile, m.maxNodeLen, m.nnodesPerSector, m.numFrozenPoints,
    m.frozenLocation, if m.reorderDataExists then 1 else 0] ++
  (if m.reorderDataExists then [m.reorderDataStartSector, m.ndimsReorderVecs, m.nvecsPerSector]
   else [])

/-- A header the loader can accept and read back unchanged. -/
structure IndexMeta.WellFormed (m : IndexMeta) (diskBytesPerPoint maxGraphDegree : Nat)
    (useDiskIndexPq : Bool) : Prop where
  maxDegree_eq : m.maxDegree = maxDegreeOf m.maxNodeLen diskBytesPerPoint
  maxDegree_le : m.maxDegree ≤ maxGraphDegree
  frozen_none : m.numFrozenPoints ≠ 1 → m.frozenLocation = 0
  reorder_pq : m.reorderDataExists = true → useDiskIndexPq = true
  no_reorder : m.reorderDataExists = false →
    m.reorderDataStartSector = 0 ∧ m.ndimsReorderVecs = 0 ∧ m.nvecsPerSector = 0

/-- (PROVED) Every well-formed header written in the format's layout is read back. -/
theorem readIndexMeta_encodeIndexMeta {numPoints diskNdims dbpp mgd : Nat} {pq : Bool}
    {m : IndexMeta} (h : m.WellFormed dbpp mgd pq) :
    readIndexMeta numPoints dbpp mgd pq (encodeIndexMeta numPoints diskNdims m) = .ok m := by
  obtain ⟨medoid, mnl, nnps, deg, nfp, loc, reorder, start, ndims, nvecs⟩ := m
  obtain ⟨hdeg, hle, hfz, hpq, hno⟩ := h
  simp only at hdeg hle hfz hpq hno
  subst deg
  have hloc : (if nfp = 1 then loc else 0) = loc := by
    split_ifs with h1
    · rfl
    · exact (hfz h1).symm
  cases reorder with
  | false =>
    obtain ⟨rfl, rfl, rfl⟩ := hno rfl
    simp [readIndexMeta, encodeIndexMeta, Nat.not_lt.2 hle, hloc, pure, Except.pure]
  | true =>
    simp [readIndexMeta, encodeIndexMeta, Nat.not_lt.2 hle, hloc, hpq rfl, pure, Except.pure]

/-! ## The degree check of the default path -/

/-- The wrap-then-compare of `_max_degree`: a degree within `MAX_GRAPH_DEGREE` leaves room for
    the coordinates and `_max_degree + 1` ids, when `_disk_bytes_per_point` is far enough below
    `2^64` that the wrapped difference cannot pass the check. -/
theorem maxDegreeOf_le {maxNodeLen dbpp mgd : Nat} (hmnl : maxNodeLen < 2 ^ 64)
    (hroom : dbpp + 4 * (mgd + 2) ≤ 2 ^ 64) (hle : maxDegreeOf maxNodeLen dbpp ≤ mgd) :
    dbpp + 4 * (maxDegreeOf maxNodeLen dbpp + 1) ≤ maxNodeLen := by
  unfold maxDegreeOf u64Sub at *
  omega

/-- (PROVED) In the default path, an accepted header keeps `_max_degree` within
    `MAX_GRAPH_DEGREE`, and `_max_node_len` holds the coordinates and `_max_degree + 1` ids
    with no wrap, for every `_disk_bytes_per_point` at least `4 (MAX_GRAPH_DEGREE + 2)` below
    `2^64`. -/
theorem readIndexMeta_degree_bound {numPoints dbpp mgd : Nat} {pq : Bool} {ws : List Nat}
    {m : IndexMeta} (e : readIndexMeta numPoints dbpp mgd pq ws = .ok m)
    (hmnl : m.maxNodeLen < 2 ^ 64) (hroom : dbpp + 4 * (mgd + 2) ≤ 2 ^ 64) :
    m.maxDegree ≤ mgd ∧ dbpp + 4 * (m.maxDegree + 1) ≤ m.maxNodeLen := by
  obtain ⟨-, hdeg, hle, -, -⟩ := readIndexMeta_spec e
  rw [hdeg] at hle ⊢
  exact ⟨hle, maxDegreeOf_le hmnl hroom hle⟩

/-! ## Partition mode -/

/-- What `read_partition_info` sets: `_num_partitions`, `_graph_partitions` and
    `_id2partition`. -/
structure PartitionInfo where
  numPartitions : Nat
  graphPartitions : List (List Nat)
  id2partition : List Nat
deriving DecidableEq, Repr

/-- `read_partition_info`: `1` and nothing read when `partition.bin` does not open. -/
def readPartitionInfo (cur : PartitionInfo) : Option PartitionInfo → Nat × PartitionInfo
  | none => (1, cur)
  | some f => (0, f)

/-- The start of `disk_graph.index`: `int meta_n`, then the `uint64_t` words of `meta_info`
    (`meta_dim` is only printed). -/
structure GraphIndexHeader where
  metaN : Int
  words : List Nat
  words_lt : ∀ w ∈ words, w < 2 ^ 64

/-- The members `load_graph_index` sets. -/
structure GraphMembers where
  graphNodeLen : Nat
  maxDegree : Nat
  diskBytesPerPoint : Nat
  maxNodeLen : Nat
deriving DecidableEq, Repr

/-- How `load_graph_index` can fail. -/
inductive GraphLoadFault where
  | thrown (msg : String)
  | undefined (what : String)
deriving DecidableEq, Repr

/-- `meta_info`: `meta_n` zeroes, overwritten by as many words as the file holds. -/
def metaInfoOf (f : GraphIndexHeader) : List Nat :=
  (List.range f.metaN.toNat).map fun i => f.words.getD i 0

/-- What `load_graph_index` sets from `meta_info`: `dim_size = dim_in_meta * sizeof(float)`,
    `_graph_node_len = max_node_len - dim_size`, `_max_degree = _graph_node_len / 4 - 1`. -/
def graphMembersOf (metaInfo : List Nat) : GraphMembers :=
  let dimSize := u64 (metaInfo.getD 1 0 * 4)
  let graphNodeLen := u64Sub (metaInfo.getD 3 0) dimSize
  ⟨graphNodeLen, u64Sub (graphNodeLen / 4) 1, dimSize, metaInfo.getD 3 0⟩

/-- `load_graph_index`: `1` and the members unchanged when the file does not open. -/
def loadGraphIndex (m : GraphMembers) :
    Option GraphIndexHeader → Except GraphLoadFault (Nat × GraphMembers)
  | none => pure (1, m)
  | some f =>
    if f.metaN < 0 then throw (.thrown "cannot create std::vector larger than max_size()")
    else if f.metaN < 9 then throw (.undefined "meta_info read past its end")
    else pure (0, graphMembersOf (metaInfoOf f))

/-- The partition branch of `load_from_separate_paths`: the return codes of
    `read_partition_info` and `load_graph_index` are dropped and `load` returns `0`. -/
def loadPartitionBranch (p : PartitionInfo) (m : GraphMembers) (partitionFile : Option PartitionInfo)
    (graphFile : Option GraphIndexHeader) : Except GraphLoadFault (Int × PartitionInfo × GraphMembers) := do
  let (_, p) := readPartitionInfo p partitionFile
  let (_, m) ← loadGraphIndex m graphFile
  pure (0, p, m)

theorem getD_metaInfoOf {f : GraphIndexHeader} {i : Nat} (h : (i : Int) < f.metaN) :
    (metaInfoOf f).getD i 0 = f.words.getD i 0 := by
  have hi : i < f.metaN.toNat := by omega
  simp [metaInfoOf, hi]

/-- Past its ninth entry `meta_info` is not read: the members come from the file's words. -/
theorem graphMembersOf_metaInfoOf {f : GraphIndexHeader} (h : 9 ≤ f.metaN) :
    graphMembersOf (metaInfoOf f) = graphMembersOf f.words := by
  simp only [graphMembersOf, getD_metaInfoOf (show ((1 : Nat) : Int) < f.metaN by omega),
    getD_metaInfoOf (show ((3 : Nat) : Int) < f.metaN by omega)]

/-- A `max_node_len` below `4 (dim_in_meta + 1)` wraps: the members do not hold the
    coordinates and `_max_degree + 1` ids. -/
theorem graphMembersOf_short {ws : List Nat}
    (hshort : ws.getD 3 0 < 4 * (ws.getD 1 0 + 1)) (hdim : ws.getD 1 0 < 2 ^ 62) :
    (graphMembersOf ws).maxNodeLen <
      (graphMembersOf ws).diskBytesPerPoint + 4 * ((graphMembersOf ws).maxDegree + 1) := by
  simp only [graphMembersOf, u64, u64Sub]
  omega

/-- (PROVED) In partition mode `load` returns `0` whatever `read_partition_info` and
    `load_graph_index` return, and checks no degree: for every partition file, a graph file
    that does not open leaves the members as they were, and every graph header with
    `meta_n ≥ 9` is taken as it is, with `uint64_t` wrap, so that one whose `max_node_len`
    is below `4 (dim_in_meta + 1)` leaves `_max_node_len` too short for the coordinates and
    `_max_degree + 1` ids. -/
theorem loadPartitionBranch_unchecked (p : PartitionInfo) (m : GraphMembers)
    (part : Option PartitionInfo) :
    ((readPartitionInfo p part).1 = 1 ↔ part = none) ∧ loadGraphIndex m none = .ok (1, m) ∧
      loadPartitionBranch p m part none = .ok (0, (readPartitionInfo p part).2, m) ∧
      ∀ f : GraphIndexHeader, 9 ≤ f.metaN →
        loadPartitionBranch p m part (some f) =
            .ok (0, (readPartitionInfo p part).2, graphMembersOf f.words) ∧
          (f.words.getD 3 0 < 4 * (f.words.getD 1 0 + 1) → f.words.getD 1 0 < 2 ^ 62 →
            (graphMembersOf f.words).maxNodeLen < (graphMembersOf f.words).diskBytesPerPoint +
              4 * ((graphMembersOf f.words).maxDegree + 1)) := by
  refine ⟨by cases part <;> simp [readPartitionInfo], rfl, rfl, fun f hn => ⟨?_, graphMembersOf_short⟩⟩
  simp only [loadPartitionBranch, loadGraphIndex, if_neg (show ¬f.metaN < 0 by omega),
    if_neg (show ¬f.metaN < 9 by omega), graphMembersOf_metaInfoOf hn]
  rfl

/-- A graph header with `max_node_len = 0` and `dim_in_meta = 1`. -/
def zeroLenGraphHeader : GraphIndexHeader :=
  ⟨9, [0, 1, 0, 0, 0, 0, 0, 0, 0], by decide⟩

theorem missingPartitionFile_load_returns_zero :
    ((readPartitionInfo ⟨0, [], []⟩ none).1 = 1 ↔ none = (none : Option PartitionInfo)) ∧
      loadGraphIndex ⟨0, 0, 4, 0⟩ none = .ok (1, ⟨0, 0, 4, 0⟩) ∧
      loadPartitionBranch ⟨0, [], []⟩ ⟨0, 0, 4, 0⟩ none none = .ok (0, ⟨0, [], []⟩, ⟨0, 0, 4, 0⟩) ∧
      loadPartitionBranch ⟨0, [], []⟩ ⟨0, 0, 4, 0⟩ none (some zeroLenGraphHeader) =
          .ok (0, ⟨0, [], []⟩, graphMembersOf zeroLenGraphHeader.words) ∧
        (graphMembersOf zeroLenGraphHeader.words).maxNodeLen <
          (graphMembersOf zeroLenGraphHeader.words).diskBytesPerPoint +
            4 * ((graphMembersOf zeroLenGraphHeader.words).maxDegree + 1) :=
  have ⟨hpart, hgraph, hnone, hsome⟩ := loadPartitionBranch_unchecked ⟨0, [], []⟩ ⟨0, 0, 4, 0⟩ none
  have ⟨e, hb⟩ := hsome zeroLenGraphHeader (by decide)
  ⟨hpart, hgraph, hnone, e, hb (by decide) (by decide)⟩

example : graphMembersOf zeroLenGraphHeader.words = ⟨2 ^ 64 - 4, 2 ^ 62 - 2, 4, 0⟩ := by decide

end DiskAnn
