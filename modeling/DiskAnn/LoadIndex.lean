import DiskAnn.Load
import DiskAnn.FilterTables
import DiskAnn.ReadNodes

/-
  DiskANN index loading as one call: `load_from_separate_paths` (`pq_flash_index.cpp`, lines
  1016-1460), from the PQ metadata to the partition branch.

  Model. Every file is the values its reads produce (`none`: it does not exist); the PQ
  tables themselves, the thread data and `_max_base_norm.bin` are not modelled, except the disk
  PQ table's `inflate_vector`, a parameter `inflate`. The steps run in
  the code's order over the pieces of `DiskAnn.Load`, `DiskAnn.FilterTables` and
  `DiskAnn.ReadNodes`: the PQ centroid count (not 256: `return -1`), the label and filter
  tables, `MAX_PQ_CHUNKS`, the disk PQ pivots (which set `_disk_bytes_per_point` before the
  header computes `_max_degree` from it), the header outside partition mode, the medoids and
  centroids, then the partition branch. `MAX_PQ_CHUNKS`, `MAX_GRAPH_DEGREE`, `sizeof(T)` and
  `ROUND_UP` come from outside the sources and are parameters or defined here. Partition mode
  skips the header, so `medoid_id_on_file`, a local, is never set there: without
  `_medoids.bin` the code reaches `assert(false)` and, with assertions off, reads it
  uninitialised (`undefined`).

  Proved: one lemma per stage (`loadHeader_eq_ok`, `loadMedoidsCentroids_eq_ok`) and what a
  successful load went through (`loadFromSeparatePaths_eq_ok`); from them:
  - every successful load leaves one centroid row per medoid, so the search's reads of
    `_centroid_data` stay inside it (`loadFromSeparatePaths_centroids`);
  - outside partition mode a successful load read a header whose point count is the compressed
    data's, and set `_max_degree` within `MAX_GRAPH_DEGREE` from the disk PQ chunk count when
    `_pq_pivots.bin` exists and from `_data_dim * sizeof(T)` otherwise
    (`loadFromSeparatePaths_default`);
  - conversely, the files the format writes load, with their header, medoids and centroids,
    the latter inflated through the disk PQ table when there is one
    (`loadFromSeparatePaths_encodeIndexMeta`).
-/

namespace DiskAnn

variable {V : Type}

/-- How `load_from_separate_paths` ends without loading: `return -1`, an exception, a failed
    stream that leaves members unspecified, `exit(-1)`, or undefined behaviour. -/
inductive LoadFault where
  | returned (code : Int)
  | thrown (msg : String)
  | truncated
  | exit (msg : String)
  | undefined (what : String)
deriving DecidableEq, Repr

/-- A header fault as a load fault: a point-count mismatch is `return -1`. -/
def LoadFault.ofLoadError : LoadError → LoadFault
  | .pointCountMismatch => .returned (-1)
  | .thrown msg => .thrown msg
  | .truncated => .truncated

/-- A filter-table fault as a load fault. -/
def LoadFault.ofTableFault : TableFault → LoadFault
  | .thrown msg => .thrown msg
  | .undefined what => .undefined what
  | .exit msg => .exit msg

/-- A graph-file fault as a load fault. -/
def LoadFault.ofGraphLoadFault : GraphLoadFault → LoadFault
  | .thrown msg => .thrown msg
  | .undefined what => .undefined what

/-- `ROUND_UP(X, Y)`, a macro from outside the sources. -/
def roundUp (x y : Nat) : Nat := (x / y + if x % y ≠ 0 then 1 else 0) * y

/-- A `.bin` file as `load_bin` reads it: `npts` rows of `dim` values, row-major. -/
structure BinFile (α : Type) where
  npts : Nat
  dim : Nat
  data : List α
  data_length : data.length = npts * dim

/-- A `.bin` file as `load_aligned_bin` reads it: one row per point, `dim` wide on file and
    `ROUND_UP(dim, 8)` wide in memory. -/
structure AlignedBinFile (V : Type) where
  dim : Nat
  rows : List V

/-- The files `load_from_separate_paths` reads. -/
structure IndexFiles (V : Type) where
  /-- `get_bin_metadata` of the PQ pivots: the number of centroids and the dimension. -/
  pqTableMeta : Nat × Nat
  /-- `load_bin` of the compressed vectors: the number of points and of chunks. -/
  compressedMeta : Nat × Nat
  labels : Option (List Char)
  filterFiles : FilterFiles
  /-- `_pq_pivots.bin` of the disk index: the chunk count its table infers. -/
  diskPqChunks : Option Nat
  /-- The disk index's metadata words; `none` when the file does not open. -/
  header : Option (List Nat)
  medoids : Option (BinFile Nat)
  centroids : Option (AlignedBinFile V)
  partition : Option PartitionInfo
  graph : Option GraphIndexHeader

/-- The members a load sets. -/
structure LoadedIndex (V : Type) where
  dataDim : Nat
  alignedDim : Nat
  numPoints : Nat
  nChunks : Nat
  labels : Option (LabelTables × Nat)
  filters : FilterTables
  useDiskIndexPq : Bool
  meta : IndexMeta
  medoids : List Nat
  centroids : List (Option V)
  partition : PartitionInfo
  graph : GraphMembers

/-- The medoids and centroids (lines 1364-1428). `fromMedoids` is
    `use_medoids_data_as_centroids`; `medoidIdOnFile` is `none` where the header was not read. -/
def loadMedoidsCentroids (alignedDim : Nat) (medoidIdOnFile : Option Nat)
    (fromMedoids : List Nat → Except String (List (Option V))) :
    Option (BinFile Nat) → Option (AlignedBinFile V) → Except LoadFault (List Nat × List (Option V))
  | some mf, centroidsFile =>
    if mf.dim ≠ 1 then
      throw (.thrown "Error loading medoids file. Expected bin format of m times 1 vector of uint32_t.\n")
    else match centroidsFile with
      | none => do
        let c ← (fromMedoids mf.data).mapError .thrown
        pure (mf.data, c)
      | some cf =>
        if roundUp cf.dim 8 ≠ alignedDim ∨ cf.rows.length ≠ mf.npts then
          throw (.thrown ("Error loading centroids data file. Expected bin format of m times " ++
            "data_dim vector of float, where m is number of medoids in medoids file."))
        else pure (mf.data, cf.rows.map some)
  | none, _ =>
    match medoidIdOnFile with
    | none => throw (.undefined "medoid_id_on_file read uninitialised")
    | some id => do
      let c ← (fromMedoids [u32 id]).mapError .thrown
      pure ([u32 id], c)

/-- The header part (lines 1262-1361): skipped in partition mode, where `medoid_id_on_file`
    stays unset; `return -1` when the file does not open. -/
def loadHeader (usePartition : Bool) (numPoints diskBytesPerPoint maxGraphDegree : Nat)
    (useDiskIndexPq : Bool) (header : Option (List Nat)) : Except LoadFault (IndexMeta × Option Nat) :=
  if usePartition then pure (IndexMeta.initial, none)
  else match header with
    | none => throw (.returned (-1))
    | some ws =>
      ((readIndexMeta numPoints diskBytesPerPoint maxGraphDegree useDiskIndexPq ws).mapError
        .ofLoadError).map fun m => (m, some m.medoidIdOnFile)

/-- The partition branch (lines 1450-1457), from the members the header left. -/
def loadPartitionMembers (usePartition : Bool) (graph : GraphMembers)
    (partitionFile : Option PartitionInfo) (graphFile : Option GraphIndexHeader) :
    Except LoadFault (PartitionInfo × GraphMembers) :=
  if usePartition then
    ((loadPartitionBranch ⟨0, [], []⟩ graph partitionFile graphFile).mapError .ofGraphLoadFault).map
      fun r => (r.2.1, r.2.2)
  else pure (⟨0, [], []⟩, graph)

/-- `load_from_separate_paths`, on success the members it sets (`return 0`). `disk` and `t` are
    what `read_nodes` finds on disk for `use_medoids_data_as_centroids`, and `inflate` is the
    disk PQ table's `inflate_vector`. -/
def loadFromSeparatePaths (usePartition : Bool) (labelBits sizeofT maxPqChunks maxGraphDegree : Nat)
    (inflate : V → V) (disk : DiskRecords V) (t : PartitionTables) (f : IndexFiles V) :
    Except LoadFault (LoadedIndex V) :=
  let pqFileDim := f.pqTableMeta.2
  if f.pqTableMeta.1 ≠ 256 then throw (.returned (-1)) else
  (loadFilters labelBits f.labels f.filterFiles).mapError .ofTableFault >>= fun lf =>
  if maxPqChunks < f.compressedMeta.2 then
    throw (.thrown ("Error loading index. Ensure that max PQ bytes for in-memory PQ data does " ++
      "not exceed " ++ toString maxPqChunks ++ "\n"))
  else
  let useDiskIndexPq := f.diskPqChunks.isSome
  let diskBytesPerPoint := f.diskPqChunks.getD (pqFileDim * sizeofT)
  loadHeader usePartition f.compressedMeta.1 diskBytesPerPoint maxGraphDegree useDiskIndexPq
    f.header >>= fun hm =>
  loadMedoidsCentroids (roundUp pqFileDim 8) hm.2
    (useMedoidsDataAsCentroids usePartition useDiskIndexPq inflate disk t)
    f.medoids f.centroids >>= fun mc =>
  loadPartitionMembers usePartition ⟨0, hm.1.maxDegree, diskBytesPerPoint, hm.1.maxNodeLen⟩
    f.partition f.graph >>= fun pg =>
  pure ⟨pqFileDim, roundUp pqFileDim 8, f.compressedMeta.1, f.compressedMeta.2, lf.1, lf.2,
    useDiskIndexPq, hm.1, mc.1, mc.2, pg.1, pg.2⟩

/-! ## Each stage -/

theorem mapError_eq_ok {ε ε' α : Type} {x : Except ε α} {g : ε → ε'} {a : α} :
    x.mapError g = .ok a ↔ x = .ok a := by
  cases x <;> simp [Except.mapError]

theorem except_map_eq_ok {ε α β : Type} {x : Except ε α} {g : α → β} {b : β} :
    x.map g = .ok b ↔ ∃ a, x = .ok a ∧ g a = b := by
  cases x <;> simp [Except.map]

/-- `use_medoids_data_as_centroids` gives one centroid row per medoid. -/
theorem useMedoidsDataAsCentroids_length {up pq : Bool} {inflate : V → V} {disk : DiskRecords V}
    {t : PartitionTables} {ms : List Nat} {c : List (Option V)}
    (e : useMedoidsDataAsCentroids up pq inflate disk t ms = .ok c) :
    c.length = ms.length := by
  simp only [useMedoidsDataAsCentroids] at e
  split at e
  · cases e
    simp only [List.length_map, readNodes]
    split <;> simp
  · cases e

/-- A successful header stage: partition mode leaves the initial members and no
    `medoid_id_on_file`; otherwise the header file opened and was read. -/
theorem loadHeader_eq_ok {up : Bool} {np dbpp mgd : Nat} {pq : Bool} {header : Option (List Nat)}
    {m : IndexMeta} {mid : Option Nat} (e : loadHeader up np dbpp mgd pq header = .ok (m, mid)) :
    (up = true → m = IndexMeta.initial ∧ mid = none) ∧
      (up = false → ∃ ws, header = some ws ∧ readIndexMeta np dbpp mgd pq ws = .ok m ∧
        mid = some m.medoidIdOnFile) := by
  unfold loadHeader at e
  cases up with
  | true => cases e; exact ⟨fun _ => ⟨rfl, rfl⟩, nofun⟩
  | false =>
    refine ⟨nofun, fun _ => ?_⟩
    obtain _ | ws := header
    · cases e
    · obtain ⟨m', hm', he⟩ := except_map_eq_ok.mp e
      cases he
      exact ⟨ws, rfl, mapError_eq_ok.mp hm', rfl⟩

/-- A successful medoids stage holds one centroid row per medoid, and without `_medoids.bin`
    it needed `medoid_id_on_file`. -/
theorem loadMedoidsCentroids_eq_ok {ad : Nat} {mid : Option Nat}
    {fm : List Nat → Except String (List (Option V))}
    (hfm : ∀ {ms c}, fm ms = .ok c → c.length = ms.length) {mf : Option (BinFile Nat)}
    {cf : Option (AlignedBinFile V)} {meds : List Nat} {cents : List (Option V)}
    (e : loadMedoidsCentroids ad mid fm mf cf = .ok (meds, cents)) :
    cents.length = meds.length ∧ (mf = none → ∃ id, mid = some id ∧ meds = [u32 id]) := by
  cases mf with
  | some mf =>
    refine ⟨?_, nofun⟩
    simp only [loadMedoidsCentroids] at e
    split at e
    · cases e
    · rename_i hdim
      split at e
      · obtain ⟨c, hc, he⟩ := except_bind_eq_ok.mp e
        cases he
        exact hfm (mapError_eq_ok.mp hc)
      · split at e
        · cases e
        · rename_i cf hcf
          cases e
          simp only [not_or, not_not] at hdim hcf
          simp [mf.data_length, hdim, hcf.2]
  | none =>
    cases mid with
    | none => cases e
    | some id =>
      obtain ⟨c, hc, he⟩ := except_bind_eq_ok.mp e
      cases he
      exact ⟨hfm (mapError_eq_ok.mp hc), fun _ => ⟨id, rfl, rfl⟩⟩

/-- What a successful load went through, stage by stage. -/
theorem loadFromSeparatePaths_eq_ok {up : Bool} {labelBits sizeofT maxPqChunks maxGraphDegree : Nat}
    {inflate : V → V} {disk : DiskRecords V} {t : PartitionTables} {f : IndexFiles V}
    {li : LoadedIndex V}
    (e : loadFromSeparatePaths up labelBits sizeofT maxPqChunks maxGraphDegree inflate disk t f =
      .ok li) :
    f.pqTableMeta.1 = 256 ∧ li.nChunks ≤ maxPqChunks ∧ li.dataDim = f.pqTableMeta.2 ∧
      li.alignedDim = roundUp li.dataDim 8 ∧ li.numPoints = f.compressedMeta.1 ∧
      li.useDiskIndexPq = f.diskPqChunks.isSome ∧
      ∃ mid, loadHeader up li.numPoints (f.diskPqChunks.getD (li.dataDim * sizeofT)) maxGraphDegree
          li.useDiskIndexPq f.header = .ok (li.meta, mid) ∧
        loadMedoidsCentroids li.alignedDim mid
          (useMedoidsDataAsCentroids up li.useDiskIndexPq inflate disk t) f.medoids
          f.centroids = .ok (li.medoids, li.centroids) := by
  unfold loadFromSeparatePaths at e
  split at e
  · cases e
  · rename_i hpq
    obtain ⟨lf, -, e⟩ := except_bind_eq_ok.mp e
    split at e
    · cases e
    · rename_i hch
      obtain ⟨hm, hhm, e⟩ := except_bind_eq_ok.mp e
      obtain ⟨mc, hmc, e⟩ := except_bind_eq_ok.mp e
      obtain ⟨pg, -, e⟩ := except_bind_eq_ok.mp e
      cases e
      exact ⟨not_not.mp hpq, Nat.le_of_not_gt hch, rfl, rfl, rfl, rfl, hm.2, hhm, hmc⟩

/-! ## Whole loads -/

/-- A small index: three points of dimension two, one PQ chunk, medoid `0`. -/
def smallIndexMeta : IndexMeta := ⟨0, 16, 256, 1, 0, 0, false, 0, 0, 0⟩

/-- The files of `smallIndexMeta`, with `_medoids.bin` when `medoids` is given. -/
def smallIndexFiles (medoids : Option (BinFile Nat)) : IndexFiles Nat :=
  ⟨(256, 2), (3, 1), none, ⟨none, none, none, none⟩, none, some (encodeIndexMeta 3 2 smallIndexMeta),
    medoids, none, none, none⟩

/-- Coordinates `i` and no neighbours. -/
def idRecords : DiskRecords Nat := ⟨id, fun _ => []⟩

/-- Partition tables with no partitions. -/
def noPartitionTables : PartitionTables := ⟨0, id, fun _ => [], 0, fun _ _ => []⟩

/-- Outside partition mode a successful load had 256 PQ centroids, at most `MAX_PQ_CHUNKS`
    chunks, and a header that counts the compressed data's points; `_max_degree` comes from
    `_max_node_len` less the disk PQ chunk count when `_pq_pivots.bin` exists and less
    `_data_dim * sizeof(T)` otherwise, within `MAX_GRAPH_DEGREE`; reorder data needs disk PQ;
    without `_medoids.bin` the one medoid is the header's, cut to 32 bits. -/
theorem loadFromSeparatePaths_default {labelBits sizeofT maxPqChunks maxGraphDegree : Nat}
    {inflate : V → V} {disk : DiskRecords V} {t : PartitionTables} {f : IndexFiles V}
    {li : LoadedIndex V}
    (e : loadFromSeparatePaths false labelBits sizeofT maxPqChunks maxGraphDegree inflate disk t f =
      .ok li) :
    f.pqTableMeta.1 = 256 ∧ li.nChunks ≤ maxPqChunks ∧
      ∃ ws, f.header = some ws ∧ ws.head? = some f.compressedMeta.1 ∧
        li.meta.maxDegree = maxDegreeOf li.meta.maxNodeLen
          (f.diskPqChunks.getD (f.pqTableMeta.2 * sizeofT)) ∧
        li.meta.maxDegree ≤ maxGraphDegree ∧
        (li.meta.reorderDataExists = true → f.diskPqChunks.isSome) ∧
        (f.medoids = none → li.medoids = [u32 li.meta.medoidIdOnFile]) := by
  obtain ⟨hpq, hch, hdim, -, hnp, hdpq, mid, hh, hmc⟩ := loadFromSeparatePaths_eq_ok e
  obtain ⟨ws, hws, hm, rfl⟩ := (loadHeader_eq_ok hh).2 rfl
  obtain ⟨hhead, hdeg, hle, hre, -⟩ := readIndexMeta_spec hm
  obtain ⟨-, hnone⟩ := loadMedoidsCentroids_eq_ok useMedoidsDataAsCentroids_length hmc
  refine ⟨hpq, hch, ws, hws, hnp ▸ hhead, hdim ▸ hdeg, hle, hdpq ▸ hre, fun hmf => ?_⟩
  obtain ⟨id, hid, hmeds⟩ := hnone hmf
  cases hid
  exact hmeds

/-- The loader reads back what the format writes: outside partition mode, with 256 PQ
    centroids, at most `MAX_PQ_CHUNKS` chunks, no labels, no centroid file, a medoid file (if
    any) one id wide, and a well-formed header in the format's layout, the load succeeds with
    that header, the medoids of the file (the header's medoid without one), and as centroids
    their coordinates, inflated through the disk PQ table when `_pq_pivots.bin` exists. -/
theorem loadFromSeparatePaths_encodeIndexMeta {labelBits sizeofT maxPqChunks maxGraphDegree nd : Nat}
    {inflate : V → V} {disk : DiskRecords V} {t : PartitionTables} {f : IndexFiles V}
    {m : IndexMeta}
    (hpq : f.pqTableMeta.1 = 256) (hch : f.compressedMeta.2 ≤ maxPqChunks) (hlab : f.labels = none)
    (hwf : m.WellFormed (f.diskPqChunks.getD (f.pqTableMeta.2 * sizeofT)) maxGraphDegree
      f.diskPqChunks.isSome)
    (hhdr : f.header = some (encodeIndexMeta f.compressedMeta.1 nd m))
    (hmed : ∀ mf ∈ f.medoids, mf.dim = 1) (hcen : f.centroids = none) :
    let medoids := (f.medoids.map (·.data)).getD [u32 m.medoidIdOnFile]
    loadFromSeparatePaths false labelBits sizeofT maxPqChunks maxGraphDegree inflate disk t f = .ok
      { dataDim := f.pqTableMeta.2, alignedDim := roundUp f.pqTableMeta.2 8,
        numPoints := f.compressedMeta.1, nChunks := f.compressedMeta.2, labels := none,
        filters := FilterTables.empty, useDiskIndexPq := f.diskPqChunks.isSome, meta := m, medoids,
        centroids := medoids.map fun i =>
          some (if f.diskPqChunks.isSome then inflate (disk.coords i) else disk.coords i),
        partition := ⟨0, [], []⟩,
        graph := ⟨0, m.maxDegree, f.diskPqChunks.getD (f.pqTableMeta.2 * sizeofT), m.maxNodeLen⟩ } := by
  intro medoids
  have hh : loadHeader false f.compressedMeta.1 (f.diskPqChunks.getD (f.pqTableMeta.2 * sizeofT))
      maxGraphDegree f.diskPqChunks.isSome f.header = .ok (m, some m.medoidIdOnFile) := by
    simp only [loadHeader, hhdr, readIndexMeta_encodeIndexMeta hwf]
    rfl
  have hmc : loadMedoidsCentroids (roundUp f.pqTableMeta.2 8) (some m.medoidIdOnFile)
      (useMedoidsDataAsCentroids false f.diskPqChunks.isSome inflate disk t) f.medoids
        f.centroids = .ok (medoids, medoids.map fun i =>
          some (if f.diskPqChunks.isSome then inflate (disk.coords i) else disk.coords i)) := by
    cases hmf : f.medoids with
    | none => simp only [medoids, hmf, loadMedoidsCentroids, useMedoidsDataAsCentroids_default]; rfl
    | some mf =>
      simp only [medoids, hmf, loadMedoidsCentroids, hmed mf hmf, hcen,
        useMedoidsDataAsCentroids_default]
      rfl
  simp [loadFromSeparatePaths, hpq, hlab, loadFilters, Nat.not_lt.mpr hch, hh, hmc,
    loadPartitionMembers, bind, Except.bind, pure, Except.pure, Except.mapError]

/-- Loading `smallIndexFiles` without `_medoids.bin` gives medoid `0` and its coordinates. -/
theorem smallIndex_reads_back :
    ((loadFromSeparatePaths false 32 4 512 512 id idRecords noPartitionTables
        (smallIndexFiles none)).toOption.map fun li => (li.meta, li.medoids, li.centroids)) =
      some (smallIndexMeta, [0], [some 0]) := by
  rw [loadFromSeparatePaths_encodeIndexMeta rfl (by decide) rfl
    ⟨by decide, by decide, fun _ => rfl, by decide, fun _ => ⟨rfl, rfl, rfl⟩⟩ rfl
    (by simp [smallIndexFiles]) rfl]
  rfl

end DiskAnn
