import Mathlib.Data.List.Forall2
import DiskAnn.Layout

/-
  DiskANN node reads: `read_nodes` (`pq_flash_index.cpp`, lines 158-329) and two of its
  callers, `load_cache_list` (lines 331-377) and `use_medoids_data_as_centroids` (lines
  616-658).

  Model. A request is entry `i` of the three parallel vectors: `node_ids[i]`, and whether
  `coord_buffers[i]` and `nbr_buffers[i].second` are non-null. An entry's result is
  `retval[i]` and what its two buffers received (`none`: not written). The disk is the record
  each node's layout slot holds (`DiskRecords`), and in partition mode the adjacency each
  slot of each partition sector holds (`PartitionTables.sectorSlot`). In the default layout
  every entry reads its node's sectors and fills each requested buffer (the Linux reader
  either fills a request or does not return; the Windows `USE_BING_INFRA` status check is
  not modelled). In partition mode only entries with a neighbour buffer are read, from the
  node's slot in its partition's sector; the entry fails on an invalid partition, on a node
  missing from its partition list, or on a slot past the sector. No coordinate buffer is
  written in partition mode.

  Proved: in the default layout every entry reports success with every requested buffer
  holding its node's record (`readNodes_default_filled`), and `load_cache_list` caches exactly
  the listed nodes with their records (`loadCacheList_default`). In partition mode no coordinate
  buffer is written (`readPartitionSlot_coords`), and a neighbour buffer reported read holds
  the node's adjacency when the partition files agree with the records
  (`readPartitionSlot_nbrs`). A coordinate-only request reports success with nothing written
  (`readNodes_partition_reports_unfilled`): `use_medoids_data_as_centroids` then takes every
  medoid's centroid from an unwritten buffer, with or without the disk PQ table (`useMedoidsDataAsCentroids_partition`), and
  `load_cache_list` caches the zeroed buffer as every cached node's coordinates
  (`loadCacheList_partition_coords`).
-/

namespace DiskAnn

variable {V : Type}

/-- What the default layout's slot of each node holds: its coordinates and adjacency. -/
structure DiskRecords (V : Type) where
  coords : Nat → V
  nbrs : Nat → List Nat

/-- Partition mode: `_num_partitions`, `_id2partition`, `_graph_partitions`,
    `_graph_node_len`, and the adjacency slot `j` of partition `pid`'s sector holds. -/
structure PartitionTables where
  numPartitions : Nat
  id2partition : Nat → Nat
  graphPartitions : Nat → List Nat
  graphNodeLen : Nat
  sectorSlot : Nat → Nat → List Nat

/-- The partition files agree with the records: slot `j` of a partition's sector holds the
    adjacency of the `j`-th node of that partition's list. -/
def PartitionTables.Agrees (t : PartitionTables) (disk : DiskRecords V) : Prop :=
  ∀ pid j (h : j < (t.graphPartitions pid).length),
    t.sectorSlot pid j = disk.nbrs ((t.graphPartitions pid).get ⟨j, h⟩)

/-- Under agreeing tables, the slot at a node's index in its partition's list holds its
    adjacency. -/
theorem PartitionTables.Agrees.slot_of_indexOf {t : PartitionTables} {disk : DiskRecords V}
    (hag : t.Agrees disk) {pid n j : Nat} (h : (t.graphPartitions pid).indexOf? n = some j) :
    t.sectorSlot pid j = disk.nbrs n := by
  obtain ⟨hlt, heq, -⟩ := List.findIdx?_eq_some_iff_getElem.1 h
  rw [hag _ j hlt]
  congr 1
  simpa using heq

/-- Entry `i` of `read_nodes`' arguments. -/
structure ReadRequest where
  nodeId : Nat
  coordBuf : Bool
  nbrBuf : Bool
deriving DecidableEq, Repr

/-- `retval[i]` and what the entry's coordinate and neighbour buffers received. -/
structure NodeRead (V : Type) where
  ok : Bool
  coords : Option V
  nbrs : Option (List Nat)

/-- Default layout: the node's sectors are read and each requested buffer is filled. -/
def readDefault (disk : DiskRecords V) (r : ReadRequest) : NodeRead V :=
  ⟨true, if r.coordBuf then some (disk.coords r.nodeId) else none,
    if r.nbrBuf then some (disk.nbrs r.nodeId) else none⟩

/-- Partition mode: an entry with a neighbour buffer reads its slot of its partition's
    sector; the others are left as they are and keep `retval[i] = true`. -/
def readPartitionSlot (t : PartitionTables) (r : ReadRequest) : NodeRead V :=
  if !r.nbrBuf then ⟨true, none, none⟩
  else
    let pid := t.id2partition r.nodeId
    if t.numPartitions ≤ pid then ⟨false, none, none⟩
    else match (t.graphPartitions pid).indexOf? r.nodeId with
      | none => ⟨false, none, none⟩
      | some j =>
        if sectorLen < j * t.graphNodeLen + 4 then ⟨false, none, none⟩
        else
          let nbrs := t.sectorSlot pid j
          if sectorLen < j * t.graphNodeLen + 4 + nbrs.length * 4 then ⟨false, none, none⟩
          else ⟨true, none, some nbrs⟩

/-- `read_nodes`. -/
def readNodes (usePartition : Bool) (disk : DiskRecords V) (t : PartitionTables)
    (reqs : List ReadRequest) : List (NodeRead V) :=
  if !usePartition then reqs.map (readDefault disk) else reqs.map (readPartitionSlot t)

/-- `read_nodes` treats each entry on its own. -/
theorem readNodes_cons (usePartition : Bool) (disk : DiskRecords V) (t : PartitionTables)
    (r : ReadRequest) (reqs : List ReadRequest) :
    readNodes usePartition disk t (r :: reqs) =
      readNodes usePartition disk t [r] ++ readNodes usePartition disk t reqs := by
  unfold readNodes
  split <;> rfl

/-- Every buffer the entry asked for holds its node's record. -/
def FilledFrom (disk : DiskRecords V) (r : ReadRequest) (res : NodeRead V) : Prop :=
  (r.coordBuf = true → res.coords = some (disk.coords r.nodeId)) ∧
    (r.nbrBuf = true → res.nbrs = some (disk.nbrs r.nodeId))

/-! ## The default layout -/

theorem readDefault_filled (disk : DiskRecords V) (r : ReadRequest) :
    (readDefault disk r).ok = true ∧ FilledFrom disk r (readDefault disk r) :=
  ⟨rfl, fun h => by simp [readDefault, h], fun h => by simp [readDefault, h]⟩

/-- (PROVED) In the default layout every entry reports success, and every buffer it asked
    for holds its node's record. -/
theorem readNodes_default_filled (disk : DiskRecords V) (t : PartitionTables)
    (reqs : List ReadRequest) :
    List.Forall₂ (fun r res => res.ok = true ∧ FilledFrom disk r res) reqs
      (readNodes false disk t reqs) := by
  simp only [readNodes, Bool.not_false, if_true, List.forall₂_map_right_iff, List.forall₂_same]
  exact fun r _ => readDefault_filled disk r

/-! ## Partition mode -/

/-- (PROVED) Partition mode never writes a coordinate buffer. -/
theorem readPartitionSlot_coords (t : PartitionTables) (r : ReadRequest) :
    (readPartitionSlot t r : NodeRead V).coords = none := by
  simp only [readPartitionSlot]
  repeat' split
  all_goals rfl

/-- (PROVED) In partition mode, a neighbour buffer reported read holds the node's adjacency
    when the partition files agree with the records. -/
theorem readPartitionSlot_nbrs {disk : DiskRecords V} {t : PartitionTables} (hag : t.Agrees disk)
    {r : ReadRequest} (hn : r.nbrBuf = true) (hok : (readPartitionSlot t r : NodeRead V).ok = true) :
    (readPartitionSlot t r : NodeRead V).nbrs = some (disk.nbrs r.nodeId) := by
  unfold readPartitionSlot at hok ⊢
  simp only [hn, Bool.not_true, Bool.false_eq_true, if_false] at hok ⊢
  split_ifs at hok ⊢ with hpid
  split at hok
  · cases hok
  · rename_i j hj
    split_ifs at hok ⊢
    rw [hag.slot_of_indexOf hj]

/-- A coordinate-only request (the one `use_medoids_data_as_centroids` makes) reports
    success in partition mode with nothing written, whatever the tables and the node. -/
theorem readNodes_partition_reports_unfilled (disk : DiskRecords V) (t : PartitionTables)
    (n : Nat) :
    (readNodes true disk t [⟨n, true, false⟩]).map (fun res => (res.ok, res.coords)) =
        [(true, none)] ∧
      ¬ FilledFrom disk ⟨n, true, false⟩ (⟨true, none, none⟩ : NodeRead V) :=
  ⟨rfl, fun h => by simpa using h.1 rfl⟩

/-! ## Callers -/

/-- `use_medoids_data_as_centroids`: each medoid's centroid row, the buffer as read or, with
    `_use_disk_index_pq`, the buffer's codes through `_disk_pq_table.inflate_vector`
    (`inflate`, outside the sources); `none` when the buffer `new T[_data_dim]` was never
    written. A failed read throws. -/
def useMedoidsDataAsCentroids (usePartition useDiskIndexPq : Bool) (inflate : V → V)
    (disk : DiskRecords V) (t : PartitionTables) (medoids : List Nat) :
    Except String (List (Option V)) :=
  let res := readNodes usePartition disk t (medoids.map fun m => ⟨m, true, false⟩)
  if res.all (·.ok) then
    pure (res.map fun r => r.coords.map fun c => if useDiskIndexPq then inflate c else c)
  else throw "Unable to read a medoid"

/-- (PROVED) In the default layout the centroids are the medoids' coordinates, inflated through
    the disk PQ table when the index uses one. -/
theorem useMedoidsDataAsCentroids_default (useDiskIndexPq : Bool) (inflate : V → V)
    (disk : DiskRecords V) (t : PartitionTables) (medoids : List Nat) :
    useMedoidsDataAsCentroids false useDiskIndexPq inflate disk t medoids =
      .ok (medoids.map fun m =>
        some (if useDiskIndexPq then inflate (disk.coords m) else disk.coords m)) := by
  simp [useMedoidsDataAsCentroids, readNodes, readDefault, pure, Except.pure]

/-- (PROVED) In partition mode no read fails and every centroid row comes from an unwritten
    buffer. -/
theorem useMedoidsDataAsCentroids_partition (useDiskIndexPq : Bool) (inflate : V → V)
    (disk : DiskRecords V) (t : PartitionTables) (medoids : List Nat) :
    useMedoidsDataAsCentroids true useDiskIndexPq inflate disk t medoids =
      .ok (medoids.map fun _ => none) := by
  simp [useMedoidsDataAsCentroids, readNodes, readPartitionSlot, pure, Except.pure,
    Function.comp_def]

/-- The node cache: `_nhood_cache` and `_coord_cache`. -/
structure NodeCache (V : Type) where
  nhoodCache : Nat → Option (List Nat)
  coordCache : Nat → Option V

/-- Insert one successfully read node; `std::unordered_map::insert` keeps an existing entry.
    An unwritten neighbour buffer has the count `0` its caller set, and an unwritten coordinate
    buffer the zeros of its `memset`. -/
def cacheInsert (zero : V) (c : NodeCache V) (e : Nat × NodeRead V) : NodeCache V :=
  if e.2.ok && (c.nhoodCache e.1).isNone then
    ⟨Function.update c.nhoodCache e.1 (some (e.2.nbrs.getD [])),
      Function.update c.coordCache e.1 (some (e.2.coords.getD zero))⟩
  else c

/-- `load_cache_list`: read every listed node with both buffers and cache the successes. The
    blocks of 8 do not change the result, since each entry is read on its own. -/
def loadCacheList (usePartition : Bool) (disk : DiskRecords V) (t : PartitionTables) (zero : V)
    (nodeList : List Nat) : NodeCache V :=
  (nodeList.zip (readNodes usePartition disk t (nodeList.map fun n => ⟨n, true, true⟩))).foldl
    (cacheInsert zero) ⟨fun _ => none, fun _ => none⟩

theorem cacheInsert_coords {zero : V} {P : Nat → V → Prop} :
    ∀ (l : List (Nat × NodeRead V)) (c : NodeCache V),
      (∀ n v, c.coordCache n = some v → P n v) →
      (∀ e ∈ l, e.2.ok = true → P e.1 (e.2.coords.getD zero)) →
      ∀ n v, (l.foldl (cacheInsert zero) c).coordCache n = some v → P n v
  | [], _, hc, _ => hc
  | e :: l, c, hc, hl => by
    refine cacheInsert_coords l _ ?_ (fun e' he' => hl e' (List.mem_cons_of_mem _ he'))
    intro n v hv
    unfold cacheInsert at hv
    split at hv
    · rename_i hok
      simp only [Function.update_apply] at hv
      split at hv
      · cases hv
        subst n
        exact hl e (List.mem_cons_self _ _) (Bool.and_eq_true_iff.1 hok).1
      · exact hc n v hv
    · exact hc n v hv

/-- (PROVED) In partition mode every cached node's coordinates are the zeroed buffer. -/
theorem loadCacheList_partition_coords (disk : DiskRecords V) (t : PartitionTables) (zero : V)
    (nodeList : List Nat) (n : Nat) (v : V)
    (h : (loadCacheList true disk t zero nodeList).coordCache n = some v) : v = zero := by
  refine cacheInsert_coords (P := fun _ v => v = zero) _ _ (fun _ _ h => by cases h) ?_ n v h
  intro e he _
  have h2 := (List.of_mem_zip he).2
  simp only [readNodes, Bool.not_true, Bool.false_eq_true, if_false, List.map_map,
    List.mem_map] at h2
  obtain ⟨n', -, hn'⟩ := h2
  rw [← hn', Function.comp_apply, readPartitionSlot_coords]
  rfl

/-- What `load_cache_list` leaves for the nodes listed so far, in the default layout. -/
def CachedExactly (disk : DiskRecords V) (l : List Nat) (c : NodeCache V) : Prop :=
  ∀ n, c.nhoodCache n = (if n ∈ l then some (disk.nbrs n) else none) ∧
    c.coordCache n = (if n ∈ l then some (disk.coords n) else none)

theorem CachedExactly.insert {disk : DiskRecords V} {zero : V} {l : List Nat} {c : NodeCache V}
    (h : CachedExactly disk l c) (m : Nat) :
    CachedExactly disk (l ++ [m]) (cacheInsert zero c (m, readDefault disk ⟨m, true, true⟩)) := by
  have e : cacheInsert zero c (m, readDefault disk ⟨m, true, true⟩) =
      if (c.nhoodCache m).isNone then
        ⟨Function.update c.nhoodCache m (some (disk.nbrs m)),
          Function.update c.coordCache m (some (disk.coords m))⟩
      else c := by
    simp [cacheInsert, readDefault]
  intro n
  rw [e]
  by_cases hm : m ∈ l
  · rw [if_neg (by simp [(h m).1, hm])]
    by_cases hn : n = m
    · subst hn; simpa [hm] using h n
    · simpa [hn] using h n
  · rw [if_pos (by simp [(h m).1, hm])]
    by_cases hn : n = m
    · subst hn; simp
    · simpa [hn] using h n

/-- In the default layout every listed node is read with its record. -/
theorem zip_readNodes_default (disk : DiskRecords V) (t : PartitionTables) (l : List Nat) :
    l.zip (readNodes false disk t (l.map fun n => ⟨n, true, true⟩)) =
      l.map fun m => (m, readDefault disk ⟨m, true, true⟩) := by
  simp only [readNodes, Bool.not_false, if_true, List.map_map]
  induction l with
  | nil => rfl
  | cons m l ih => simp [ih]

/-- Inserting the records of `l` after those of `pre` caches exactly `pre ++ l`. -/
theorem CachedExactly.foldl_insert {disk : DiskRecords V} {zero : V} :
    ∀ (l : List Nat) {pre : List Nat} {c : NodeCache V}, CachedExactly disk pre c →
      CachedExactly disk (pre ++ l)
        ((l.map fun m => (m, readDefault disk ⟨m, true, true⟩)).foldl (cacheInsert zero) c)
  | [], pre, c, h => by simpa using h
  | m :: l, pre, c, h => by simpa using CachedExactly.foldl_insert l (h.insert m)

/-- (PROVED) In the default layout `load_cache_list` caches exactly the listed nodes, each with
    its record's adjacency and coordinates. -/
theorem loadCacheList_default (disk : DiskRecords V) (t : PartitionTables) (zero : V)
    (nodeList : List Nat) : CachedExactly disk nodeList (loadCacheList false disk t zero nodeList) := by
  unfold loadCacheList
  rw [zip_readNodes_default]
  have empty : CachedExactly disk [] (⟨fun _ => none, fun _ => none⟩ : NodeCache V) :=
    fun n => by simp
  simpa using CachedExactly.foldl_insert nodeList empty

end DiskAnn
