import DiskAnn.Neighbor
import DiskAnn.ComputeDists
import DiskAnn.Prune

/-
  DiskANN search: the state of one `cached_beam_search` query and one hop of its main loop
  (`pq_flash_index.cpp`, lines 2172-2647).

  Model. The index is what the loaded `PQFlashIndex` holds, seen from one query: the node
  cache (`_nhood_cache`, `_coord_cache`), what a frontier node's sector read yields
  (`diskCoords`, `diskNbrs`), the distance kernels with the query fixed (`coordDist` for
  stored coordinates, `pqDist`, the embedding service and `embDist`), the label tables and
  the dummy map. A hop pops up to `beam_width` unexpanded nodes, splits them into cached
  and uncached ones in pop order, counts one read per uncached node, expands the cached
  ones, then the uncached ones, then (with `batch_recompute`) the hop's batch. Expanding a
  node appends it to `full_retset` with its distance, scores its neighbours with
  `compute_dists` (after `prune_node_nbrs` on the uncached path) and admits each neighbour
  not yet visited. Undefined behaviour (a read past the end of `node_ids` or of a label
  table) ends the hop with `none`.

  The state also keeps three traces that the code does not: the ids passed to
  `retset.insert`, each `prune_node_nbrs` call's list and result, and each hop's frontier.
  They only record what the run did, for the statements about every insertion, every call
  and every read.
-/

namespace DiskAnn

/-- `_pts_to_label_offsets`, `_pts_to_label_counts` and `_pts_to_labels` (a CSR table). -/
structure LabelTables where
  ptsToLabelOffsets : List Nat
  ptsToLabelCounts : List Nat
  ptsToLabels : List Nat

/-- The loop of `point_has_label` from position `pos`, `n` labels left. -/
def findLabel (labels : List Nat) (labelId : Nat) : Nat → Nat → Option Bool
  | _, 0 => some false
  | pos, n + 1 => labels[pos]?.bind fun l =>
    if l = labelId then some true else findLabel labels labelId (pos + 1) n

/-- `point_has_label`; `none` when it reads a table past its end. -/
def pointHasLabel (t : LabelTables) (pointId labelId : Nat) : Option Bool :=
  t.ptsToLabelOffsets[pointId]?.bind fun startVec =>
    t.ptsToLabelCounts[pointId]?.bind fun numLbls =>
      findLabel t.ptsToLabels labelId startVec numLbls

/-- What `cached_beam_search` reads from the loaded index, for one query. -/
structure SearchIndex (D V : Type) where
  maxNodeLen : Nat
  nnodesPerSector : Nat
  /-- `defaults::MAX_N_SECTOR_READS`. -/
  maxNSectorReads : Nat
  usePartition : Bool
  medoids : List Nat
  /-- The query's distance to `_centroid_data` row `cur_m`. -/
  centroidDist : Nat → D
  filterToMedoidIds : Nat → Option (List Nat)
  /-- `std::numeric_limits<float>::max()`. -/
  fltMax : D
  nhoodCache : Nat → Option (List Nat)
  coordCache : Nat → V
  /-- The coordinates `offset_to_node_coords` finds in a frontier node's buffer. -/
  diskCoords : Nat → V
  /-- The adjacency a frontier node's buffer decodes to. -/
  diskNbrs : Nat → List Nat
  /-- Distance of stored coordinates to the query (`_dist_cmp` or the disk PQ table). -/
  coordDist : V → D
  pqDist : Nat → D
  fetchEmbeddings : Nat → List Nat → Option (List V)
  embDist : V → D
  labels : LabelTables
  useUniversalLabel : Bool
  universalFilterLabel : Nat
  dummyPts : Nat → Bool
  dummyToRealMap : Nat → Nat
  reorderDataExists : Bool
  /-- Distance recomputed from the reorder region's full-precision vector. -/
  reorderDist : Nat → D
  /-- The output transform of a distance (negate and rescale for inner product). -/
  emitDist : D → D

/-- The arguments of one `cached_beam_search` call. -/
structure SearchParams where
  kSearch : Nat
  lSearch : Nat
  beamWidth : Nat
  useFilter : Bool
  filterLabel : Nat
  ioLimit : Nat
  useReorderData : Bool
  deferredFetch : Bool
  skipSearchReorder : Bool
  recomputeBeighborEmbeddings : Bool
  dedupNodeDis : Bool
  pruneRatio : PruneRatio
  batchRecompute : Bool
  globalPruning : Bool

/-- The per-query state of the main loop. -/
structure SearchState (D : Type) where
  retset : NeighborPriorityQueue D
  visited : List Nat
  fullRetset : List (Neighbor D)
  memo : DistMemo D
  aqPriorityQueue : List (D × Nat)
  numIos : Nat
  hops : Nat
  /-- Trace: the ids passed to `retset.insert`, latest first. -/
  inserted : List Nat
  /-- Trace: each `prune_node_nbrs` call's list and the list it left, latest first. -/
  pruneLog : List (List Nat × List Nat)
  /-- Trace: each hop's uncached frontier, latest first. -/
  frontiers : List (List Nat)

variable {D V : Type}

/-- `compute_dists` as the query sees it. -/
def distCfg (ix : SearchIndex D V) (p : SearchParams) : DistCfg D V :=
  ⟨p.recomputeBeighborEmbeddings, p.dedupNodeDis, ix.pqDist, ix.fetchEmbeddings, ix.embDist⟩

/-- `compute_dists` on the query state. -/
def scoreIds (ix : SearchIndex D V) (p : SearchParams) (ids : List Nat) (s : SearchState D) :
    Option (List D × SearchState D) :=
  (computeDists (distCfg ix p) ids s.memo).map fun r => (r.1, { s with memo := r.2 })

/-- The admission test of the three insertion sites: unfiltered, not a dummy; filtered, the
    filter label or (when set) the universal label. -/
def admits (ix : SearchIndex D V) (p : SearchParams) (id : Nat) : Option Bool :=
  if !p.useFilter then some !ix.dummyPts id
  else (pointHasLabel ix.labels id p.filterLabel).bind fun hasFilter =>
    if hasFilter then some true
    else if !ix.useUniversalLabel then some false
    else pointHasLabel ix.labels id ix.universalFilterLabel

section Order

variable [LinearOrder D] [Zero D]

/-- The admission loop: `visited.insert(id).second`, then the admission test, then
    `retset.insert`. -/
def admitNbrs (ix : SearchIndex D V) (p : SearchParams) :
    List (Nat × D) → SearchState D → Option (SearchState D)
  | [], s => some s
  | (id, d) :: rest, s =>
    if id ∈ s.visited then admitNbrs ix p rest s
    else
      let s := { s with visited := id :: s.visited }
      (admits ix p id).bind fun ok =>
        admitNbrs ix p rest
          (if ok then { s with retset := s.retset.insert ⟨id, d, false⟩, inserted := id :: s.inserted }
           else s)

/-- Score a neighbour list with `compute_dists` and admit it. -/
def scoreAndAdmit (ix : SearchIndex D V) (p : SearchParams) (nbrs : List Nat)
    (s : SearchState D) : Option (SearchState D) :=
  (scoreIds ix p nbrs s).bind fun r => admitNbrs ix p (nbrs.zip r.1) r.2

/-- `prune_node_nbrs`, then score and admit what it left. -/
def pruneThenAdmit (ix : SearchIndex D V) (p : SearchParams) (nbrs : List Nat)
    (s : SearchState D) : Option (SearchState D) :=
  let r := pruneNodeNbrs p.recomputeBeighborEmbeddings p.globalPruning ix.pqDist p.pruneRatio
    s.visited s.aqPriorityQueue nbrs
  scoreAndAdmit ix p r.1 { s with aqPriorityQueue := r.2, pruneLog := (nbrs, r.1) :: s.pruneLog }

/-- The distance `compute_dists` gives one id (the `skip_search_reorder` path). -/
def scoreOne (ix : SearchIndex D V) (p : SearchParams) (u : Nat) (s : SearchState D) :
    Option (D × SearchState D) :=
  (scoreIds ix p [u] s).bind fun r => r.1.head?.map (·, r.2)

/-- `full_retset` distance of a cached node (lines 2326-2346). -/
def cachedNodeDist (ix : SearchIndex D V) (p : SearchParams) (u : Nat) (s : SearchState D) :
    Option (D × SearchState D) :=
  if p.skipSearchReorder then scoreOne ix p u s
  else if p.deferredFetch then some (0, s)
  else some (ix.coordDist (ix.coordCache u), s)

/-- `full_retset` distance of a frontier node (lines 2420-2464); `node_distances[node_id]`
    inserts `0` for an id it does not hold. -/
def frontierNodeDist (ix : SearchIndex D V) (p : SearchParams) (u : Nat) (s : SearchState D) :
    Option (D × SearchState D) :=
  if p.skipSearchReorder then scoreOne ix p u s
  else if p.deferredFetch then some (0, s)
  else if p.recomputeBeighborEmbeddings && p.dedupNodeDis && ix.usePartition then
    let d := (s.memo.nodeDistances u).getD 0
    some (d, { s with memo := { s.memo with
      nodeDistances := Function.update s.memo.nodeDistances u (some d) } })
  else some (ix.coordDist (ix.diskCoords u), s)

/-- Expand one cached node with its cached adjacency. -/
def expandCached (ix : SearchIndex D V) (p : SearchParams) (u : Nat) (nbrs : List Nat)
    (s : SearchState D) : Option (SearchState D) :=
  (cachedNodeDist ix p u s).bind fun r =>
    scoreAndAdmit ix p nbrs { r.2 with fullRetset := r.2.fullRetset ++ [⟨u, r.1, false⟩] }

/-- Expand one frontier node; with `batch_recompute` its adjacency joins the hop's batch. -/
def expandFrontier (ix : SearchIndex D V) (p : SearchParams) (u : Nat)
    (sb : SearchState D × List Nat) : Option (SearchState D × List Nat) :=
  (frontierNodeDist ix p u sb.1).bind fun r =>
    let s := { r.2 with fullRetset := r.2.fullRetset ++ [⟨u, r.1, false⟩] }
    if p.batchRecompute then some (s, sb.2 ++ ix.diskNbrs u)
    else (pruneThenAdmit ix p (ix.diskNbrs u) s).map (·, sb.2)

def expandCachedAll (ix : SearchIndex D V) (p : SearchParams) :
    List (Nat × List Nat) → SearchState D → Option (SearchState D)
  | [], s => some s
  | (u, nbrs) :: rest, s => (expandCached ix p u nbrs s).bind (expandCachedAll ix p rest)

def expandFrontierAll (ix : SearchIndex D V) (p : SearchParams) :
    List Nat → SearchState D × List Nat → Option (SearchState D × List Nat)
  | [], sb => some sb
  | u :: rest, sb => (expandFrontier ix p u sb).bind (expandFrontierAll ix p rest)

/-- The beam: up to `n` pops of `closest_unexpanded`. The loop's `frontier.size() <
    beam_width` test never stops it first, since `frontier` grows only with `num_seen`. -/
def popBeam : Nat → NeighborPriorityQueue D → List Nat × NeighborPriorityQueue D
  | 0, q => ([], q)
  | n + 1, q =>
    match q.closestUnexpanded with
    | none => ([], q)
    | some (nb, q') => let r := popBeam n q'; (nb.id :: r.1, r.2)

/-- The cached members of a beam with their cached adjacency, in pop order. -/
def cachedNhoods (ix : SearchIndex D V) (beam : List Nat) : List (Nat × List Nat) :=
  beam.filterMap fun u => (ix.nhoodCache u).map (u, ·)

/-- The uncached members of a beam, in pop order. -/
def frontierOf (ix : SearchIndex D V) (beam : List Nat) : List Nat :=
  beam.filter fun u => (ix.nhoodCache u).isNone

/-- One iteration of the main loop. -/
def hop (ix : SearchIndex D V) (p : SearchParams) (s : SearchState D) : Option (SearchState D) :=
  let b := popBeam p.beamWidth s.retset
  let frontier := frontierOf ix b.1
  let s : SearchState D :=
    { s with retset := b.2, numIos := s.numIos + frontier.length,
             frontiers := frontier :: s.frontiers }
  (expandCachedAll ix p (cachedNhoods ix b.1) s).bind fun s =>
    (expandFrontierAll ix p frontier (s, [])).bind fun sb =>
      (if p.batchRecompute then pruneThenAdmit ix p sb.2 sb.1 else some sb.1).map
        fun s => { s with hops := s.hops + 1 }

/-- The loop condition: an unexpanded node left and `num_ios < io_limit`. -/
def loopGuard (p : SearchParams) (s : SearchState D) : Bool :=
  s.retset.hasUnexpandedNode && decide (s.numIos < p.ioLimit)

/-- The main loop, on `fuel` iterations at most. -/
def searchLoop (ix : SearchIndex D V) (p : SearchParams) : Nat → SearchState D → Option (SearchState D)
  | 0, s => some s
  | fuel + 1, s => if loopGuard p s then (hop ix p s).bind (searchLoop ix p fuel) else some s

end Order

end DiskAnn
