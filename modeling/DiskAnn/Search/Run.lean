import DiskAnn.Layout
import DiskAnn.Search.Basic

/-
  DiskANN search: one whole `cached_beam_search` call (`pq_flash_index.cpp`,
  lines 1772-2896), around the main loop of `DiskAnn.Search.Basic`.

  Model. The call rejects a beam width above `ceil(_max_node_len / SECTOR_LEN) *
  MAX_N_SECTOR_READS`, seeds the frontier with the best medoid (by centroid distance, or by
  `compute_dists` among the filter's medoids), runs the loop, and then: with
  `USE_DEFERRED_FETCH` fetches every `full_retset` embedding in one request and overwrites the
  first `|embeddings|` distances; sorts; with `use_reorder_data` keeps the best `3 k`, rescores
  them from the reorder region and sorts again; copies the first `k` entries out, mapping
  dummies to real ids. Exceptions are `thrown` with the source's message; reads and writes
  past the end of `full_retset` are `undefined`; `outOfFuel` marks a loop still running
  after `fuel` hops.
-/

namespace DiskAnn

/-- How a call can end without a result. -/
inductive SearchFault where
  | thrown (msg : String)
  | undefined (what : String)
  | outOfFuel
deriving DecidableEq, Repr

/-- What a call leaves: the loop's final state, the `full_retset` the copy reads, and the
    `k` ids and distances written (`none` when the deferred path returns before writing). -/
structure SearchResult (D : Type) where
  state : SearchState D
  fullRetset : List (Neighbor D)
  out : Option (List Nat × List D)

variable {D V : Type} [LinearOrder D] [Zero D]

/-- The state after `reset()`, `reserve(l_search)` and a fresh `node_distances`. -/
def initState (p : SearchParams) : SearchState D :=
  ⟨.reserve p.lSearch, [], [], DistMemo.empty, [], 0, 0, [], [], []⟩

/-- Unfiltered seed: the medoid whose centroid is strictly closest, the first one on a tie. -/
def bestCentroidMedoid (ix : SearchIndex D V) : Nat :=
  (ix.medoids.enum.foldl (fun best m =>
    if ix.centroidDist m.1 < best.2 then (m.2, ix.centroidDist m.1) else best) (0, ix.fltMax)).1

/-- Filtered seed: the filter's medoid with the smallest `compute_dists` distance. -/
def bestFilterMedoid (ix : SearchIndex D V) (p : SearchParams) :
    List Nat → Nat × D → SearchState D → Option (Nat × SearchState D)
  | [], best, s => some (best.1, s)
  | m :: ms, best, s => (scoreOne ix p m s).bind fun r =>
    bestFilterMedoid ix p ms (if r.1 < best.2 then (m, r.1) else best) r.2

/-- The start node: the best medoid, and the state after the filtered medoids were scored. -/
def selectStart (ix : SearchIndex D V) (p : SearchParams) :
    Except SearchFault (Nat × SearchState D) :=
  if !p.useFilter then pure (bestCentroidMedoid ix, initState p)
  else match ix.filterToMedoidIds p.filterLabel with
    | none => throw (.thrown "Cannot find medoid for specified filter.")
    | some ms => match bestFilterMedoid ix p ms (0, ix.fltMax) (initState p) with
      | none => throw (.undefined "compute_dists read node_ids past its end")
      | some r => pure r

/-- Insert the start node into `retset` and `visited` (lines 2148-2150). -/
def seedStart (ix : SearchIndex D V) (p : SearchParams) (best : Nat) (s : SearchState D) :
    Except SearchFault (SearchState D) :=
  match scoreOne ix p best s with
  | none => throw (.undefined "compute_dists read node_ids past its end")
  | some (d, s) =>
    pure { s with retset := s.retset.insert ⟨best, d, false⟩, visited := best :: s.visited,
                  inserted := best :: s.inserted }

/-- Overwrite `full_retset[i].distance` for each fetched embedding `i`; `none` when there
    are more embeddings than entries. -/
def rescoreDeferred (embDist : V → D) : List (Neighbor D) → List V → Option (List (Neighbor D))
  | fr, [] => some fr
  | n :: fr, e :: es => (rescoreDeferred embDist fr es).map ({ n with distance := embDist e } :: ·)
  | [], _ :: _ => none

/-- The copy of the first `k` entries: ids (dummies mapped to real ids) and distances;
    `none` when `k` exceeds the entries. -/
def copyOut (ix : SearchIndex D V) (k : Nat) (fr : List (Neighbor D)) :
    Option (List Nat × List D) :=
  if k ≤ fr.length then
    some ((fr.take k).map (fun n => if ix.dummyPts n.id then ix.dummyToRealMap n.id else n.id),
      (fr.take k).map fun n => ix.emitDist n.distance)
  else none

/-- The ids the copy reads, before dummies are mapped. -/
def copiedIds (k : Nat) (fr : List (Neighbor D)) : List Nat := idsOf (fr.take k)

/-- Sort by `Neighbor::operator<`. -/
def sortNeighbors (fr : List (Neighbor D)) : List (Neighbor D) := fr.insertionSort Neighbor.le

/-- The `use_reorder_data` rescoring of the sorted `full_retset`. -/
def reorder (ix : SearchIndex D V) (k : Nat) (fr : List (Neighbor D)) : List (Neighbor D) :=
  sortNeighbors ((fr.take (k * 3)).map fun n => { n with distance := ix.reorderDist n.id })

/-- The `full_retset` after the deferred fetch (`none`: the call returns early on an empty
    `full_retset`). -/
def deferredRetset (ix : SearchIndex D V) (p : SearchParams) (s : SearchState D) :
    Except SearchFault (Option (List (Neighbor D))) :=
  if p.deferredFetch then
    if s.fullRetset.isEmpty then pure none
    else match ix.fetchEmbeddings s.memo.requests (idsOf s.fullRetset) with
      | none => throw (.thrown "Failed to fetch embeddings")
      | some embs => match rescoreDeferred ix.embDist s.fullRetset embs with
        | none => throw (.undefined "full_retset written past its end")
        | some fr => pure (some fr)
  else pure (some s.fullRetset)

/-- The sorted `full_retset`, rescored from the reorder region when asked. -/
def rankRetset (ix : SearchIndex D V) (p : SearchParams) (fr : List (Neighbor D)) :
    Except SearchFault (List (Neighbor D)) :=
  if p.useReorderData then
    if !ix.reorderDataExists then
      throw (.thrown "Requested use of reordering data which does not exist in index file")
    else pure (reorder ix p.kSearch (sortNeighbors fr))
  else pure (sortNeighbors fr)

/-- Everything after the main loop: deferred fetch, sort, reorder and copy-out. -/
def finishSearch (ix : SearchIndex D V) (p : SearchParams) (s : SearchState D) :
    Except SearchFault (SearchResult D) := do
  match ← deferredRetset ix p s with
  | none => pure ⟨s, [], none⟩
  | some fr =>
    let fr ← rankRetset ix p fr
    match copyOut ix p.kSearch fr with
    | none => throw (.undefined "full_retset read past its end")
    | some out => pure ⟨s, fr, some out⟩

/-- The start medoid and the state after seeding. -/
def seedSearch (ix : SearchIndex D V) (p : SearchParams) : Except SearchFault (Nat × SearchState D) := do
  let (best, s) ← selectStart ix p
  let s₀ ← seedStart ix p best s
  pure (best, s₀)

/-- The main loop run from the seeded state; `outOfFuel` when it is still running after
    `fuel` hops. -/
def runLoop (ix : SearchIndex D V) (p : SearchParams) (fuel : Nat) (s₀ : SearchState D) :
    Except SearchFault (SearchState D) :=
  match searchLoop ix p fuel s₀ with
  | none => throw (.undefined "the main loop left defined behaviour")
  | some s => if loopGuard p s then throw .outOfFuel else pure s

/-- `cached_beam_search`, with the main loop bounded by `fuel` hops. -/
def cachedBeamSearch (ix : SearchIndex D V) (p : SearchParams) (fuel : Nat) :
    Except SearchFault (SearchResult D) := do
  if p.beamWidth > divRoundUp ix.maxNodeLen sectorLen * ix.maxNSectorReads then
    throw (.thrown "Beamwidth can not be higher than defaults::MAX_N_SECTOR_READS")
  let (_, s₀) ← seedSearch ix p
  let s ← runLoop ix p fuel s₀
  finishSearch ix p s

end DiskAnn
