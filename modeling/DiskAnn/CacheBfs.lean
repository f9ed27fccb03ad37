import Mathlib.Algebra.Order.Ring.Nat
import Mathlib.Data.List.Sort
import DiskAnn.ReadNodes

/-
  DiskANN node cache: `cache_bfs_levels` (`pq_flash_index.cpp`, lines 473-614), which picks
  the nodes `StaticDiskIndex::cache_bfs_levels` hands to `load_cache_list`.

  Model. The cap is `num_nodes_to_cache`, cut to `tenp_nodes` (the code's
  `round(_num_points * 0.1)`, at least 1) when larger. `cur_level` starts with the medoids,
  then the filters' medoids, stopping at the cap. Each level moves `cur_level` into
  `node_set`, arranges the moved ids (`std::sort`, or `std::shuffle`: any `arrange` that
  keeps the ids), reads them in blocks of 1024 through `read_nodes` (neighbour buffers only),
  and scans each read node's neighbours into `cur_level` until
  `|cur_level| + |node_set| ≥ cap`. The level loop runs while that sum is below the cap and
  `cur_level` is not empty, for at most `fuel` levels. `robin_set`s are duplicate-free lists;
  their iteration order is left as insertion order, which no result below depends on.

  Proved (`cacheBfsLevels_spec`): when every read of a node below `_num_points` succeeds
  (`NbrReadsOk`: always in the default layout, `nbrReadsOk_default`; in partition mode when the
  partition files agree with the records and every slot fits its sector,
  `nbrReadsOk_partition`) and the seeds and stored neighbours are below `_num_points`, for
  every arrangement,
  seed list and cap, `cap + 1` levels of fuel suffice, and the node list is duplicate-free,
  has at most `cap` nodes, exactly `cap` when `cap` nodes are reachable from the seeds, and
  is the union of the complete BFS levels `0 .. d-1` and part of level `d`. The neighbour
  scan keeps `ScanInv` (`exploreNbrs_spec`), the blocks of a level read as one scan
  (`exploreLevel_eq`), and each level keeps `BfsInv` (`BfsInv.level`).
-/

namespace DiskAnn

variable {V : Type}

/-! ## The model -/

/-- `tsl::robin_set::insert`, on a duplicate-free list. -/
def setInsert (s : List Nat) (x : Nat) : List Nat := if x ∈ s then s else s ++ [x]

/-- The number of nodes to cache: `num_nodes_to_cache`, cut to `tenp_nodes` (at least 1)
    when it is larger. -/
def cacheCap (numNodesToCache tenpNodes : Nat) : Nat :=
  if numNodesToCache > tenpNodes then (if tenpNodes = 0 then 1 else tenpNodes)
  else numNodesToCache

/-- The medoid loop: insert `_medoids[miter]` while `cur_level` holds fewer than `cap`. -/
def seedMedoids (cap : Nat) : List Nat → List Nat → List Nat
  | cur, [] => cur
  | cur, m :: ms => if cur.length < cap then seedMedoids cap (setInsert cur m) ms else cur

/-- One filter's medoids: insert each, and break once `cur_level` holds `cap`. -/
def seedFilterIds (cap : Nat) : List Nat → List Nat → List Nat
  | cur, [] => cur
  | cur, y :: ys =>
    let cur := setInsert cur y
    if cur.length = cap then cur else seedFilterIds cap cur ys

/-- The loop over `_filter_to_medoid_ids`, which breaks once `cur_level` holds `cap`. -/
def seedFilters (cap : Nat) : List Nat → List (List Nat) → List Nat
  | cur, [] => cur
  | cur, x :: xs =>
    let cur := seedFilterIds cap cur x
    if cur.length = cap then cur else seedFilters cap cur xs

/-- Level 0: the medoids, then the filters' medoids when there is room. -/
def seedLevel (cap : Nat) (medoids : List Nat) (filterToMedoidIds : List (List Nat)) :
    List Nat :=
  let cur := seedMedoids cap [] medoids
  if 0 < filterToMedoidIds.length ∧ cur.length < cap then seedFilters cap cur filterToMedoidIds
  else cur

/-- The scan of one read node's neighbours (`for j < nnbrs && !finish_flag`): insert each
    neighbour outside `node_set` into `cur_level`, and raise the flag once
    `|cur_level| + |node_set| ≥ cap`. -/
def exploreNbrs (cap : Nat) (nodeSet : List Nat) : List Nat × Bool → List Nat → List Nat × Bool
  | st, [] => st
  | st, v :: vs =>
    if st.2 then st
    else
      let cur := if v ∈ nodeSet then st.1 else setInsert st.1 v
      exploreNbrs cap nodeSet (cur, decide (cap ≤ cur.length + nodeSet.length)) vs

/-- `BLOCK_SIZE`. -/
def bfsBlockSize : Nat := 1024

/-- Block `b` of `nodes_to_expand`: positions `b * 1024` up to `min ((b + 1) * 1024, n)`. -/
def bfsBlock (nodesToExpand : List Nat) (b : Nat) : List Nat :=
  (nodesToExpand.drop (b * bfsBlockSize)).take bfsBlockSize

/-- One block: read its nodes with a neighbour buffer each (whose count starts at `0`), and
    scan the neighbours of each node whose read succeeded. -/
def exploreBlock (usePartition : Bool) (disk : DiskRecords V) (t : PartitionTables) (cap : Nat)
    (nodeSet : List Nat) (st : List Nat × Bool) (block : List Nat) : List Nat × Bool :=
  (readNodes usePartition disk t (block.map fun n => ⟨n, false, true⟩)).foldl
    (fun st res => if res.ok then exploreNbrs cap nodeSet st (res.nbrs.getD []) else st) st

/-- The blocks of one level (`for block < nblocks && !finish_flag`), from an empty
    `cur_level`. -/
def exploreLevel (usePartition : Bool) (disk : DiskRecords V) (t : PartitionTables) (cap : Nat)
    (nodeSet nodesToExpand : List Nat) : List Nat × Bool :=
  (List.range (divRoundUp nodesToExpand.length bfsBlockSize)).foldl
    (fun st b => if st.2 then st
      else exploreBlock usePartition disk t cap nodeSet st (bfsBlock nodesToExpand b))
    ([], false)

/-- One id of `prev_level`: skipped if `node_set` holds it, else added to `node_set` and to
    `nodes_to_expand`. -/
def takeId (st : List Nat × List Nat) (id : Nat) : List Nat × List Nat :=
  if id ∈ st.1 then st else (st.1 ++ [id], st.2 ++ [id])

/-- `node_set` and `cur_level`. -/
structure BfsState where
  nodeSet : List Nat
  curLevel : List Nat

/-- One pass of the level loop. -/
def bfsLevel (usePartition : Bool) (disk : DiskRecords V) (t : PartitionTables)
    (arrange : List Nat → List Nat) (cap : Nat) (s : BfsState) : BfsState :=
  let taken := s.curLevel.foldl takeId (s.nodeSet, [])
  ⟨taken.1, (exploreLevel usePartition disk t cap taken.1 (arrange taken.2)).1⟩

/-- The level loop, for at most `fuel` levels. -/
def bfsLoop (usePartition : Bool) (disk : DiskRecords V) (t : PartitionTables)
    (arrange : List Nat → List Nat) (cap : Nat) : Nat → BfsState → Option BfsState
  | 0, _ => none
  | fuel + 1, s =>
    if s.nodeSet.length + s.curLevel.length < cap ∧ s.curLevel ≠ [] then
      bfsLoop usePartition disk t arrange cap fuel (bfsLevel usePartition disk t arrange cap s)
    else some s

/-- `cache_bfs_levels`: `node_set`'s ids then `cur_level`'s; `none` when the loop still runs
    after `fuel` levels. -/
def cacheBfsLevels (usePartition : Bool) (disk : DiskRecords V) (t : PartitionTables)
    (arrange : List Nat → List Nat) (tenpNodes numNodesToCache : Nat) (medoids : List Nat)
    (filterToMedoidIds : List (List Nat)) (fuel : Nat) : Option (List Nat) :=
  let cap := cacheCap numNodesToCache tenpNodes
  (bfsLoop usePartition disk t arrange cap fuel ⟨[], seedLevel cap medoids filterToMedoidIds⟩).map
    fun s => s.nodeSet ++ s.curLevel

/-- `std::sort` of `nodes_to_expand` (the default, `shuffle = false`). -/
def sortIds (l : List Nat) : List Nat := l.insertionSort (· ≤ ·)

theorem mem_sortIds (l : List Nat) (x : Nat) : x ∈ sortIds l ↔ x ∈ l :=
  (List.perm_insertionSort _ l).mem_iff

/-! ## Sets as lists -/

@[simp] theorem mem_setInsert {s : List Nat} {x y : Nat} : y ∈ setInsert s x ↔ y ∈ s ∨ y = x := by
  unfold setInsert
  split_ifs with h
  · exact ⟨.inl, fun h' => h'.elim id (· ▸ h)⟩
  · simp

theorem setInsert_nodup {s : List Nat} (h : s.Nodup) (x : Nat) : (setInsert s x).Nodup := by
  unfold setInsert
  split_ifs with hx
  · exact h
  · exact h.append (List.nodup_singleton x) (List.disjoint_singleton.2 hx)

theorem length_setInsert_le (s : List Nat) (x : Nat) : (setInsert s x).length ≤ s.length + 1 := by
  unfold setInsert
  split_ifs <;> simp

/-! ## Level 0 -/

section Seeds

variable {cap : Nat} {S : List Nat}

/-- Seeds kept so far: duplicate-free, drawn from `S`, at most `cap` of them. -/
structure SeedOk (cap : Nat) (S cur : List Nat) : Prop where
  nodup : cur.Nodup
  sub : ∀ x ∈ cur, x ∈ S
  le_cap : cur.length ≤ cap

theorem SeedOk.insert {cur : List Nat} {x : Nat} (h : SeedOk cap S cur) (hx : x ∈ S)
    (hlt : cur.length < cap) : SeedOk cap S (setInsert cur x) :=
  ⟨setInsert_nodup h.nodup x, fun y hy => (mem_setInsert.1 hy).elim (h.sub y) (· ▸ hx),
    (length_setInsert_le cur x).trans hlt⟩

/-- A seed loop that inserted `y` and went on with `ys` keeps what it had, and holds `y :: ys`
    unless it reached the cap. -/
theorem seed_cons {cur r ys : List Nat} {y : Nat} (keep : ∀ x ∈ setInsert cur y, x ∈ r)
    (all : r.length < cap → ∀ x ∈ ys, x ∈ r) :
    (∀ x ∈ cur, x ∈ r) ∧ (r.length < cap → ∀ x ∈ y :: ys, x ∈ r) :=
  ⟨fun x hx => keep x (mem_setInsert.2 (.inl hx)), fun hl x hx =>
    (List.mem_cons.1 hx).elim (fun e => keep x (mem_setInsert.2 (.inr e))) (all hl x)⟩

theorem seedMedoids_spec :
    ∀ {cur ms : List Nat}, SeedOk cap S cur → (∀ x ∈ ms, x ∈ S) →
      SeedOk cap S (seedMedoids cap cur ms) ∧ (∀ x ∈ cur, x ∈ seedMedoids cap cur ms) ∧
        ((seedMedoids cap cur ms).length < cap → ∀ x ∈ ms, x ∈ seedMedoids cap cur ms)
  | _, [], h, _ => ⟨h, fun _ hx => hx, fun _ _ hx => absurd hx (List.not_mem_nil _)⟩
  | cur, m :: ms, h, hms => by
    rw [seedMedoids]
    split_ifs with hlt
    · obtain ⟨ok, keep, all⟩ := seedMedoids_spec (h.insert (hms m (List.mem_cons_self _ _)) hlt)
        (fun x hx => hms x (List.mem_cons_of_mem _ hx))
      exact ⟨ok, seed_cons keep all⟩
    · exact ⟨h, fun _ hx => hx, fun hl => absurd hl hlt⟩

theorem seedFilterIds_spec :
    ∀ {cur ys : List Nat}, SeedOk cap S cur → cur.length < cap → (∀ x ∈ ys, x ∈ S) →
      SeedOk cap S (seedFilterIds cap cur ys) ∧ (∀ x ∈ cur, x ∈ seedFilterIds cap cur ys) ∧
        ((seedFilterIds cap cur ys).length < cap → ∀ x ∈ ys, x ∈ seedFilterIds cap cur ys)
  | _, [], h, _, _ => ⟨h, fun _ hx => hx, fun _ _ hx => absurd hx (List.not_mem_nil _)⟩
  | cur, y :: ys, h, hlt, hys => by
    have h' := h.insert (hys y (List.mem_cons_self _ _)) hlt
    rw [seedFilterIds]
    split_ifs with heq
    · exact ⟨h', fun x hx => mem_setInsert.2 (.inl hx), fun hl => absurd heq (by omega)⟩
    · obtain ⟨ok, keep, all⟩ := seedFilterIds_spec h' (lt_of_le_of_ne h'.le_cap heq)
        (fun x hx => hys x (List.mem_cons_of_mem _ hx))
      exact ⟨ok, seed_cons keep all⟩

theorem seedFilters_spec :
    ∀ {cur : List Nat} {xs : List (List Nat)}, SeedOk cap S cur → cur.length < cap →
      (∀ x ∈ xs.flatten, x ∈ S) →
      SeedOk cap S (seedFilters cap cur xs) ∧ (∀ x ∈ cur, x ∈ seedFilters cap cur xs) ∧
        ((seedFilters cap cur xs).length < cap → ∀ x ∈ xs.flatten, x ∈ seedFilters cap cur xs)
  | _, [], h, _, _ => ⟨h, fun _ hx => hx, fun _ _ hx => absurd hx (List.not_mem_nil _)⟩
  | cur, x :: xs, h, hlt, hxs => by
    have hx : ∀ y ∈ x, y ∈ S := fun y hy =>
      hxs y (List.mem_flatten_of_mem (List.mem_cons_self _ _) hy)
    obtain ⟨ok₁, keep₁, all₁⟩ := seedFilterIds_spec h hlt hx
    rw [seedFilters]
    split_ifs with heq
    · exact ⟨ok₁, keep₁, fun hl => absurd heq (by omega)⟩
    · have hlt₁ := lt_of_le_of_ne ok₁.le_cap heq
      have hxs' : ∀ y ∈ xs.flatten, y ∈ S := fun y hy =>
        hxs y (List.mem_flatten.2 (let ⟨l, hl, hy⟩ := List.mem_flatten.1 hy;
          ⟨l, List.mem_cons_of_mem _ hl, hy⟩))
      obtain ⟨ok, keep, all⟩ := seedFilters_spec ok₁ hlt₁ hxs'
      refine ⟨ok, fun y hy => keep y (keep₁ y hy), fun hl y hy => ?_⟩
      rcases List.mem_append.1 (List.flatten_cons ▸ hy) with hy | hy
      · exact keep y (all₁ hlt₁ y hy)
      · exact all hl y hy

/-- (PROVED) Level 0 is duplicate-free, drawn from the medoids and the filters' medoids, has
    at most `cap` ids, and holds every one of them unless it reached the cap. -/
theorem seedLevel_spec (cap : Nat) (medoids : List Nat) (filterToMedoidIds : List (List Nat)) :
    SeedOk cap (medoids ++ filterToMedoidIds.flatten) (seedLevel cap medoids filterToMedoidIds) ∧
      ((seedLevel cap medoids filterToMedoidIds).length < cap →
        ∀ x ∈ medoids ++ filterToMedoidIds.flatten, x ∈ seedLevel cap medoids filterToMedoidIds) := by
  have h₀ : SeedOk cap (medoids ++ filterToMedoidIds.flatten) [] :=
    ⟨List.nodup_nil, fun _ h => absurd h (List.not_mem_nil _), Nat.zero_le _⟩
  obtain ⟨ok, -, all⟩ := seedMedoids_spec h₀ fun x (hx : x ∈ medoids) => List.mem_append_left _ hx
  dsimp only [seedLevel]
  split_ifs with hf
  · obtain ⟨ok', keep', all'⟩ := seedFilters_spec ok hf.2 (fun x hx => List.mem_append_right _ hx)
    refine ⟨ok', fun hl x hx => ?_⟩
    rcases List.mem_append.1 hx with hx | hx
    · exact keep' x (all hf.2 x hx)
    · exact all' hl x hx
  · refine ⟨ok, fun hl x hx => ?_⟩
    rcases List.mem_append.1 hx with hx | hx
    · exact all hl x hx
    · -- the filters were skipped: there are none, or level 0 was full
      have hnil : filterToMedoidIds = [] := List.eq_nil_of_length_eq_zero (by
        by_contra h; exact hf ⟨Nat.pos_of_ne_zero h, hl⟩)
      simp [hnil] at hx

end Seeds

/-! ## One level's neighbour scan -/

section Scan

variable {cap : Nat} {ns : List Nat}

theorem exploreNbrs_of_fin {st : List Nat × Bool} (h : st.2 = true) :
    ∀ vs, exploreNbrs cap ns st vs = st
  | [] => rfl
  | _ :: _ => by simp [exploreNbrs, h]

theorem exploreNbrs_append :
    ∀ (st : List Nat × Bool) (vs ws : List Nat),
      exploreNbrs cap ns st (vs ++ ws) = exploreNbrs cap ns (exploreNbrs cap ns st vs) ws
  | _, [], _ => rfl
  | st, v :: vs, ws => by
    by_cases h : st.2
    · simp only [List.cons_append, exploreNbrs_of_fin h]
    · simp only [List.cons_append, exploreNbrs, h, if_false, Bool.false_eq_true]
      exact exploreNbrs_append _ vs ws

/-- What a scan that has seen the neighbours `seen` leaves: `cur_level` is duplicate-free and
    holds only seen ids outside `node_set`, the sum stays within the cap, the flag is raised
    only at the cap, and while it is down every seen id outside `node_set` is in `cur_level`. -/
structure ScanInv (cap : Nat) (ns seen : List Nat) (st : List Nat × Bool) : Prop where
  nodup : st.1.Nodup
  fresh : ∀ v ∈ st.1, v ∉ ns ∧ v ∈ seen
  le_cap : ns.length + st.1.length ≤ cap
  full : st.2 = true → cap ≤ ns.length + st.1.length
  complete : st.2 = false → (∀ v ∈ seen, v ∉ ns → v ∈ st.1) ∧ ns.length + st.1.length < cap

theorem ScanInv.init (h : ns.length < cap) : ScanInv cap ns [] ([], false) :=
  ⟨List.nodup_nil, fun _ h => absurd h (List.not_mem_nil _), by simpa using h.le,
    fun h => absurd h (by simp), fun _ => ⟨fun _ h => absurd h (List.not_mem_nil _), by simpa⟩⟩

/-- One neighbour scanned with the flag down. -/
theorem ScanInv.step {seen cur : List Nat} {v : Nat} (h : ScanInv cap ns seen (cur, false)) :
    let cur' := if v ∈ ns then cur else setInsert cur v
    ScanInv cap ns (seen ++ [v]) (cur', decide (cap ≤ cur'.length + ns.length)) := by
  intro cur'
  obtain ⟨hseen, hlt⟩ := h.complete rfl
  change ns.length + cur.length < cap at hlt
  have hsub : ∀ x ∈ cur, x ∈ cur' := fun x hx => by
    simp only [cur']; split_ifs <;> simp [hx]
  have hlen : cur'.length ≤ cur.length + 1 := by
    simp only [cur']; split_ifs
    · omega
    · exact length_setInsert_le cur v
  refine ⟨?_, fun x hx => ?_, show ns.length + cur'.length ≤ cap by omega,
    fun hf => show cap ≤ ns.length + cur'.length by have := of_decide_eq_true hf; omega,
    fun hf => ⟨fun x hx hxn => ?_,
      show ns.length + cur'.length < cap by have := of_decide_eq_false hf; omega⟩⟩
  · simp only [cur']; split_ifs
    · exact h.nodup
    · exact setInsert_nodup h.nodup v
  · simp only [cur'] at hx
    split_ifs at hx with hv
    · exact ⟨(h.fresh x hx).1, List.mem_append_left _ (h.fresh x hx).2⟩
    · rcases mem_setInsert.1 hx with hx | rfl
      · exact ⟨(h.fresh x hx).1, List.mem_append_left _ (h.fresh x hx).2⟩
      · exact ⟨hv, List.mem_append_right _ (List.mem_singleton_self _)⟩
  · rcases List.mem_append.1 hx with hx | hx
    · exact hsub x (hseen x hx hxn)
    · obtain rfl := List.mem_singleton.1 hx
      simp only [cur', if_neg hxn, mem_setInsert, or_true]

/-- (PROVED) A scan keeps `ScanInv`, whatever neighbours it is given. -/
theorem exploreNbrs_spec :
    ∀ (vs : List Nat) {seen : List Nat} {st : List Nat × Bool}, ScanInv cap ns seen st →
      ScanInv cap ns (seen ++ vs) (exploreNbrs cap ns st vs)
  | [], _, _, h => by simpa using h
  | v :: vs, seen, ⟨cur, fin⟩, h => by
    cases fin
    · have h' := exploreNbrs_spec vs (ScanInv.step (v := v) h)
      simpa [exploreNbrs] using h'
    · simp only [exploreNbrs, if_true]
      exact ⟨h.nodup, fun x hx => ⟨(h.fresh x hx).1, List.mem_append_left _ (h.fresh x hx).2⟩,
        h.le_cap, h.full, fun hf => absurd hf (by simp)⟩

end Scan

/-! ## The blocks of a level read as one scan -/

section Reads

variable {usePartition : Bool} {disk : DiskRecords V} {t : PartitionTables} {adj : Nat → List Nat}
  {numPoints cap : Nat} {ns : List Nat}

/-- Every node below `_num_points` reads successfully with a neighbour buffer, which receives
    the node's adjacency `adj`. -/
def NbrReadsOk (usePartition : Bool) (disk : DiskRecords V) (t : PartitionTables)
    (numPoints : Nat) (adj : Nat → List Nat) : Prop :=
  ∀ n < numPoints, readNodes usePartition disk t [⟨n, false, true⟩] = [⟨true, none, some (adj n)⟩]

/-- A read of nodes below `_num_points` succeeds entry by entry. -/
theorem NbrReadsOk.reads (hr : NbrReadsOk usePartition disk t numPoints adj) :
    ∀ {ids : List Nat}, (∀ n ∈ ids, n < numPoints) →
      readNodes usePartition disk t (ids.map fun n => ⟨n, false, true⟩) =
        ids.map fun n => ⟨true, none, some (adj n)⟩
  | [], _ => by unfold readNodes; split <;> rfl
  | n :: ids, h => by
    rw [List.map_cons, readNodes_cons, hr n (h n (List.mem_cons_self _ _)),
      hr.reads fun m hm => h m (List.mem_cons_of_mem _ hm)]
    rfl

/-- In the default layout every neighbour read succeeds with the node's record. -/
theorem nbrReadsOk_default (disk : DiskRecords V) (t : PartitionTables) (numPoints : Nat) :
    NbrReadsOk false disk t numPoints disk.nbrs :=
  fun _ _ => rfl

/-- Partition mode: every node below `_num_points` has a partition, is listed in it, and its
    adjacency fits in its slot of the partition's sector. -/
def PartitionTables.SlotsFit (t : PartitionTables) (disk : DiskRecords V) (numPoints : Nat) :
    Prop :=
  ∀ n < numPoints, t.id2partition n < t.numPartitions ∧
    ((t.graphPartitions (t.id2partition n)).indexOf? n).any
      (fun j => decide (j * t.graphNodeLen + 4 + (disk.nbrs n).length * 4 ≤ sectorLen)) = true

instance (t : PartitionTables) (disk : DiskRecords V) (numPoints : Nat) :
    Decidable (t.SlotsFit disk numPoints) :=
  inferInstanceAs (Decidable (∀ n < numPoints, _ ∧ _))

/-- In partition mode every neighbour read succeeds with the node's record when the partition
    files agree with the records and every slot fits its sector. -/
theorem nbrReadsOk_partition (hag : t.Agrees disk) (hfit : t.SlotsFit disk numPoints) :
    NbrReadsOk true disk t numPoints disk.nbrs := by
  intro n hn
  obtain ⟨hpid, hj⟩ := hfit n hn
  cases hidx : (t.graphPartitions (t.id2partition n)).indexOf? n with
  | none => simp [hidx] at hj
  | some j =>
    simp only [hidx, Option.any_some, decide_eq_true_eq] at hj
    simp only [readNodes, Bool.not_true, Bool.false_eq_true, if_false, List.map_cons,
      List.map_nil, readPartitionSlot, if_neg (Nat.not_le.2 hpid), hidx, hag.slot_of_indexOf hidx,
      if_neg (show ¬sectorLen < j * t.graphNodeLen + 4 by omega),
      if_neg (show ¬sectorLen < j * t.graphNodeLen + 4 + (disk.nbrs n).length * 4 by omega)]

theorem exploreBlock_eq (hr : NbrReadsOk usePartition disk t numPoints adj) (st : List Nat × Bool)
    {block : List Nat} (hb : ∀ n ∈ block, n < numPoints) :
    exploreBlock usePartition disk t cap ns st block = exploreNbrs cap ns st (block.flatMap adj) := by
  rw [exploreBlock, hr.reads hb]
  induction block generalizing st with
  | nil => rfl
  | cons u us ih =>
    simp only [List.map_cons, List.foldl_cons, if_true, Option.getD_some, List.flatMap_cons,
      exploreNbrs_append]
    exact ih _ fun n hn => hb n (List.mem_cons_of_mem _ hn)

/-- (PROVED) When every neighbour read succeeds, the blocks of a level scan the neighbours of
    every node to expand, in order, as one scan. -/
theorem exploreLevel_eq (hr : NbrReadsOk usePartition disk t numPoints adj) {te : List Nat}
    (hte : ∀ n ∈ te, n < numPoints) :
    exploreLevel usePartition disk t cap ns te = exploreNbrs cap ns ([], false) (te.flatMap adj) := by
  have key : ∀ m, (List.range m).foldl (fun st b => if st.2 then st
      else exploreBlock usePartition disk t cap ns st (bfsBlock te b)) ([], false) =
      exploreNbrs cap ns ([], false) ((te.take (m * bfsBlockSize)).flatMap adj) := by
    intro m
    induction m with
    | zero => rfl
    | succ m ih =>
      rw [List.range_succ, List.foldl_append, ih, List.foldl_cons, List.foldl_nil, Nat.succ_mul,
        List.take_add, List.flatMap_append, exploreNbrs_append]
      split
      · exact (exploreNbrs_of_fin ‹_› _).symm
      · exact exploreBlock_eq hr _ fun n hn =>
          hte n (List.mem_of_mem_drop (List.mem_of_mem_take hn))
  rw [exploreLevel, key, List.take_of_length_le]
  simp only [divRoundUp, bfsBlockSize]
  omega

end Reads

/-! ## The level loop -/

/-- `x` is at most `k` hops from the seeds `S` over `adj`. -/
def Within (adj : Nat → List Nat) (S : List Nat) : Nat → Nat → Prop
  | 0, x => x ∈ S
  | k + 1, x => Within adj S k x ∨ ∃ u, Within adj S k u ∧ x ∈ adj u

theorem Within.mono {adj : Nat → List Nat} {S : List Nat} {k : Nat} {x : Nat}
    (h : Within adj S k x) : ∀ m, Within adj S (k + m) x
  | 0 => h
  | m + 1 => .inl (h.mono m)

/-- Ids reachable from seeds below `n`, over an adjacency that stays below `n`, are below `n`. -/
theorem Within.lt {adj : Nat → List Nat} {S : List Nat} {n : Nat} (hS : ∀ x ∈ S, x < n)
    (hadj : ∀ u < n, ∀ v ∈ adj u, v < n) : ∀ {k x : Nat}, Within adj S k x → x < n
  | 0, x, h => hS x h
  | _ + 1, _, .inl h => h.lt hS hadj
  | _ + 1, x, .inr ⟨u, hu, hxu⟩ => hadj u (hu.lt hS hadj) x hxu

section Loop

variable {usePartition : Bool} {disk : DiskRecords V} {t : PartitionTables} {adj : Nat → List Nat}
  {arrange : List Nat → List Nat} {S : List Nat} {numPoints cap : Nat}

/-- The loop invariant after `d` levels: `node_set` and `cur_level` are disjoint sets within
    the cap, of ids at most `d` hops from the seeds; `node_set` holds every id fewer than `d`
    hops away; and below the cap, `cur_level` completes level `d` and holds every neighbour
    of `node_set` outside it. -/
structure BfsInv (adj : Nat → List Nat) (S : List Nat) (cap d : Nat) (s : BfsState) : Prop where
  nodup_set : s.nodeSet.Nodup
  nodup_level : s.curLevel.Nodup
  disjoint : ∀ x ∈ s.curLevel, x ∉ s.nodeSet
  le_cap : s.nodeSet.length + s.curLevel.length ≤ cap
  within : ∀ x, x ∈ s.nodeSet ∨ x ∈ s.curLevel → Within adj S d x
  below : ∀ k < d, ∀ x, Within adj S k x → x ∈ s.nodeSet
  complete : s.nodeSet.length + s.curLevel.length < cap →
    (∀ x, Within adj S d x → x ∈ s.nodeSet ∨ x ∈ s.curLevel) ∧
      ∀ u ∈ s.nodeSet, ∀ v ∈ adj u, v ∈ s.nodeSet ∨ v ∈ s.curLevel

theorem foldl_takeId : ∀ {ids ns te : List Nat}, ids.Nodup → (∀ x ∈ ids, x ∉ ns) →
    ids.foldl takeId (ns, te) = (ns ++ ids, te ++ ids)
  | [], _, _, _, _ => by simp
  | x :: xs, ns, te, hd, hx => by
    obtain ⟨hxs, hd⟩ := List.nodup_cons.1 hd
    rw [List.foldl_cons, takeId, if_neg (hx x (List.mem_cons_self _ _))]
    rw [foldl_takeId hd fun y hy hy' => (List.mem_append.1 hy').elim
      (hx y (List.mem_cons_of_mem _ hy)) fun e => by obtain rfl := List.mem_singleton.1 e; exact hxs hy]
    simp

theorem seedLevel_inv (medoids : List Nat) (filterToMedoidIds : List (List Nat)) :
    BfsInv adj (medoids ++ filterToMedoidIds.flatten) cap 0
      ⟨[], seedLevel cap medoids filterToMedoidIds⟩ := by
  obtain ⟨ok, all⟩ := seedLevel_spec cap medoids filterToMedoidIds
  refine ⟨List.nodup_nil, ok.nodup, fun _ _ h => absurd h (List.not_mem_nil _),
    by simpa using ok.le_cap, fun x hx => ?_, fun k hk => absurd hk (Nat.not_lt_zero k),
    fun hl => ⟨fun x hx => .inr (all (by simpa using hl) x hx),
      fun _ h => absurd h (List.not_mem_nil _)⟩⟩
  rcases hx with hx | hx
  · exact absurd hx (List.not_mem_nil _)
  · exact ok.sub x hx

/-- (PROVED) A level taken below the cap keeps the invariant one level further, and moves
    `cur_level` into `node_set`. -/
theorem BfsInv.level (hr : NbrReadsOk usePartition disk t numPoints adj)
    (hS : ∀ x ∈ S, x < numPoints) (hadj : ∀ u < numPoints, ∀ v ∈ adj u, v < numPoints)
    (harr : ∀ l x, x ∈ arrange l ↔ x ∈ l) {d : Nat} {s : BfsState} (h : BfsInv adj S cap d s)
    (hlt : s.nodeSet.length + s.curLevel.length < cap) :
    BfsInv adj S cap (d + 1) (bfsLevel usePartition disk t arrange cap s) ∧
      (bfsLevel usePartition disk t arrange cap s).nodeSet = s.nodeSet ++ s.curLevel := by
  obtain ⟨ns, cur⟩ := s
  have htake : cur.foldl takeId (ns, []) = (ns ++ cur, cur) := by
    simpa using @foldl_takeId cur ns [] h.nodup_level h.disjoint
  -- the level scans every neighbour of `cur_level`
  have hscan := exploreNbrs_spec ((arrange cur).flatMap adj)
    (@ScanInv.init cap (ns ++ cur) (by simpa using hlt))
  simp only [List.nil_append] at hscan
  have hseen : ∀ v, v ∈ (arrange cur).flatMap adj ↔ ∃ u ∈ cur, v ∈ adj u := by
    simp [List.mem_flatMap, harr]
  obtain ⟨hdone, hclosed⟩ := h.complete hlt
  set r := exploreNbrs cap (ns ++ cur) ([], false) ((arrange cur).flatMap adj)
  have hlev : bfsLevel usePartition disk t arrange cap ⟨ns, cur⟩ = ⟨ns ++ cur, r.1⟩ := by
    simp only [bfsLevel, htake,
      exploreLevel_eq hr fun n hn => (h.within n (.inr ((harr _ _).1 hn))).lt hS hadj, r]
  rw [hlev]
  refine ⟨⟨?_, hscan.nodup, fun x hx => (hscan.fresh x hx).1, hscan.le_cap, fun x hx => ?_,
    fun k hk x hx => ?_, fun hc => ?_⟩, rfl⟩
  · exact h.nodup_set.append h.nodup_level fun x hx hx' => h.disjoint x hx' hx
  · -- everything kept is at most `d + 1` hops away
    rcases hx with hx | hx
    · exact .inl (h.within x (List.mem_append.1 hx))
    · obtain ⟨u, hu, hxu⟩ := (hseen x).1 (hscan.fresh x hx).2
      exact .inr ⟨u, h.within u (.inr hu), hxu⟩
  · -- levels below `d + 1` are in `node_set`
    rcases Nat.lt_succ_iff_lt_or_eq.1 hk with hk | rfl
    · exact List.mem_append_left _ (h.below k hk x hx)
    · exact List.mem_append.2 (hdone x hx)
  · -- below the cap the scan ran to its end
    dsimp only at hc ⊢
    have hfin : r.2 = false := Bool.eq_false_iff.2 fun hf => by
      have := hscan.full hf; omega
    have hnew := (hscan.complete hfin).1
    have hnbr : ∀ u ∈ ns ++ cur, ∀ v ∈ adj u, v ∈ ns ++ cur ∨ v ∈ r.1 := by
      intro u hu v hv
      rcases List.mem_append.1 hu with hu | hu
      · exact .inl (List.mem_append.2 (hclosed u hu v hv))
      · by_cases hvn : v ∈ ns ++ cur
        · exact .inl hvn
        · exact .inr (hnew v ((hseen v).2 ⟨u, hu, hv⟩) hvn)
    refine ⟨fun x hx => ?_, hnbr⟩
    rcases hx with hx | ⟨u, hu, hxu⟩
    · exact .inl (List.mem_append.2 (hdone x hx))
    · exact hnbr u (List.mem_append.2 (hdone u hu)) x hxu

/-- (PROVED) From an invariant state, more levels of fuel than the cap has room for in
    `node_set` end the loop in an invariant state where the loop test fails. -/
theorem bfsLoop_spec (hr : NbrReadsOk usePartition disk t numPoints adj)
    (hS : ∀ x ∈ S, x < numPoints) (hadj : ∀ u < numPoints, ∀ v ∈ adj u, v < numPoints)
    (harr : ∀ l x, x ∈ arrange l ↔ x ∈ l) :
    ∀ (fuel d : Nat) (s : BfsState), BfsInv adj S cap d s → cap < s.nodeSet.length + fuel →
      ∃ s' d', bfsLoop usePartition disk t arrange cap fuel s = some s' ∧ BfsInv adj S cap d' s' ∧
        ¬ (s'.nodeSet.length + s'.curLevel.length < cap ∧ s'.curLevel ≠ [])
  | 0, _, _, h, hf => absurd h.le_cap (by omega)
  | fuel + 1, d, s, h, hf => by
    rw [bfsLoop]
    split_ifs with hc
    · obtain ⟨h', hns⟩ := h.level hr hS hadj harr hc.1
      have hpos := List.length_pos.2 hc.2
      exact bfsLoop_spec hr hS hadj harr fuel (d + 1) _ h' (by rw [hns, List.length_append]; omega)
    · exact ⟨s, d, rfl, h, hc⟩

/-- When the loop stops below the cap with an empty `cur_level`, `node_set` holds every id
    reachable from the seeds. -/
theorem BfsInv.reach_subset {d : Nat} {s : BfsState} (h : BfsInv adj S cap d s)
    (hlt : s.nodeSet.length + s.curLevel.length < cap) (hnil : s.curLevel = []) :
    ∀ k x, Within adj S k x → x ∈ s.nodeSet := by
  obtain ⟨hdone, hclosed⟩ := h.complete hlt
  have hin : ∀ x, x ∈ s.nodeSet ∨ x ∈ s.curLevel → x ∈ s.nodeSet := fun x hx =>
    hx.elim id fun hx => absurd (hnil ▸ hx) (List.not_mem_nil _)
  intro k
  induction k with
  | zero => exact fun x hx => hin x (hdone x (by simpa using hx.mono d))
  | succ k ih =>
    rintro x (hx | ⟨u, hu, hxu⟩)
    · exact ih x hx
    · exact hin x (hclosed u (ih u hu) x hxu)

end Loop

/-! ## `cache_bfs_levels` -/

/-- (PROVED) When every read of a node below `_num_points` succeeds, the seeds and every stored
    neighbour are below `_num_points`, then for every arrangement of the levels, every medoid
    list and filter-medoid lists and every `num_nodes_to_cache`, `cap + 1` levels of fuel
    suffice, and the node list is duplicate-free, holds at most `cap` nodes, exactly
    `cap` when `cap` distinct nodes are reachable from the seeds, and is the union of the
    complete BFS levels below some `d` and part of level `d`. -/
theorem cacheBfsLevels_spec {usePartition : Bool} {disk : DiskRecords V} {t : PartitionTables}
    {adj : Nat → List Nat} {arrange : List Nat → List Nat} {numPoints : Nat}
    (hr : NbrReadsOk usePartition disk t numPoints adj)
    (hadj : ∀ u < numPoints, ∀ v ∈ adj u, v < numPoints)
    (harr : ∀ l x, x ∈ arrange l ↔ x ∈ l) (tenpNodes numNodesToCache : Nat) (medoids : List Nat)
    (filterToMedoidIds : List (List Nat))
    (hseeds : ∀ x ∈ medoids ++ filterToMedoidIds.flatten, x < numPoints) {fuel : Nat}
    (hfuel : cacheCap numNodesToCache tenpNodes + 1 ≤ fuel) :
    ∃ nodeList, cacheBfsLevels usePartition disk t arrange tenpNodes numNodesToCache medoids
        filterToMedoidIds fuel = some nodeList ∧
      nodeList.Nodup ∧ nodeList.length ≤ cacheCap numNodesToCache tenpNodes ∧
      ((∃ R : List Nat, R.Nodup ∧ cacheCap numNodesToCache tenpNodes ≤ R.length ∧
          ∀ x ∈ R, ∃ k, Within adj (medoids ++ filterToMedoidIds.flatten) k x) →
        nodeList.length = cacheCap numNodesToCache tenpNodes) ∧
      ∃ d, (∀ k < d, ∀ x, Within adj (medoids ++ filterToMedoidIds.flatten) k x → x ∈ nodeList) ∧
        ∀ x ∈ nodeList, Within adj (medoids ++ filterToMedoidIds.flatten) d x := by
  obtain ⟨s, d, hs, h, hstop⟩ :=
    bfsLoop_spec hr hseeds hadj harr fuel 0 _ (seedLevel_inv medoids filterToMedoidIds)
    (by simpa using hfuel)
  refine ⟨s.nodeSet ++ s.curLevel, by simp [cacheBfsLevels, hs],
    h.nodup_set.append h.nodup_level fun x hx hx' => h.disjoint x hx' hx,
    by simpa using h.le_cap, fun ⟨R, hR, hcap, hreach⟩ => ?_, d,
    fun k hk x hx => List.mem_append_left _ (h.below k hk x hx),
    fun x hx => h.within x (List.mem_append.1 hx)⟩
  -- below the cap the loop stopped on an empty level, so every reachable node is in it
  rw [List.length_append]
  by_contra hne
  have hlt : s.nodeSet.length + s.curLevel.length < cacheCap numNodesToCache tenpNodes := by
    have := h.le_cap; omega
  have hnil : s.curLevel = [] := by
    by_contra hn; exact hstop ⟨hlt, hn⟩
  have hsub : R ⊆ s.nodeSet := fun x hx =>
    let ⟨k, hk⟩ := hreach x hx
    h.reach_subset hlt hnil k x hk
  have := (List.subperm_of_subset hR hsub).length_le
  omega

/-- A star: node `0` with neighbours `1 .. 4`. -/
def starDisk : DiskRecords Nat := ⟨id, fun u => if u = 0 then [1, 2, 3, 4] else []⟩

/-- The star in one partition: slot `j` of the sector holds node `j`'s neighbours. -/
def starPartitions : PartitionTables :=
  ⟨1, fun _ => 0, fun _ => List.range 5, 24, fun _ j => starDisk.nbrs j⟩

theorem starCache_spec :
    NbrReadsOk true starDisk starPartitions 5 starDisk.nbrs ∧
      NbrReadsOk false starDisk starPartitions 5 starDisk.nbrs ∧
      (∀ u < 5, ∀ v ∈ starDisk.nbrs u, v < 5) ∧ (∀ l x, x ∈ sortIds l ↔ x ∈ l) ∧
      (∀ x ∈ [0] ++ ([] : List (List Nat)).flatten, x < 5) ∧ cacheCap 3 10 + 1 ≤ 4 ∧
      ∀ usePartition : Bool,
        ∃ nodeList, cacheBfsLevels usePartition starDisk starPartitions sortIds 10 3 [0] [] 4 =
            some nodeList ∧
          nodeList.Nodup ∧ nodeList.length ≤ cacheCap 3 10 ∧
          ((∃ R : List Nat, R.Nodup ∧ cacheCap 3 10 ≤ R.length ∧
              ∀ x ∈ R, ∃ k, Within starDisk.nbrs ([0] ++ ([] : List (List Nat)).flatten) k x) →
            nodeList.length = cacheCap 3 10) ∧
          ∃ d, (∀ k < d, ∀ x, Within starDisk.nbrs ([0] ++ ([] : List (List Nat)).flatten) k x →
              x ∈ nodeList) ∧
            ∀ x ∈ nodeList, Within starDisk.nbrs ([0] ++ ([] : List (List Nat)).flatten) d x :=
  have hr : NbrReadsOk true starDisk starPartitions 5 starDisk.nbrs :=
    nbrReadsOk_partition (fun _ j _ => by simp only [starPartitions, List.get_eq_getElem,
      List.getElem_range]) (by decide)
  have hadj : ∀ u < 5, ∀ v ∈ starDisk.nbrs u, v < 5 := by decide
  ⟨hr, nbrReadsOk_default _ _ _, hadj, mem_sortIds, by decide, by decide, fun
    | true => cacheBfsLevels_spec hr hadj mem_sortIds 10 3 [0] [] (by decide) (by decide)
    | false => cacheBfsLevels_spec (nbrReadsOk_default _ _ _) hadj mem_sortIds 10 3 [0] []
        (by decide) (by decide)⟩

/-- The star's cache: the centre and, cut at the cap, two of its neighbours. -/
example : cacheBfsLevels true starDisk starPartitions sortIds 10 3 [0] [] 4 = some [0, 1, 2] := by
  decide

end DiskAnn
