import DiskAnn.Search.Outcome

/-
  DiskANN search: the cached-node path of a hop against the frontier path
  (`pq_flash_index.cpp`, lines 2318-2395 and 2410-2609).

  A cached node's full-retset distance comes from `_coord_cache`, and its adjacency is scored
  and admitted whole: the cached path never calls `prune_node_nbrs`
  (`expandCached_admits_all`). The frontier path prunes the adjacency first when recomputing.
  So a cache that holds exactly what the disk holds still changes the result of a query
  with pruning (`cachedBeamSearch_cache_changes_result`). In partition mode `load_cache_list`
  also caches zeroed coordinates (`loadCacheList_partition_coords`).
-/

namespace DiskAnn

variable {D V : Type} [LinearOrder D] [Zero D] {ix : SearchIndex D V} {p : SearchParams}
  {start : Nat}

/-- (PROVED) A cached node's expansion visits every id of its cached adjacency and makes no
    `prune_node_nbrs` call. -/
theorem expandCached_admits_all {u : Nat} {nbrs rest : List Nat} {s s' : SearchState D}
    (h : HopInv ix p start s (u :: rest)) (e : expandCached ix p u nbrs s = some s') :
    s'.pruneLog = s.pruneLog ∧ ∀ x ∈ nbrs, x ∈ s'.visited := by
  obtain ⟨r, hr, e⟩ := Option.bind_eq_some.1 e
  have hm := cachedNodeDist_spec hr
  have h₁ : HopInv ix p start r.2 (u :: rest) := by rw [hm]; exact h.setMemo _
  obtain ⟨-, -, -, hp, hall⟩ := scoreAndAdmit_inv (h₁.push r.1).toBookkeeping e
  exact ⟨hp.trans (by rw [hm]), hall⟩

/-- Node `0` with neighbours `1..11`. -/
def starGraph (u : Nat) : List Nat := if u = 0 then List.range' 1 11 else []

/-- The star with node distances falling as ids grow, and node cache `cache`. -/
def starIndex (cache : Nat → Option (List Nat)) : SearchIndex Nat Nat :=
  { graphIndex starGraph with
    nhoodCache := cache
    coordDist := fun v => 20 - v
    embDist := fun v => 20 - v }

/-- With recomputed neighbour distances and local pruning at `prune_ratio = 0.5`, caching
    node `0` with its on-disk adjacency changes the answer from `10` to `11`: the disk path
    prunes `11`, the worst by PQ distance, and the cached path admits it. -/
theorem cachedBeamSearch_cache_changes_result :
    ((cachedBeamSearch (starIndex fun u => if u = 0 then some (starGraph 0) else none)
        (graphParams 100 1 true false halfRatio) 20).toOption.map (·.out)) =
        some (some ([11], [9])) ∧
      ((cachedBeamSearch (starIndex fun _ => none)
        (graphParams 100 1 true false halfRatio) 20).toOption.map (·.out)) =
        some (some ([10], [10])) := by
  decide

end DiskAnn
