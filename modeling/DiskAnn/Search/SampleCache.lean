import Mathlib.Data.List.Sort
import DiskAnn.Search.Termination
import DiskAnn.Search.Parallel

/-
  DiskANN warm-up: `generate_cache_list_from_sample_queries` and the visit counter.

  Model. While `_count_visited_nodes` is set, each hop of `cached_beam_search` increments
  `_node_visit_counter[id].second` once for every node it pops (line 2201), cached or not;
  `countedBeamSearch` is the search with those ids beside its result, where an id past the
  counter's end is undefined behaviour. The sample queries run in an OpenMP loop
  (`parallelFor`: an exception escaping a sample search ends the program in
  `std::terminate`) and their increments are atomic, so the counter is a fold of `visitNode`
  over one interleaving of the runs' increment lists. The interleaving and `std::sort` (not
  stable, with the comparator `left.second > right.second`) are parameters. A sample is the
  index as its query sees it, with the label `generate_random_labels` drew for it; a missing
  sample file is `none`.

  Proved:
  - `hop_fullRetset`: a hop appends the nodes it pops to `full_retset`;
  - `countedRun_spec`, `countedBeamSearch_spec`: a successful counted search is the search,
    and its increments are its `full_retset` ids, each once (`full_nodup` of the loop
    invariant) and below the counter's end;
  - `visitCounter_interleaving`: under every interleaving each node's counter ends at its
    number of increments modulo `2^32`, none lost or applied twice;
  - `generateCacheList_most_visited`: below `2^32` samples, the cache list holds
    `num_nodes_to_cache` distinct nodes, each expanded by at least as many sample searches as
    any node left out, and counting is off again.

  Only `hop_fullRetset` and `countedLoop_spec` read the main loop.
-/

namespace DiskAnn

variable {D V : Type} [LinearOrder D] [Zero D]

/-! ## What a hop appends to `full_retset` -/

section Steps

variable {ix : SearchIndex D V} {p : SearchParams}

omit [Zero D] in
theorem scoreAndAdmit_fullRetset {nbrs : List Nat} {s s' : SearchState D}
    (e : scoreAndAdmit ix p nbrs s = some s') : s'.fullRetset = s.fullRetset := by
  obtain ⟨r, hr, e⟩ := Option.bind_eq_some.1 e
  rw [(admitNbrs_frame e).2.1, (scoreIds_spec hr).1]

theorem expandCached_fullRetset {u : Nat} {nbrs : List Nat} {s s' : SearchState D}
    (e : expandCached ix p u nbrs s = some s') : idsOf s'.fullRetset = idsOf s.fullRetset ++ [u] := by
  obtain ⟨r, hr, e⟩ := Option.bind_eq_some.1 e
  have hf : r.2.fullRetset = s.fullRetset := by rw [cachedNodeDist_spec hr]
  rw [scoreAndAdmit_fullRetset e, idsOf_append, hf]
  rfl

theorem expandFrontier_fullRetset {u : Nat} {sb sb' : SearchState D × List Nat}
    (e : expandFrontier ix p u sb = some sb') :
    idsOf sb'.1.fullRetset = idsOf sb.1.fullRetset ++ [u] := by
  obtain ⟨r, hr, e⟩ := Option.bind_eq_some.1 e
  have hf : r.2.fullRetset = sb.1.fullRetset := by rw [frontierNodeDist_spec hr]
  dsimp only at e
  split at e
  · cases e
    rw [idsOf_append, hf]
    rfl
  · obtain ⟨s', hs', rfl⟩ := Option.map_eq_some'.1 e
    rw [scoreAndAdmit_fullRetset hs', idsOf_append, hf]
    rfl

theorem expandCachedAll_fullRetset : ∀ {l : List (Nat × List Nat)} {s s' : SearchState D},
    expandCachedAll ix p l s = some s' → idsOf s'.fullRetset = idsOf s.fullRetset ++ l.map (·.1)
  | [], _, _, e => by cases e; simp
  | (u, nbrs) :: l, _, _, e => by
    obtain ⟨s₁, e₁, e⟩ := Option.bind_eq_some.1 e
    rw [expandCachedAll_fullRetset e, expandCached_fullRetset e₁, List.map_cons, List.append_assoc]
    rfl

theorem expandFrontierAll_fullRetset : ∀ {l : List Nat} {sb sb' : SearchState D × List Nat},
    expandFrontierAll ix p l sb = some sb' → idsOf sb'.1.fullRetset = idsOf sb.1.fullRetset ++ l
  | [], _, _, e => by cases e; simp
  | u :: l, _, _, e => by
    obtain ⟨sb₁, e₁, e⟩ := Option.bind_eq_some.1 e
    rw [expandFrontierAll_fullRetset e, expandFrontier_fullRetset e₁, List.append_assoc]
    rfl

/-- A hop appends the nodes it pops to `full_retset`: the cached ones, then the others. -/
theorem hop_fullRetset {s s' : SearchState D} (e : hop ix p s = some s') :
    ∃ l, l.Perm (popBeam p.beamWidth s.retset).1 ∧ idsOf s'.fullRetset = idsOf s.fullRetset ++ l := by
  simp only [DiskAnn.hop, Option.bind_eq_some, Option.map_eq_some'] at e
  obtain ⟨s₂, e₂, ⟨s₃, b⟩, e₃, s₄, e₄, rfl⟩ := e
  refine ⟨_, cachedNhoods_frontierOf_perm ix _, ?_⟩
  have h₄ : s₄.fullRetset = s₃.fullRetset := by
    split at e₄
    · exact (scoreAndAdmit_fullRetset e₄ :)
    · cases e₄; rfl
  have h₃ := expandFrontierAll_fullRetset e₃
  have h₂ := expandCachedAll_fullRetset e₂
  simp only at h₂ h₃ ⊢
  rw [h₄, h₃, h₂, List.append_assoc]

end Steps

/-! ## The search with `_count_visited_nodes` set -/

/-- The main loop while `_count_visited_nodes` is set: besides the hop, the ids whose counters
    its `fetch_add(1)` calls increment, in the order the calls run (line 2201: one per popped
    node). -/
def countedLoop (ix : SearchIndex D V) (p : SearchParams) :
    Nat → SearchState D → List Nat → Option (SearchState D × List Nat)
  | 0, s, vs => some (s, vs)
  | fuel + 1, s, vs =>
    if loopGuard p s then
      (hop ix p s).bind fun s' => countedLoop ix p fuel s' (vs ++ (popBeam p.beamWidth s.retset).1)
    else some (s, vs)

/-- The counted main loop, ended as `runLoop` ends it, on a counter of `numPoints` entries: an
    increment past the counter's end is undefined behaviour in the loop, before anything after
    the loop runs. -/
def countedRun (ix : SearchIndex D V) (p : SearchParams) (numPoints fuel : Nat)
    (s₀ : SearchState D) : Except SearchFault (SearchState D × List Nat) :=
  match countedLoop ix p fuel s₀ [] with
  | none => throw (.undefined "the main loop left defined behaviour")
  | some (s, visits) =>
    if visits.any (numPoints ≤ ·) then throw (.undefined "_node_visit_counter indexed past its end")
    else if loopGuard p s then throw .outOfFuel else pure (s, visits)

/-- `cached_beam_search` while `_count_visited_nodes` is set, on a counter of `numPoints`
    entries: its result, and the ids whose counters it increments. -/
def countedBeamSearch (ix : SearchIndex D V) (p : SearchParams) (numPoints fuel : Nat) :
    Except SearchFault (SearchResult D × List Nat) := do
  if p.beamWidth > divRoundUp ix.maxNodeLen sectorLen * ix.maxNSectorReads then
    throw (.thrown "Beamwidth can not be higher than defaults::MAX_N_SECTOR_READS")
  let (_, s₀) ← seedSearch ix p
  let (s, visits) ← countedRun ix p numPoints fuel s₀
  let r ← finishSearch ix p s
  pure (r, visits)

section Counting

variable {ix : SearchIndex D V} {p : SearchParams}

/-- Counting visits changes nothing in the loop, and it counts the nodes the loop appends to
    `full_retset`. -/
theorem countedLoop_spec : ∀ (fuel : Nat) (s : SearchState D) (vs : List Nat),
    (countedLoop ix p fuel s vs).map Prod.fst = searchLoop ix p fuel s ∧
      ∀ r, countedLoop ix p fuel s vs = some r →
        ∃ l₁ l₂, r.2 = vs ++ l₁ ∧ idsOf r.1.fullRetset = idsOf s.fullRetset ++ l₂ ∧ l₁.Perm l₂
  | 0, s, vs => ⟨rfl, fun r e => by cases e; exact ⟨[], [], by simp, by simp, .nil⟩⟩
  | fuel + 1, s, vs => by
    simp only [countedLoop, searchLoop]
    split
    · cases hh : hop ix p s with
      | none => exact ⟨rfl, fun r e => by cases e⟩
      | some s' =>
        obtain ⟨l, hl, hf⟩ := hop_fullRetset hh
        obtain ⟨ih₁, ih₂⟩ := countedLoop_spec fuel s' (vs ++ (popBeam p.beamWidth s.retset).1)
        refine ⟨ih₁, fun r e => ?_⟩
        obtain ⟨l₁, l₂, h₁, h₂, h₃⟩ := ih₂ r e
        exact ⟨_ ++ l₁, l ++ l₂, by rw [h₁, List.append_assoc], by rw [h₂, hf, List.append_assoc],
          hl.symm.append h₃⟩
    · exact ⟨rfl, fun r e => by cases e; exact ⟨[], [], by simp, by simp, .nil⟩⟩

/-- A successful counted loop is the loop, its increments are the ids it appended to
    `full_retset`, and each is below the counter's end. -/
theorem countedRun_spec {numPoints fuel : Nat} {s₀ s : SearchState D} {vs : List Nat}
    (e : countedRun ix p numPoints fuel s₀ = .ok (s, vs)) :
    runLoop ix p fuel s₀ = .ok s ∧
      (∃ l, idsOf s.fullRetset = idsOf s₀.fullRetset ++ l ∧ vs.Perm l) ∧
      ∀ x ∈ vs, x < numPoints := by
  obtain ⟨hl₁, hl₂⟩ := @countedLoop_spec _ _ _ _ ix p fuel s₀ []
  unfold countedRun at e
  cases hc : countedLoop ix p fuel s₀ [] with
  | none => rw [hc] at e; cases e
  | some sv =>
    obtain ⟨l₁, l₂, h₁, h₂, h₃⟩ := hl₂ _ hc
    rw [hc, Option.map_some'] at hl₁
    rw [hc] at e
    dsimp only at e
    split at e
    · cases e
    rename_i hrange
    split at e
    · cases e
    rename_i hguard
    cases e
    rw [List.nil_append] at h₁
    subst h₁
    refine ⟨by rw [runLoop, ← hl₁]; exact if_neg hguard, ⟨l₂, h₂, h₃⟩, fun x hx => ?_⟩
    simpa using fun h => hrange (List.any_eq_true.2 ⟨x, hx, decide_eq_true h⟩)

/-- A successful sample search with counting on is the search, and it counts each node it
    expanded once, below the counter's end. -/
theorem countedBeamSearch_spec {numPoints fuel : Nat} {r : SearchResult D} {vs : List Nat}
    (e : countedBeamSearch ix p numPoints fuel = .ok (r, vs)) :
    cachedBeamSearch ix p fuel = .ok r ∧ vs.Perm (idsOf r.state.fullRetset) ∧
      (idsOf r.state.fullRetset).Nodup ∧ ∀ x ∈ vs, x < numPoints := by
  unfold countedBeamSearch at e
  split at e
  · cases e
  rename_i hbw
  obtain ⟨_, -, e⟩ := except_bind_eq_ok.1 e
  obtain ⟨⟨_, s₀⟩, hseed, e⟩ := except_bind_eq_ok.1 e
  obtain ⟨⟨s, _⟩, hrun, e⟩ := except_bind_eq_ok.1 e
  obtain ⟨_, hf, e⟩ := except_bind_eq_ok.1 e
  cases e
  obtain ⟨hloop, ⟨l, hl, hperm⟩, hlt⟩ := countedRun_spec hrun
  rw [(seedSearch_fresh hseed).2.2, idsOf_nil, List.nil_append] at hl
  rw [(finishSearch_spec hf).1, hl]
  refine ⟨?_, hperm, hl ▸ (searchLoop_inv (seedSearch_inv hseed) (runLoop_spec hloop).1).full_nodup,
    hlt⟩
  unfold cachedBeamSearch
  simp only [if_neg hbw, bind, Except.bind, pure, Except.pure, hseed, hloop, hf]

end Counting

/-! ## The visit counter -/

/-- `_node_visit_counter` after its reset (lines 406-412): entry `i` is `(i, 0)`. -/
def freshCounter (numPoints : Nat) : List (Nat × Nat) := (List.range numPoints).map (·, 0)

/-- One atomic `fetch_add(1)` on `_node_visit_counter[id].second`, a `uint32_t`; `none` past
    the vector's end. -/
def visitNode (counter : List (Nat × Nat)) (id : Nat) : Option (List (Nat × Nat)) :=
  if id < counter.length then some (counter.modify (fun e => (e.1, u32 (e.2 + 1))) id) else none

theorem visitNode_range (n : Nat) (c : Nat → Nat) (id : Nat) :
    visitNode ((List.range n).map fun i => (i, u32 (c i))) id =
      if id < n then some ((List.range n).map fun i => (i, u32 (c i + if i = id then 1 else 0)))
      else none := by
  simp only [visitNode, List.length_map, List.length_range]
  split
  · refine congrArg some (List.ext_getElem (by simp) fun m h₁ h₂ => ?_)
    simp only [List.getElem_modify, List.getElem_map, List.getElem_range]
    split
    · subst id; simp [u32, Nat.mod_add_mod]
    · simp [Ne.symm ‹_›]
  · rfl

theorem foldlM_visitNode (n : Nat) : ∀ (sched : List Nat) (c : Nat → Nat),
    sched.foldlM visitNode ((List.range n).map fun i => (i, u32 (c i))) =
      if ∀ x ∈ sched, x < n then some ((List.range n).map fun i => (i, u32 (c i + sched.count i)))
      else none
  | [], c => by simp
  | x :: sched, c => by
    rw [List.foldlM_cons, visitNode_range]
    by_cases hx : x < n
    · rw [if_pos hx]
      show (sched.foldlM visitNode ((List.range n).map fun i => (i, u32 (c i + if i = x then 1 else 0)))) = _
      rw [foldlM_visitNode n sched]
      simp only [List.forall_mem_cons, hx, true_and, List.count_cons, beq_iff_eq]
      split
      · congr 1
        refine List.map_congr_left fun i _ => ?_
        by_cases h : i = x
        · simp [h, Nat.add_assoc, Nat.add_comm 1]
        · simp [h, Ne.symm h]
      · rfl
    · rw [if_neg hx, if_neg fun h => hx (h x (List.mem_cons_self _ _))]
      rfl

theorem foldlM_visitNode_fresh (n : Nat) (sched : List Nat) :
    sched.foldlM visitNode (freshCounter n) =
      if ∀ x ∈ sched, x < n then some ((List.range n).map fun i => (i, u32 (sched.count i)))
      else none := by
  simpa only [Nat.zero_add] using foldlM_visitNode n sched fun _ => 0

/-- Whatever the order in which the sample searches' atomic increments reach
    `_node_visit_counter`, each node ends with the number of increments of it, modulo `2^32`:
    none is lost or applied twice. An id past the vector's end is undefined. -/
theorem visitCounter_interleaving {n : Nat} {runs : List (List Nat)} {sched : List Nat}
    (hsched : sched.Perm runs.flatten) :
    sched.foldlM visitNode (freshCounter n) =
      if ∀ x ∈ runs.flatten, x < n then
        some ((List.range n).map fun i => (i, u32 (runs.map (List.count i)).sum))
      else none := by
  simp only [foldlM_visitNode_fresh, hsched.mem_iff, hsched.count_eq, List.count_flatten]

/-! ## `generate_cache_list_from_sample_queries` -/

/-- The members that `generate_cache_list_from_sample_queries` reads and writes, with its
    output `node_list`. -/
structure Warmup where
  nodeList : List Nat
  countVisitedNodes : Bool
  nodeVisitCounter : List (Nat × Nat)

/-- A sample query's search (lines 452-453): `k = 1`, `io_limit` the `uint32_t` maximum of the
    overload, no reorder, and the header's defaults. -/
def sampleParams (lSearch beamWidth : Nat) (filtered : Bool) (label : Nat) : SearchParams where
  kSearch := 1
  lSearch := lSearch
  beamWidth := beamWidth
  useFilter := filtered
  filterLabel := label
  ioLimit := 2 ^ 32 - 1
  useReorderData := false
  deferredFetch := false
  skipSearchReorder := false
  recomputeBeighborEmbeddings := false
  dedupNodeDis := false
  pruneRatio := .zero
  batchRecompute := false
  globalPruning := false

/-- `generate_cache_list_from_sample_queries`. A sample is the index as its query sees it, with
    the label `generate_random_labels` drew for it; `none` is a missing `sample_bin`, and
    `filtered` is `_filter_to_medoid_ids.size() != 0`. The searches run in parallel:
    `interleave` is the order their increments reach the counter in, and `sortCounter` is
    `std::sort` with the comparator `left.second > right.second`. -/
def generateCacheListFromSampleQueries (numPoints lSearch beamWidth numNodesToCache fuel : Nat)
    (filtered : Bool) (samples : Option (List (SearchIndex D V × Nat)))
    (interleave : List (List Nat) → List Nat) (sortCounter : List (Nat × Nat) → List (Nat × Nat))
    (w : Warmup) : Except LoopFault Warmup :=
  if numNodesToCache ≥ numPoints then
    pure { w with nodeList := List.range numPoints }
  else
    let w := { w with countVisitedNodes := true, nodeVisitCounter := freshCounter numPoints }
    match samples with
    | none => pure w
    | some qs => do
      let runs ← parallelFor (qs.map fun q =>
        countedBeamSearch q.1 (sampleParams lSearch beamWidth filtered q.2) numPoints fuel)
      match (interleave (runs.map Prod.snd)).foldlM visitNode w.nodeVisitCounter with
      | none => throw .undefined
      | some counter =>
        let sorted := sortCounter counter
        pure { w with
          nodeList := (sorted.take (min numNodesToCache sorted.length)).map Prod.fst
          countVisitedNodes := false
          nodeVisitCounter := sorted }

/-- The number of sample searches that expanded node `i`. -/
def visitCount (rs : List (SearchResult D)) (i : Nat) : Nat :=
  rs.countP fun r => decide (i ∈ idsOf r.state.fullRetset)

theorem mapM_except_fst {α β γ ε : Type} {f : α → Except ε (β × γ)} {g : α → Except ε β}
    (hg : ∀ {a b}, f a = .ok b → g a = .ok b.1) :
    ∀ {l : List α} {bs : List (β × γ)}, l.mapM f = .ok bs →
      l.mapM g = .ok (bs.map Prod.fst) ∧ (∀ b ∈ bs, ∃ a, f a = .ok b) ∧ bs.length = l.length
  | [], _, e => by cases e; exact ⟨rfl, by simp, rfl⟩
  | a :: l, _, e => by
    rw [List.mapM_cons] at e
    obtain ⟨b, hb, e⟩ := except_bind_eq_ok.1 e
    obtain ⟨bs, hbs, e⟩ := except_bind_eq_ok.1 e
    cases e
    obtain ⟨ih₁, ih₂, ih₃⟩ := mapM_except_fst hg hbs
    refine ⟨?_, ?_, congrArg (· + 1) ih₃⟩
    · rw [List.mapM_cons, hg hb, ih₁]
      rfl
    · simp only [List.mem_cons, forall_eq_or_imp]
      exact ⟨⟨a, hb⟩, ih₂⟩

omit [LinearOrder D] [Zero D] in
/-- Counted over the runs, a node's increments are the number of runs that expanded it. -/
theorem sum_count_visits {runs : List (SearchResult D × List Nat)}
    (h : ∀ r ∈ runs, r.2.Perm (idsOf r.1.state.fullRetset) ∧ (idsOf r.1.state.fullRetset).Nodup)
    (i : Nat) : ((runs.map Prod.snd).map (List.count i)).sum = visitCount (runs.map Prod.fst) i := by
  induction runs with
  | nil => rfl
  | cons r runs ih =>
    obtain ⟨hp, hd⟩ := h r (List.mem_cons_self _ _)
    simp only [List.map_cons, List.sum_cons, visitCount, List.countP_cons, hp.count_eq,
      List.count_eq_of_nodup hd]
    rw [ih fun r hr => h r (List.mem_cons_of_mem _ hr)]
    by_cases hi : i ∈ idsOf r.1.state.fullRetset <;> simp [hi, visitCount, Nat.add_comm]

theorem top_of_sorted_take {l : List (Nat × Nat)} {k : Nat} (hl : l.Sorted fun a b => b.2 ≤ a.2)
    {a b : Nat × Nat} (ha : a ∈ l.take k) (hb : b ∈ l) (hb' : b.1 ∉ (l.take k).map Prod.fst) :
    b.2 ≤ a.2 := by
  rw [← List.take_append_drop k l] at hl hb
  have hb : b ∈ l.drop k :=
    (List.mem_append.1 hb).resolve_left fun h => hb' (List.mem_map_of_mem _ h)
  exact (List.pairwise_append.1 hl).2.2 a ha b hb

/-- The first `k` ids of a counter of the nodes below `n` sorted by descending count: `k`
    distinct nodes below `n`, none counted less than a node left out. -/
theorem take_sorted_counter {n k : Nat} {c : Nat → Nat} {S : List (Nat × Nat)}
    (hperm : S.Perm ((List.range n).map fun i => (i, c i)))
    (hsorted : S.Sorted fun a b => b.2 ≤ a.2) (hk : k ≤ n) :
    ((S.take k).map Prod.fst).length = k ∧ ((S.take k).map Prod.fst).Nodup ∧
      (∀ i ∈ (S.take k).map Prod.fst, i < n) ∧
      ∀ i ∈ (S.take k).map Prod.fst, ∀ j < n, j ∉ (S.take k).map Prod.fst → c j ≤ c i := by
  have hS : ∀ e ∈ S, e.1 < n ∧ e.2 = c e.1 := fun e he => by
    obtain ⟨i, hi, rfl⟩ := List.mem_map.1 (hperm.subset he)
    exact ⟨List.mem_range.1 hi, rfl⟩
  have hfst : (S.map Prod.fst).Perm (List.range n) := by
    simpa only [List.map_map, Function.comp_def, List.map_id'] using hperm.map Prod.fst
  refine ⟨by simp [hperm.length_eq, hk], ?_, ?_, ?_⟩
  · rw [List.map_take]
    exact (hfst.nodup_iff.2 (List.nodup_range _)).sublist (List.take_sublist _ _)
  · intro i hi
    obtain ⟨a, ha, rfl⟩ := List.mem_map.1 hi
    exact (hS a (List.mem_of_mem_take ha)).1
  · intro i hi j hj hj'
    obtain ⟨a, ha, rfl⟩ := List.mem_map.1 hi
    obtain ⟨b, hb, rfl⟩ := List.mem_map.1 (hfst.mem_iff.2 (List.mem_range.2 hj))
    rw [← (hS a (List.mem_of_mem_take ha)).2, ← (hS b hb).2]
    exact top_of_sorted_take hsorted ha hb hj'

/-- (PROVED) With `num_nodes_to_cache` below `_num_points`, fewer than `2^32` sample queries
    and any order of the searches' increments, a successful warm-up lists
    `num_nodes_to_cache` distinct ids below `_num_points`, turns counting off, and every
    listed node was expanded by at least as many sample searches as any node left out. -/
theorem generateCacheList_most_visited {numPoints lSearch beamWidth k fuel : Nat}
    {filtered : Bool} {qs : List (SearchIndex D V × Nat)}
    {interleave : List (List Nat) → List Nat} {sortCounter : List (Nat × Nat) → List (Nat × Nat)}
    {w w' : Warmup}
    (hint : ∀ ls, (interleave ls).Perm ls.flatten)
    (hsort : ∀ l, (sortCounter l).Perm l ∧ (sortCounter l).Sorted fun a b => b.2 ≤ a.2)
    (hk : k < numPoints) (hqs : qs.length < 2 ^ 32)
    (e : generateCacheListFromSampleQueries numPoints lSearch beamWidth k fuel filtered (some qs)
      interleave sortCounter w = .ok w') :
    ∃ rs, qs.mapM (fun q => cachedBeamSearch q.1 (sampleParams lSearch beamWidth filtered q.2) fuel)
        = .ok rs ∧
      w'.countVisitedNodes = false ∧ w'.nodeList.length = k ∧ w'.nodeList.Nodup ∧
      (∀ i ∈ w'.nodeList, i < numPoints) ∧
      ∀ i ∈ w'.nodeList, ∀ j < numPoints, j ∉ w'.nodeList → visitCount rs j ≤ visitCount rs i := by
  unfold generateCacheListFromSampleQueries at e
  rw [if_neg (Nat.not_le.2 hk)] at e
  dsimp only at e
  obtain ⟨runs, hruns, e⟩ := except_bind_eq_ok.1 e
  obtain ⟨hrs, hmem, hlen⟩ :=
    mapM_except_fst (fun h => (countedBeamSearch_spec h).1) (parallelFor_map_eq_ok.1 hruns)
  refine ⟨_, hrs, ?_⟩
  have hvis : ∀ r ∈ runs, r.2.Perm (idsOf r.1.state.fullRetset) ∧ (idsOf r.1.state.fullRetset).Nodup :=
    fun r hr => let ⟨_, ha⟩ := hmem r hr; (countedBeamSearch_spec ha).2.imp_right And.left
  split at e
  · cases e
  rename_i counter hc
  cases e
  rw [foldlM_visitNode_fresh] at hc
  split at hc
  case isFalse => cases hc
  cases hc
  set rs := runs.map Prod.fst
  have hcnt : ∀ i, u32 ((interleave (runs.map Prod.snd)).count i) = visitCount rs i := fun i => by
    rw [(hint _).count_eq, List.count_flatten, sum_count_visits hvis, u32, Nat.mod_eq_of_lt]
    exact lt_of_le_of_lt (List.countP_le_length _) (by rw [List.length_map, hlen]; exact hqs)
  simp only [hcnt]
  obtain ⟨hperm, hsorted⟩ := hsort ((List.range numPoints).map fun i => (i, visitCount rs i))
  rw [Nat.min_eq_left (by rw [hperm.length_eq]; simpa using hk.le)]
  exact ⟨trivial, take_sorted_counter hperm hsorted hk.le⟩

/-- A sort meeting the postcondition of `std::sort` with the comparator
    `left.second > right.second`. -/
def sortByVisits (l : List (Nat × Nat)) : List (Nat × Nat) :=
  l.mergeSort fun a b => decide (b.2 ≤ a.2)

theorem sortByVisits_spec (l : List (Nat × Nat)) :
    (sortByVisits l).Perm l ∧ (sortByVisits l).Sorted fun a b => b.2 ≤ a.2 :=
  ⟨List.mergeSort_perm _ _,
    (List.sorted_mergeSort (fun _ _ _ h₁ h₂ => by simp only [decide_eq_true_eq] at *; omega)
      (fun a b => by simpa only [Bool.or_eq_true, decide_eq_true_eq] using Nat.le_total b.2 a.2)
      l).imp fun h => of_decide_eq_true h⟩

/-- One sample query on the fork graph, caching one of its three nodes. -/
theorem forkSample_cache_most_visited :
    (∀ ls : List (List Nat), ls.flatten.Perm ls.flatten) ∧
      (∀ l, (sortByVisits l).Perm l ∧ (sortByVisits l).Sorted fun a b => b.2 ≤ a.2) ∧
      1 < 3 ∧ [(graphIndex forkGraph, 0)].length < 2 ^ 32 ∧
      ∃ w', generateCacheListFromSampleQueries 3 20 2 1 5 false (some [(graphIndex forkGraph, 0)])
          List.flatten sortByVisits ⟨[], false, []⟩ = .ok w' ∧
        ∃ rs, [(graphIndex forkGraph, 0)].mapM
            (fun q => cachedBeamSearch q.1 (sampleParams 20 2 false q.2) 5) = .ok rs ∧
          w'.countVisitedNodes = false ∧ w'.nodeList.length = 1 ∧ w'.nodeList.Nodup ∧
          (∀ i ∈ w'.nodeList, i < 3) ∧
          ∀ i ∈ w'.nodeList, ∀ j < 3, j ∉ w'.nodeList → visitCount rs j ≤ visitCount rs i :=
  let ⟨w', h⟩ := exists_ok_of_isOk (x := generateCacheListFromSampleQueries 3 20 2 1 5 false
    (some [(graphIndex forkGraph, 0)]) List.flatten sortByVisits ⟨[], false, []⟩) (by decide)
  ⟨fun _ => .refl _, sortByVisits_spec, by decide, by decide, w', h,
    generateCacheList_most_visited (fun _ => .refl _) sortByVisits_spec (by decide) (by decide) h⟩

end DiskAnn
