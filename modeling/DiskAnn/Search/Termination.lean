import DiskAnn.Search.Outcome

/-
  DiskANN search: termination of the main loop of `cached_beam_search`
  (`pq_flash_index.cpp`, lines 1786-1789 and 2172-2203).

  The guard at the top bounds `beam_width` from above only. With `beam_width ≥ 1` every hop
  pops at least one unexpanded node and appends every popped node to `full_retset`
  (`IdsSeenBelow.hop`), whose ids are distinct (`DiskAnn.Search.Invariants`). When every
  adjacency id is below `N` (the `uint32_t` ids, for `N = 2^32`), every id a run inserts is
  the start or below `N`, so `full_retset` holds at most `N + 1` entries
  (`fullRetset_length_le`) and the loop stops within `N + 2` hops (`runLoop_terminates`).
  With `beam_width = 0`, which the guard accepts, a hop pops nothing and changes neither
  `retset` nor `num_ios`, so the loop never stops (`cachedBeamSearch_zero_beam_never_ends`).
-/

namespace DiskAnn

variable {D V : Type} [LinearOrder D] [Zero D] {ix : SearchIndex D V} {p : SearchParams}

/-- Every id an adjacency list holds is below `N` (`N = 2^32` for the code's `uint32_t` ids). -/
structure IdsBelow (ix : SearchIndex D V) (N : Nat) : Prop where
  disk : ∀ u, ∀ v ∈ ix.diskNbrs u, v < N
  cache : ∀ u nbrs, ix.nhoodCache u = some nbrs → ∀ v ∈ nbrs, v < N

/-- Every inserted id is the start or below `N`, and so is every heap entry's id. -/
structure IdsSeenBelow (N start : Nat) (s : SearchState D) : Prop where
  inserted : ∀ x ∈ s.inserted, x = start ∨ x < N
  heap : ∀ e ∈ s.aqPriorityQueue, e.2 < N

/-! ## Where inserted ids come from -/

section Steps

variable {N start : Nat}

omit [Zero D] in
theorem IdsSeenBelow.scoreAndAdmit {nbrs : List Nat} {s s' : SearchState D}
    (h : IdsSeenBelow N start s) (hn : ∀ x ∈ nbrs, x < N)
    (e : scoreAndAdmit ix p nbrs s = some s') :
    IdsSeenBelow N start s' ∧ s'.fullRetset = s.fullRetset := by
  obtain ⟨r, hr, e⟩ := Option.bind_eq_some.1 e
  have hs := (scoreIds_spec hr).1
  have hf₀ : r.2.fullRetset = s.fullRetset := by rw [hs]
  have hi₀ : r.2.inserted = s.inserted := by rw [hs]
  have ha₀ : r.2.aqPriorityQueue = s.aqPriorityQueue := by rw [hs]
  obtain ⟨-, hf, ha, hi⟩ := admitNbrs_frame e
  refine ⟨⟨fun x hx => ?_, fun e he => h.heap e (by rw [← ha₀, ← ha]; exact he)⟩, hf.trans hf₀⟩
  rcases hi x hx with hx | hx
  · exact h.inserted x (hi₀ ▸ hx)
  · obtain ⟨y, hy, rfl⟩ := List.mem_map.1 hx
    exact .inr (hn _ (List.of_mem_zip hy).1)

omit [Zero D] in
theorem IdsSeenBelow.pruneThenAdmit {nbrs : List Nat} {s s' : SearchState D}
    (h : IdsSeenBelow N start s) (hn : ∀ x ∈ nbrs, x < N)
    (e : pruneThenAdmit ix p nbrs s = some s') :
    IdsSeenBelow N start s' ∧ s'.fullRetset = s.fullRetset := by
  unfold DiskAnn.pruneThenAdmit at e
  obtain ⟨hr, ha⟩ := pruneNodeNbrs_ids_of (· < N) p.recomputeBeighborEmbeddings p.globalPruning
    ix.pqDist p.pruneRatio s.visited hn h.heap
  obtain ⟨h', hf⟩ := IdsSeenBelow.scoreAndAdmit (by exact ⟨h.inserted, ha⟩) hr e
  exact ⟨h', hf⟩

theorem IdsSeenBelow.expandCached {u : Nat} {nbrs : List Nat} {s s' : SearchState D}
    (h : IdsSeenBelow N start s) (hn : ∀ x ∈ nbrs, x < N)
    (e : expandCached ix p u nbrs s = some s') :
    IdsSeenBelow N start s' ∧ s'.fullRetset.length = s.fullRetset.length + 1 := by
  obtain ⟨r, hr, e⟩ := Option.bind_eq_some.1 e
  have hm := cachedNodeDist_spec hr
  have hf₀ : r.2.fullRetset = s.fullRetset := by rw [hm]
  have h₁ : IdsSeenBelow N start { r.2 with fullRetset := r.2.fullRetset ++ [⟨u, r.1, false⟩] } := by
    rw [hm]; exact ⟨h.inserted, h.heap⟩
  obtain ⟨h', hf⟩ := h₁.scoreAndAdmit hn e
  exact ⟨h', by rw [hf]; simp [hf₀]⟩

theorem IdsSeenBelow.expandFrontier (hids : IdsBelow ix N) {u : Nat}
    {sb sb' : SearchState D × List Nat} (h : IdsSeenBelow N start sb.1) (hb : ∀ x ∈ sb.2, x < N)
    (e : expandFrontier ix p u sb = some sb') :
    IdsSeenBelow N start sb'.1 ∧ (∀ x ∈ sb'.2, x < N) ∧
      sb'.1.fullRetset.length = sb.1.fullRetset.length + 1 := by
  obtain ⟨r, hr, e⟩ := Option.bind_eq_some.1 e
  have hm := frontierNodeDist_spec hr
  have hf₀ : r.2.fullRetset = sb.1.fullRetset := by rw [hm]
  have h₁ : IdsSeenBelow N start { r.2 with fullRetset := r.2.fullRetset ++ [⟨u, r.1, false⟩] } := by
    rw [hm]; exact ⟨h.inserted, h.heap⟩
  dsimp only at e
  split at e
  · cases e
    refine ⟨h₁, fun x hx => ?_, by simp [hf₀]⟩
    rcases List.mem_append.1 hx with hx | hx
    · exact hb x hx
    · exact hids.disk u x hx
  · obtain ⟨s', hs', rfl⟩ := Option.map_eq_some'.1 e
    obtain ⟨h', hf⟩ := h₁.pruneThenAdmit (hids.disk u) hs'
    exact ⟨h', hb, by rw [hf]; simp [hf₀]⟩

theorem IdsSeenBelow.expandCachedAll : ∀ {l : List (Nat × List Nat)} {s s' : SearchState D},
    (∀ x ∈ l, ∀ v ∈ x.2, v < N) → expandCachedAll ix p l s = some s' → IdsSeenBelow N start s →
      IdsSeenBelow N start s' ∧ s'.fullRetset.length = s.fullRetset.length + l.length
  | [], _, _, _, e, h => by cases e; exact ⟨h, rfl⟩
  | (u, nbrs) :: l, _, _, hl, e, h => by
    obtain ⟨s₁, e₁, e⟩ := Option.bind_eq_some.1 e
    obtain ⟨h₁, n₁⟩ := h.expandCached (hl _ (List.mem_cons_self _ _)) e₁
    obtain ⟨h', n'⟩ := IdsSeenBelow.expandCachedAll (fun x hx => hl x (List.mem_cons_of_mem _ hx))
      e h₁
    exact ⟨h', by rw [n', n₁, List.length_cons]; omega⟩

theorem IdsSeenBelow.expandFrontierAll (hids : IdsBelow ix N) :
    ∀ {l : List Nat} {sb sb' : SearchState D × List Nat},
      IdsSeenBelow N start sb.1 → (∀ x ∈ sb.2, x < N) → expandFrontierAll ix p l sb = some sb' →
        IdsSeenBelow N start sb'.1 ∧ (∀ x ∈ sb'.2, x < N) ∧
          sb'.1.fullRetset.length = sb.1.fullRetset.length + l.length
  | [], _, _, h, hb, e => by cases e; exact ⟨h, hb, rfl⟩
  | u :: l, _, _, h, hb, e => by
    obtain ⟨sb₁, e₁, e⟩ := Option.bind_eq_some.1 e
    obtain ⟨h₁, hb₁, n₁⟩ := h.expandFrontier hids hb e₁
    obtain ⟨h', hb', n'⟩ := IdsSeenBelow.expandFrontierAll hids h₁ hb₁ e
    exact ⟨h', hb', by rw [n', n₁, List.length_cons]; omega⟩

omit [LinearOrder D] [Zero D] in
theorem mem_cachedNhoods {beam : List Nat} {x : Nat × List Nat} (hx : x ∈ cachedNhoods ix beam) :
    ix.nhoodCache x.1 = some x.2 := by
  obtain ⟨u, -, hu⟩ := List.mem_filterMap.1 hx
  obtain ⟨nbrs, hn, rfl⟩ := Option.map_eq_some'.1 hu
  exact hn

/-- (PROVED) A hop keeps every seen id below the bound and appends every popped node to
    `full_retset`. -/
theorem IdsSeenBelow.hop (hids : IdsBelow ix N) {s s' : SearchState D}
    (h : IdsSeenBelow N start s) (e : hop ix p s = some s') :
    IdsSeenBelow N start s' ∧
      s'.fullRetset.length = s.fullRetset.length + (popBeam p.beamWidth s.retset).1.length := by
  simp only [DiskAnn.hop, Option.bind_eq_some, Option.map_eq_some'] at e
  obtain ⟨s₂, e₂, ⟨s₃, b⟩, e₃, s₄, e₄, rfl⟩ := e
  have hperm := (cachedNhoods_frontierOf_perm ix (popBeam p.beamWidth s.retset).1).length_eq
  rw [List.length_append, List.length_map] at hperm
  obtain ⟨h₂, n₂⟩ := IdsSeenBelow.expandCachedAll
    (fun x hx => hids.cache x.1 x.2 (mem_cachedNhoods hx)) e₂ ⟨h.inserted, h.heap⟩
  obtain ⟨h₃, hb₃, n₃⟩ : IdsSeenBelow N start s₃ ∧ (∀ x ∈ b, x < N) ∧ _ :=
    IdsSeenBelow.expandFrontierAll hids h₂ (fun _ hx => absurd hx (List.not_mem_nil _)) e₃
  have ⟨h₄, n₄⟩ : IdsSeenBelow N start s₄ ∧ s₄.fullRetset = s₃.fullRetset := by
    split at e₄
    · exact h₃.pruneThenAdmit hb₃ e₄
    · cases e₄; exact ⟨h₃, rfl⟩
  refine ⟨⟨h₄.inserted, h₄.heap⟩, ?_⟩
  simp only at n₂ n₃ ⊢
  rw [n₄, n₃, n₂, ← hperm]
  omega

end Steps

/-! ## The loop ends -/

omit [LinearOrder D] [Zero D] in
theorem popBeam_ne_nil {n : Nat} {q : NeighborPriorityQueue D} (hn : 0 < n)
    (hq : q.unexpandedIds ≠ []) : (popBeam n q).1 ≠ [] := by
  obtain ⟨m, rfl⟩ : ∃ m, n = m + 1 := ⟨n - 1, by omega⟩
  unfold popBeam
  split
  · exact absurd (NeighborPriorityQueue.closestUnexpanded_eq_none.1 ‹_›) hq
  · exact List.cons_ne_nil _ _

omit [LinearOrder D] [Zero D] in
/-- (PROVED) `full_retset` holds at most `N + 1` entries: its ids are distinct, and each is
    the start or below `N`. -/
theorem fullRetset_length_le {N start : Nat} {s : SearchState D} (h : SearchInv ix p start s)
    (hb : IdsSeenBelow N start s) : s.fullRetset.length ≤ N + 1 := by
  have hsub : idsOf s.fullRetset ⊆ start :: List.range N := fun x hx =>
    (hb.inserted x (h.full_inserted x hx)).elim (fun h => h ▸ List.mem_cons_self _ _)
      (fun h => List.mem_cons_of_mem _ (List.mem_range.2 h))
  have := (List.subperm_of_subset h.full_nodup hsub).length_le
  simpa [idsOf] using this

/-- (PROVED) With `beam_width ≥ 1` and the ids below `N`, a run given more fuel than the
    `N + 1` entries `full_retset` can still take ends with the loop guard false. -/
theorem searchLoop_guard_false {N start : Nat} (hids : IdsBelow ix N) (hbw : 0 < p.beamWidth) :
    ∀ {fuel : Nat} {s s' : SearchState D}, SearchInv ix p start s → IdsSeenBelow N start s →
      N + 1 < s.fullRetset.length + fuel → searchLoop ix p fuel s = some s' →
        loopGuard p s' = false
  | 0, _, _, h, hb, hlt, _ => absurd (fullRetset_length_le h hb) (by omega)
  | fuel + 1, s, s', h, hb, hlt, e => by
    unfold searchLoop at e
    split at e
    · rename_i hg
      obtain ⟨s₁, e₁, e⟩ := Option.bind_eq_some.1 e
      obtain ⟨hb₁, n₁⟩ := hb.hop hids e₁
      have hq : s.retset.unexpandedIds ≠ [] := by
        simp only [loopGuard, Bool.and_eq_true] at hg
        exact NeighborPriorityQueue.hasUnexpandedNode_iff.1 hg.1
      have hpop := List.length_pos.2 (popBeam_ne_nil hbw hq)
      exact searchLoop_guard_false hids hbw (hop_inv h e₁).1 hb₁ (by omega) e
    · cases e; exact Bool.eq_false_iff.2 ‹_›

omit [Zero D] in
/-- The seeded state: only the start inserted, an empty heap and an empty `full_retset`. -/
theorem seedSearch_fresh {best : Nat} {s₀ : SearchState D}
    (h₀ : seedSearch ix p = .ok (best, s₀)) :
    s₀.inserted = [best] ∧ s₀.aqPriorityQueue = [] ∧ s₀.fullRetset = [] := by
  obtain ⟨s, hs, e⟩ := seedSearch_spec h₀
  obtain ⟨m, rfl⟩ := selectStart_spec hs
  unfold seedStart at e
  split at e
  · cases e
  · rename_i d s₁ h₁
    cases e
    obtain ⟨m', rfl⟩ : ∃ m', s₁ = { initState p with memo := m' } := ⟨_, scoreOne_spec h₁⟩
    exact ⟨rfl, rfl, rfl⟩

/-- (PROVED) For every index whose adjacency ids are below `N` and every `beam_width ≥ 1`,
    the main loop run from the seeded state stops within `N + 2` hops. -/
theorem runLoop_terminates {N : Nat} (hids : IdsBelow ix N) (hbw : 0 < p.beamWidth)
    {best : Nat} {s₀ : SearchState D} (h₀ : seedSearch ix p = .ok (best, s₀)) {fuel : Nat}
    (hfuel : N + 2 ≤ fuel) : runLoop ix p fuel s₀ ≠ .error .outOfFuel := by
  obtain ⟨hi, ha, hf⟩ := seedSearch_fresh h₀
  have hb : IdsSeenBelow N best s₀ :=
    ⟨fun x hx => .inl (List.mem_singleton.1 (hi ▸ hx)), fun e he => absurd (ha ▸ he) (List.not_mem_nil _)⟩
  unfold runLoop
  split
  · exact fun h => nomatch h
  · rename_i s hs
    rw [searchLoop_guard_false hids hbw (seedSearch_inv h₀) hb (by rw [hf]; simp; omega) hs]
    exact fun h => nomatch h

theorem forkRun_terminates :
    IdsBelow (graphIndex forkGraph) 3 ∧ 0 < (graphParams 100 2 false false .zero).beamWidth ∧
      ∃ best s₀, seedSearch (graphIndex forkGraph) (graphParams 100 2 false false .zero) = .ok (best, s₀) ∧
        3 + 2 ≤ 5 ∧
        runLoop (graphIndex forkGraph) (graphParams 100 2 false false .zero) 5 s₀ ≠ .error .outOfFuel :=
  have hids : IdsBelow (graphIndex forkGraph) 3 :=
    ⟨fun u v hv => by
      simp only [graphIndex, forkGraph] at hv
      split at hv <;> simp at hv
      omega,
     fun _ _ h => nomatch h⟩
  let ⟨⟨best, s₀⟩, h₀⟩ :=
    exists_ok_of_isOk (x := seedSearch (graphIndex forkGraph) (graphParams 100 2 false false .zero))
      (by decide)
  ⟨hids, by decide, best, s₀, h₀, by decide, runLoop_terminates hids (by decide) h₀ (by decide)⟩

/-! ## A zero beam width -/

/-- Past the beam-width guard and the seed, the call is the loop followed by the finish. -/
theorem cachedBeamSearch_of_seed {fuel best : Nat} {s₀ : SearchState D}
    (hbw : p.beamWidth ≤ divRoundUp ix.maxNodeLen sectorLen * ix.maxNSectorReads)
    (h₀ : seedSearch ix p = .ok (best, s₀)) :
    cachedBeamSearch ix p fuel = runLoop ix p fuel s₀ >>= finishSearch ix p := by
  unfold cachedBeamSearch
  rw [if_neg (Nat.not_lt.2 hbw), h₀]
  rfl

/-- With `beam_width = 0` and no batch, a hop pops nothing and only counts itself. -/
theorem hop_zero_beam (hbw : p.beamWidth = 0) (hbatch : p.batchRecompute = false)
    (s : SearchState D) :
    hop ix p s = some { s with frontiers := [] :: s.frontiers, hops := s.hops + 1 } := by
  simp [DiskAnn.hop, hbw, hbatch, popBeam, frontierOf, cachedNhoods, expandCachedAll,
    expandFrontierAll]

theorem searchLoop_zero_beam (hbw : p.beamWidth = 0) (hbatch : p.batchRecompute = false) :
    ∀ (fuel : Nat) (s : SearchState D), loopGuard p s = true →
      ∃ s', searchLoop ix p fuel s = some s' ∧ loopGuard p s' = true
  | 0, s, hg => ⟨s, rfl, hg⟩
  | fuel + 1, s, hg => by
    obtain ⟨s', hs', hg'⟩ := searchLoop_zero_beam hbw hbatch fuel
      { s with frontiers := [] :: s.frontiers, hops := s.hops + 1 } hg
    exact ⟨s', by rw [searchLoop, if_pos hg, hop_zero_beam hbw hbatch, Option.some_bind]; exact hs',
      hg'⟩

/-- The guard accepts `beam_width = 0`, and then no amount of fuel ends the fork's search. -/
theorem cachedBeamSearch_zero_beam_never_ends :
    ¬ ∃ fuel, cachedBeamSearch (graphIndex forkGraph) (graphParams 100 0 false false .zero) fuel ≠
      .error .outOfFuel := by
  rintro ⟨fuel, hne⟩
  obtain ⟨⟨best, s₀⟩, h₀⟩ :=
    exists_ok_of_isOk (x := seedSearch (graphIndex forkGraph) (graphParams 100 0 false false .zero))
      (by decide)
  have hg : ((seedSearch (graphIndex forkGraph) (graphParams 100 0 false false .zero)).toOption.map
      fun r => loopGuard (graphParams 100 0 false false .zero) r.2) = some true := by
    decide
  rw [h₀] at hg
  obtain ⟨s, hs, hgs⟩ : ∃ s, searchLoop (graphIndex forkGraph) (graphParams 100 0 false false .zero)
      fuel s₀ = some s ∧ loopGuard (graphParams 100 0 false false .zero) s = true :=
    searchLoop_zero_beam rfl rfl fuel s₀ (Option.some.inj hg)
  apply hne
  rw [cachedBeamSearch_of_seed (by decide) h₀, runLoop, hs]
  simp only [hgs, if_true]
  rfl

end DiskAnn
