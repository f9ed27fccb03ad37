import DiskAnn.Search.Termination

/-
  DiskANN search: the stages after the main loop of `cached_beam_search`
  (`pq_flash_index.cpp`, lines 2653-2751 and 2801-2876).

  Copy-out. The loop appends one `full_retset` entry per expanded node, the reorder keeps at
  most `3 k_search` of them, and the copy reads `full_retset[0 .. k_search)` with no bound
  check. Without the deferred fetch the copy reads past the end exactly when the loop
  expanded fewer than `k_search` nodes (`finishSearch_reads_past_end_iff`,
  `cachedBeamSearch_reads_past_end_iff`); a graph with fewer than `k_search` reachable nodes
  is enough.

  Deferred fetch. The rescoring loop runs over the rows the service sent, not over
  `full_retset`: it rescores the first `|rows|` entries, leaves the others at their in-loop
  distance (`0` unless `skip_search_reorder`), and writes past the end of `full_retset` when
  there are more rows than entries (`deferredRetset_rescores_received_rows`).
  `compute_dists` checks the row count (line 1932); this path does not.
-/

namespace DiskAnn

variable {D V : Type}

/-! ## The copy of `k_search` entries -/

section Copy

variable [LinearOrder D] {ix : SearchIndex D V} {p : SearchParams}

omit [LinearOrder D] in
theorem copyOut_eq_none_iff {k : Nat} {fr : List (Neighbor D)} :
    copyOut ix k fr = none ↔ fr.length < k := by
  unfold copyOut
  split <;> simp <;> omega

theorem length_sortNeighbors (fr : List (Neighbor D)) : (sortNeighbors fr).length = fr.length :=
  List.length_insertionSort _ _

theorem length_reorder (k : Nat) (fr : List (Neighbor D)) :
    (reorder ix k fr).length = min (k * 3) fr.length := by
  simp [reorder, length_sortNeighbors]

/-- When the reorder region it asks for exists, the ranking succeeds and keeps at least
    `k_search` entries exactly when it was given at least `k_search`. -/
theorem rankRetset_ok (hre : p.useReorderData = true → ix.reorderDataExists = true)
    (fr : List (Neighbor D)) :
    ∃ fr', rankRetset ix p fr = .ok fr' ∧ (fr'.length < p.kSearch ↔ fr.length < p.kSearch) := by
  unfold rankRetset
  cases hu : p.useReorderData
  · exact ⟨_, rfl, by rw [length_sortNeighbors]⟩
  · refine ⟨_, by simp [hre hu]; rfl, ?_⟩
    rw [length_reorder, length_sortNeighbors]
    omega

/-- (PROVED) Without the deferred fetch, the finish reads `full_retset` past its end exactly
    when the loop left fewer than `k_search` entries. -/
theorem finishSearch_reads_past_end_iff {s : SearchState D} (hdef : p.deferredFetch = false)
    (hre : p.useReorderData = true → ix.reorderDataExists = true) :
    finishSearch ix p s = .error (.undefined "full_retset read past its end") ↔
      s.fullRetset.length < p.kSearch := by
  obtain ⟨fr, hr, hk⟩ := rankRetset_ok hre s.fullRetset
  have hd : deferredRetset ix p s = .ok (some s.fullRetset) := by simp [deferredRetset, hdef]; rfl
  rw [← hk]
  simp only [finishSearch, hd, bind, Except.bind, hr]
  cases h : copyOut ix p.kSearch fr with
  | none => exact iff_of_true rfl (copyOut_eq_none_iff.1 h)
  | some out =>
    refine iff_of_false (by intro e; cases e) fun hl => ?_
    rw [copyOut_eq_none_iff.2 hl] at h
    cases h

variable [Zero D]

/-- (PROVED) For every index, query and parameters the guard accepts, without the deferred
    fetch and with the reorder region present when asked for: a call whose loop ended reads
    `full_retset` past its end exactly when the loop expanded fewer than `k_search` nodes. -/
theorem cachedBeamSearch_reads_past_end_iff {fuel best : Nat} {s₀ s : SearchState D}
    (hbw : p.beamWidth ≤ divRoundUp ix.maxNodeLen sectorLen * ix.maxNSectorReads)
    (h₀ : seedSearch ix p = .ok (best, s₀)) (hs : runLoop ix p fuel s₀ = .ok s)
    (hdef : p.deferredFetch = false) (hre : p.useReorderData = true → ix.reorderDataExists = true) :
    cachedBeamSearch ix p fuel = .error (.undefined "full_retset read past its end") ↔
      s.fullRetset.length < p.kSearch := by
  rw [cachedBeamSearch_of_seed hbw h₀, hs]
  exact finishSearch_reads_past_end_iff hdef hre

end Copy

/-- The query for the five nearest nodes of the three-node fork, `k_search ≤ l_search`. -/
def topFiveParams : SearchParams := { graphParams 100 2 false false .zero with kSearch := 5 }

theorem forkRun_reads_past_end :
    topFiveParams.kSearch ≤ topFiveParams.lSearch ∧
      ∃ best s₀ s, seedSearch (graphIndex forkGraph) topFiveParams = .ok (best, s₀) ∧
        runLoop (graphIndex forkGraph) topFiveParams 5 s₀ = .ok s ∧ s.fullRetset.length = 3 ∧
        cachedBeamSearch (graphIndex forkGraph) topFiveParams 5 =
          .error (.undefined "full_retset read past its end") := by
  obtain ⟨⟨best, s₀⟩, h₀⟩ :=
    exists_ok_of_isOk (x := seedSearch (graphIndex forkGraph) topFiveParams) (by decide)
  have hrun : (runLoop (graphIndex forkGraph) topFiveParams 5 s₀).toOption.map
      (fun s => s.fullRetset.length) = some 3 := by
    have h : ((seedSearch (graphIndex forkGraph) topFiveParams).toOption.bind fun r =>
        (runLoop (graphIndex forkGraph) topFiveParams 5 r.2).toOption.map
          fun s => s.fullRetset.length) = some 3 := by
      decide
    rwa [h₀] at h
  obtain ⟨s, hs, hlen⟩ :
      ∃ s, runLoop (graphIndex forkGraph) topFiveParams 5 s₀ = .ok s ∧ s.fullRetset.length = 3 := by
    cases h : runLoop (graphIndex forkGraph) topFiveParams 5 s₀ with
    | error => simp [h, Except.toOption] at hrun
    | ok s => exact ⟨s, rfl, by simpa [h, Except.toOption] using hrun⟩
  exact ⟨by decide, best, s₀, s, h₀, hs, hlen,
    (cachedBeamSearch_reads_past_end_iff (by decide) h₀ hs rfl (fun h => nomatch h)).2
      (by rw [hlen]; decide)⟩

/-! ## The deferred fetch -/

section Deferred

/-- The deferred rescoring in closed form: the first `|embs|` entries take the distance of
    their row, the others keep theirs. -/
def rescorePrefix (embDist : V → D) (fr : List (Neighbor D)) (embs : List V) :
    List (Neighbor D) :=
  List.zipWith (fun n e => { n with distance := embDist e }) fr embs ++ fr.drop embs.length

theorem rescoreDeferred_eq {embDist : V → D} :
    ∀ {fr : List (Neighbor D)} {embs : List V}, embs.length ≤ fr.length →
      rescoreDeferred embDist fr embs = some (rescorePrefix embDist fr embs)
  | fr, [], _ => by simp [rescoreDeferred, rescorePrefix]
  | _ :: _, _ :: _, h => by
    rw [rescoreDeferred, rescoreDeferred_eq (Nat.le_of_succ_le_succ h)]
    rfl
  | [], _ :: _, h => absurd h (by simp)

theorem rescoreDeferred_eq_none {embDist : V → D} :
    ∀ {fr : List (Neighbor D)} {embs : List V}, fr.length < embs.length →
      rescoreDeferred embDist fr embs = none
  | [], _ :: _, _ => rfl
  | _ :: _, _ :: _, h => by
    rw [rescoreDeferred, rescoreDeferred_eq_none (Nat.lt_of_succ_lt_succ h)]
    rfl
  | _, [], h => absurd h (Nat.not_lt_zero _)

variable {ix : SearchIndex D V} {p : SearchParams}

/-- (PROVED) In deferred-fetch mode, for a non-empty `full_retset` and any rows `embs` the
    service answers with: more rows than entries write past the end of `full_retset`, and
    otherwise only the first `|embs|` entries are rescored. -/
theorem deferredRetset_rescores_received_rows {s : SearchState D} {embs : List V}
    (hdef : p.deferredFetch = true) (hne : s.fullRetset ≠ [])
    (hf : ix.fetchEmbeddings s.memo.requests (idsOf s.fullRetset) = some embs) :
    deferredRetset ix p s =
      if s.fullRetset.length < embs.length then .error (.undefined "full_retset written past its end")
      else .ok (some (rescorePrefix ix.embDist s.fullRetset embs)) := by
  have hne' : s.fullRetset.isEmpty = false := by simpa using hne
  simp only [deferredRetset, hdef, hne', hf, if_true, Bool.false_eq_true, if_false]
  split_ifs with h
  · rw [rescoreDeferred_eq_none h]; rfl
  · rw [rescoreDeferred_eq (Nat.le_of_not_lt h)]; rfl

end Deferred

/-- The fork graph in deferred-fetch mode, served by an embedding service that answers the
    ids `ids` with the rows `answer ids`; a row `v` is at distance `v + 10`. -/
def serviceIndex (answer : List Nat → List Nat) : SearchIndex Nat Nat :=
  { graphIndex forkGraph with
    fetchEmbeddings := fun _ ids => some (answer ids)
    embDist := (· + 10) }

/-- The nearest node, with the deferred fetch. -/
def deferredParams : SearchParams := { graphParams 100 2 false false .zero with deferredFetch := true }

theorem shortServiceRun_rescores_received_rows :
    ∃ r : SearchResult Nat, cachedBeamSearch (serviceIndex (List.take 1)) deferredParams 5 = .ok r ∧
      deferredRetset (serviceIndex (List.take 1)) deferredParams r.state =
        .ok (some (rescorePrefix (· + 10) r.state.fullRetset ((idsOf r.state.fullRetset).take 1))) ∧
      r.fullRetset = [⟨1, 0, false⟩, ⟨2, 0, false⟩, ⟨0, 10, false⟩] ∧ r.out = some ([1], [0]) := by
  obtain ⟨r, e⟩ :=
    exists_ok_of_isOk (x := cachedBeamSearch (serviceIndex (List.take 1)) deferredParams 5) (by decide)
  have hr : ((cachedBeamSearch (serviceIndex (List.take 1)) deferredParams 5).toOption.map fun r =>
      (r.state.fullRetset.length, r.fullRetset, r.out)) =
        some (3, [⟨1, 0, false⟩, ⟨2, 0, false⟩, ⟨0, 10, false⟩], some ([1], [0])) := by
    decide
  simp only [e, Except.toOption, Option.map_some', Option.some.injEq, Prod.mk.injEq] at hr
  obtain ⟨hlen, hfr, hout⟩ := hr
  have hne : r.state.fullRetset ≠ [] := fun h => by simp [h] at hlen
  have hf : (serviceIndex (List.take 1)).fetchEmbeddings r.state.memo.requests
      (idsOf r.state.fullRetset) = some ((idsOf r.state.fullRetset).take 1) := rfl
  refine ⟨r, e, ?_, hfr, hout⟩
  rw [deferredRetset_rescores_received_rows rfl hne hf, if_neg (by simp [idsOf, hlen])]
  rfl

/-- A service that answers every id twice makes the rescoring write past the end. -/
theorem cachedBeamSearch_long_response_writes_past_end :
    cachedBeamSearch (serviceIndex fun ids => ids ++ ids) deferredParams 5 =
      .error (.undefined "full_retset written past its end") :=
  rfl

end DiskAnn
