import Mathlib.Algebra.Order.Ring.Nat
import DiskAnn.Search.Invariants

/-
  DiskANN search: what a whole `cached_beam_search` call guarantees.

  Each stage of the call has one spec lemma (`seedSearch_spec`, `runLoop_spec`,
  `finishSearch_spec`), and `cachedBeamSearch_spec` splits a successful call into them, so
  that a successful call ends in a state its seeded loop reaches
  (`cachedBeamSearch_loop_state`). From the loop invariant of `DiskAnn.Search.Invariants`,
  every state a seeded run reaches, whether or not the call later throws, keeps `retset`
  inside `visited`, inserts and expands each id at most once, and admits only the start or
  ids passing the admission test; the sort, the reorder and the copy-out only reorder and
  shorten `full_retset`. Every `prune_node_nbrs` call of a run leaves at most the ids it was
  given, a sub-multiset of them under local pruning. Under global pruning a run can leave ids
  of an earlier node (`pruneNodeNbrs_global_returns_foreign`). `num_ios` is tested only at
  the loop head, so a run ends with at most `io_limit + beam_width - 1` reads and can pass
  `io_limit` (`cachedBeamSearch_passes_ioLimit`).
-/

namespace DiskAnn

variable {D V : Type}

theorem except_bind_eq_ok {ε α β : Type} {x : Except ε α} {f : α → Except ε β} {b : β} :
    x >>= f = .ok b ↔ ∃ a, x = .ok a ∧ f a = .ok b := by
  cases x <;> simp [bind, Except.bind]

theorem exists_ok_of_isOk {ε α : Type} {x : Except ε α} (h : x.isOk = true) : ∃ a, x = .ok a := by
  cases x with
  | error => cases h
  | ok a => exact ⟨a, rfl⟩

theorem nodup_of_subperm {α : Type} {l₁ l₂ : List α} (h : l₁.Subperm l₂) (hd : l₂.Nodup) :
    l₁.Nodup :=
  let ⟨_, hp, hs⟩ := h
  hp.nodup_iff.1 (hs.nodup hd)

/-! ## The post-loop stages -/

theorem rescoreDeferred_ids {embDist : V → D} :
    ∀ {fr : List (Neighbor D)} {es : List V} {fr' : List (Neighbor D)},
      rescoreDeferred embDist fr es = some fr' → idsOf fr' = idsOf fr
  | _, [], _, e => by simp only [rescoreDeferred, Option.some.injEq] at e; rw [e]
  | _ :: _, _ :: _, _, e => by
    obtain ⟨_, h, rfl⟩ := Option.map_eq_some'.1 e
    simp [rescoreDeferred_ids h]
  | [], _ :: _, _, e => by cases e

theorem deferredRetset_ids {ix : SearchIndex D V} {p : SearchParams} {s : SearchState D}
    {fr : List (Neighbor D)} (e : deferredRetset ix p s = .ok (some fr)) :
    idsOf fr = idsOf s.fullRetset := by
  unfold deferredRetset at e
  split at e
  · split at e
    · cases e
    · split at e
      · cases e
      · split at e
        · cases e
        · cases e; exact rescoreDeferred_ids ‹_›
  · cases e; rfl

/-! ## Small graphs for the concrete runs below -/

/-- A small index over `Nat` on the graph `adj`: nothing cached, medoid `0`, no labels or
    dummies, and every distance the node's id. -/
def graphIndex (adj : Nat → List Nat) : SearchIndex Nat Nat where
  maxNodeLen := 4096
  nnodesPerSector := 1
  maxNSectorReads := 128
  usePartition := false
  medoids := [0]
  centroidDist := id
  filterToMedoidIds := fun _ => none
  fltMax := 1000000
  nhoodCache := fun _ => none
  coordCache := id
  diskCoords := id
  diskNbrs := adj
  coordDist := id
  pqDist := id
  fetchEmbeddings := fun _ ids => some ids
  embDist := id
  labels := ⟨[], [], []⟩
  useUniversalLabel := false
  universalFilterLabel := 0
  dummyPts := fun _ => false
  dummyToRealMap := id
  reorderDataExists := false
  reorderDist := id
  emitDist := id

/-- An unfiltered query for the nearest node with a frontier of 20. -/
def graphParams (ioLimit beamWidth : Nat) (recompute globalPruning : Bool) (r : PruneRatio) :
    SearchParams where
  kSearch := 1
  lSearch := 20
  beamWidth := beamWidth
  useFilter := false
  filterLabel := 0
  ioLimit := ioLimit
  useReorderData := false
  deferredFetch := false
  skipSearchReorder := false
  recomputeBeighborEmbeddings := recompute
  dedupNodeDis := false
  pruneRatio := r
  batchRecompute := false
  globalPruning := globalPruning

/-- Node `0` with neighbours `1` and `2`. -/
def forkGraph (u : Nat) : List Nat := if u = 0 then [1, 2] else []

/-- Node `0` with neighbours `1..11`, and node `1` with neighbours `100..110`. -/
def twoHubGraph (u : Nat) : List Nat :=
  if u = 0 then List.range' 1 11 else if u = 1 then List.range' 100 11 else []

/-- `prune_ratio = 0.5`. -/
def halfRatio : PruneRatio := ⟨1, 2, by decide, by decide⟩

section Order

variable [LinearOrder D]

theorem idsOf_sortNeighbors_perm (fr : List (Neighbor D)) :
    (idsOf (sortNeighbors fr)).Perm (idsOf fr) :=
  (List.perm_insertionSort _ _).map _

theorem idsOf_reorder_subperm (ix : SearchIndex D V) (k : Nat) (fr : List (Neighbor D)) :
    (idsOf (reorder ix k fr)).Subperm (idsOf fr) := by
  have h := idsOf_sortNeighbors_perm
    ((fr.take (k * 3)).map fun n => { n with distance := ix.reorderDist n.id })
  simp only [idsOf, List.map_map, Function.comp_def] at h
  exact h.subperm.trans ((List.take_sublist _ _).map _).subperm

theorem rankRetset_subperm {ix : SearchIndex D V} {p : SearchParams} {fr fr' : List (Neighbor D)}
    (e : rankRetset ix p fr = .ok fr') : (idsOf fr').Subperm (idsOf fr) := by
  unfold rankRetset at e
  split at e
  · split at e
    · cases e
    · cases e
      exact (idsOf_reorder_subperm ix _ _).trans (idsOf_sortNeighbors_perm fr).subperm
  · cases e; exact (idsOf_sortNeighbors_perm fr).subperm

variable {ix : SearchIndex D V} {p : SearchParams}

/-- After the loop, the call keeps the loop's state and only reorders and shortens its
    `full_retset`. -/
theorem finishSearch_spec {s : SearchState D} {r : SearchResult D} (e : finishSearch ix p s = .ok r) :
    r.state = s ∧ (idsOf r.fullRetset).Subperm (idsOf s.fullRetset) := by
  unfold finishSearch at e
  obtain ⟨fr?, h₁, e⟩ := except_bind_eq_ok.1 e
  cases fr? with
  | none => cases e; exact ⟨rfl, List.nil_subperm⟩
  | some fr =>
    obtain ⟨fr', h₂, e⟩ := except_bind_eq_ok.1 e
    split at e
    · cases e
    · cases e
      exact ⟨rfl, (rankRetset_subperm h₂).trans (by rw [deferredRetset_ids h₁])⟩

/-! ## The stages of a call -/

theorem seedSearch_spec {best : Nat} {s₀ : SearchState D} (e : seedSearch ix p = .ok (best, s₀)) :
    ∃ s, selectStart ix p = .ok (best, s) ∧ seedStart ix p best s = .ok s₀ := by
  unfold seedSearch at e
  obtain ⟨⟨b, s⟩, h₁, e⟩ := except_bind_eq_ok.1 e
  obtain ⟨s', h₂, e⟩ := except_bind_eq_ok.1 e
  cases e
  exact ⟨s, h₁, h₂⟩

theorem seedSearch_inv {best : Nat} {s₀ : SearchState D} (e : seedSearch ix p = .ok (best, s₀)) :
    SearchInv ix p best s₀ :=
  let ⟨_, hs, h₀⟩ := seedSearch_spec e
  seed_inv hs h₀

theorem seedSearch_numIos {best : Nat} {s₀ : SearchState D} (e : seedSearch ix p = .ok (best, s₀)) :
    s₀.numIos = 0 := by
  obtain ⟨s, hs, h₀⟩ := seedSearch_spec e
  obtain ⟨m, rfl⟩ := selectStart_spec hs
  unfold seedStart at h₀
  split at h₀
  · cases h₀
  · rename_i d s₁ h₁
    cases h₀
    obtain ⟨m', rfl⟩ : ∃ m', s₁ = { initState p with memo := m' } := ⟨_, scoreOne_spec h₁⟩
    rfl

variable [Zero D]

theorem runLoop_spec {fuel : Nat} {s₀ s : SearchState D} (e : runLoop ix p fuel s₀ = .ok s) :
    searchLoop ix p fuel s₀ = some s ∧ loopGuard p s = false := by
  unfold runLoop at e
  split at e
  · cases e
  · rename_i h
    split at e
    · cases e
    · cases e; exact ⟨h, Bool.eq_false_iff.2 ‹_›⟩

/-- A successful call passed the beam-width guard, seeded, ran the loop to its end and
    finished from the loop's last state. -/
theorem cachedBeamSearch_spec {fuel : Nat} {r : SearchResult D}
    (e : cachedBeamSearch ix p fuel = .ok r) :
    p.beamWidth ≤ divRoundUp ix.maxNodeLen sectorLen * ix.maxNSectorReads ∧
      ∃ best s₀, seedSearch ix p = .ok (best, s₀) ∧ runLoop ix p fuel s₀ = .ok r.state ∧
        finishSearch ix p r.state = .ok r := by
  unfold cachedBeamSearch at e
  dsimp only at e
  split at e
  · obtain ⟨_, h, -⟩ := except_bind_eq_ok.1 e
    cases h
  · rename_i hbw
    obtain ⟨_, -, e⟩ := except_bind_eq_ok.1 e
    obtain ⟨⟨best, s₀⟩, h₀, e⟩ := except_bind_eq_ok.1 e
    obtain ⟨s, h₁, e⟩ := except_bind_eq_ok.1 e
    obtain ⟨hs, -⟩ := finishSearch_spec e
    subst hs
    exact ⟨Nat.le_of_not_gt hbw, best, s₀, h₀, h₁, e⟩

/-- A successful call from a seeded state finishes from a state its loop reaches. -/
theorem cachedBeamSearch_loop_state {best fuel : Nat} {s₀ : SearchState D} {r : SearchResult D}
    (h₀ : seedSearch ix p = .ok (best, s₀)) (e : cachedBeamSearch ix p fuel = .ok r) :
    searchLoop ix p fuel s₀ = some r.state ∧ finishSearch ix p r.state = .ok r := by
  obtain ⟨-, best', s₀', h₀', hl, hf⟩ := cachedBeamSearch_spec e
  rw [h₀] at h₀'
  cases h₀'
  exact ⟨(runLoop_spec hl).1, hf⟩

/-! ## Distinct ids and admitted ids -/

/-- (PROVED) In every state a seeded run reaches, `retset` lies inside `visited` and no id was
    inserted or expanded twice; the `full_retset` a successful call sorts and the ids it copies
    out are duplicate-free. -/
theorem cachedBeamSearch_ids_distinct {best : Nat} {s₀ : SearchState D}
    (h₀ : seedSearch ix p = .ok (best, s₀)) :
    (∀ n s, searchLoop ix p n s₀ = some s →
      (∀ x ∈ s.retset.ids, x ∈ s.visited) ∧ s.inserted.Nodup ∧ (idsOf s.fullRetset).Nodup) ∧
    ∀ fuel r, cachedBeamSearch ix p fuel = .ok r →
      (idsOf r.fullRetset).Nodup ∧ (copiedIds p.kSearch r.fullRetset).Nodup := by
  have hinv := seedSearch_inv h₀
  refine ⟨fun n s hs => ?_, fun fuel r e => ?_⟩
  · have h := searchLoop_inv hinv hs
    exact ⟨h.retset_visited, h.inserted_nodup, h.full_nodup⟩
  · obtain ⟨hl, hf⟩ := cachedBeamSearch_loop_state h₀ e
    have hnd := nodup_of_subperm (finishSearch_spec hf).2 (searchLoop_inv hinv hl).full_nodup
    exact ⟨hnd, ((List.take_sublist _ _).map _).nodup hnd⟩

theorem forkRun_ids_distinct :
    ∃ best s₀, seedSearch (graphIndex forkGraph) (graphParams 100 2 false false .zero)
        = .ok (best, s₀) ∧
      (∀ n s, searchLoop (graphIndex forkGraph) (graphParams 100 2 false false .zero) n s₀
          = some s →
        (∀ x ∈ s.retset.ids, x ∈ s.visited) ∧ s.inserted.Nodup ∧ (idsOf s.fullRetset).Nodup) ∧
      ∀ fuel r, cachedBeamSearch (graphIndex forkGraph) (graphParams 100 2 false false .zero) fuel
          = .ok r →
        (idsOf r.fullRetset).Nodup ∧ (copiedIds 1 r.fullRetset).Nodup :=
  let ⟨⟨best, s₀⟩, h₀⟩ :=
    exists_ok_of_isOk (x := seedSearch (graphIndex forkGraph) (graphParams 100 2 false false .zero))
      (by decide)
  ⟨best, s₀, h₀, cachedBeamSearch_ids_distinct h₀⟩

/-- (PROVED) In every state a seeded run reaches, and in the `full_retset` a successful call
    sorts, every id other than the start medoid passes the admission test. -/
theorem cachedBeamSearch_admitted {best : Nat} {s₀ : SearchState D}
    (h₀ : seedSearch ix p = .ok (best, s₀)) :
    (∀ n s, searchLoop ix p n s₀ = some s →
      ∀ x ∈ idsOf s.fullRetset, x = best ∨ admits ix p x = some true) ∧
    ∀ fuel r, cachedBeamSearch ix p fuel = .ok r →
      ∀ x ∈ idsOf r.fullRetset, x = best ∨ admits ix p x = some true := by
  have hadm : ∀ n s, searchLoop ix p n s₀ = some s →
      ∀ x ∈ idsOf s.fullRetset, x = best ∨ admits ix p x = some true := fun n s hs x hx =>
    have h := searchLoop_inv (seedSearch_inv h₀) hs
    h.inserted_admitted x (h.full_inserted x hx)
  refine ⟨hadm, fun fuel r e x hx => ?_⟩
  obtain ⟨hl, hf⟩ := cachedBeamSearch_loop_state h₀ e
  exact hadm _ _ hl x ((finishSearch_spec hf).2.subset hx)

theorem forkRun_admitted :
    ∃ best s₀, seedSearch (graphIndex forkGraph) (graphParams 100 2 false false .zero)
        = .ok (best, s₀) ∧
      (∀ n s, searchLoop (graphIndex forkGraph) (graphParams 100 2 false false .zero) n s₀
          = some s →
        ∀ x ∈ idsOf s.fullRetset,
          x = best ∨ admits (graphIndex forkGraph) (graphParams 100 2 false false .zero) x = some true) ∧
      ∀ fuel r, cachedBeamSearch (graphIndex forkGraph) (graphParams 100 2 false false .zero) fuel
          = .ok r →
        ∀ x ∈ idsOf r.fullRetset,
          x = best ∨ admits (graphIndex forkGraph) (graphParams 100 2 false false .zero) x = some true :=
  let ⟨⟨best, s₀⟩, h₀⟩ :=
    exists_ok_of_isOk (x := seedSearch (graphIndex forkGraph) (graphParams 100 2 false false .zero))
      (by decide)
  ⟨best, s₀, h₀, cachedBeamSearch_admitted h₀⟩

/-! ## Every `prune_node_nbrs` call -/

/-- (PROVED) Every `prune_node_nbrs` call of a seeded run, on a node's adjacency or on a hop's
    batch, leaves at most as many ids as it was given, and under local pruning a sub-multiset
    of them; so do the calls a successful call logs. -/
theorem cachedBeamSearch_prune_bounded {best : Nat} {s₀ : SearchState D}
    (h₀ : seedSearch ix p = .ok (best, s₀)) :
    (∀ n s, searchLoop ix p n s₀ = some s → ∀ c ∈ s.pruneLog,
      c.2.length ≤ c.1.length ∧ (p.globalPruning = false → c.2.Subperm c.1)) ∧
    ∀ fuel r, cachedBeamSearch ix p fuel = .ok r → ∀ c ∈ r.state.pruneLog,
      c.2.length ≤ c.1.length ∧ (p.globalPruning = false → c.2.Subperm c.1) := by
  have hrun : ∀ n s, searchLoop ix p n s₀ = some s → ∀ c ∈ s.pruneLog,
      c.2.length ≤ c.1.length ∧ (p.globalPruning = false → c.2.Subperm c.1) :=
    fun n s hs => (searchLoop_inv (seedSearch_inv h₀) hs).prune_log
  exact ⟨hrun, fun fuel r e => hrun _ _ (cachedBeamSearch_loop_state h₀ e).1⟩

theorem twoHubRun_prune_bounded :
    ∃ best s₀, seedSearch (graphIndex twoHubGraph) (graphParams 100 1 true true halfRatio)
        = .ok (best, s₀) ∧
      (∀ n s, searchLoop (graphIndex twoHubGraph) (graphParams 100 1 true true halfRatio) n s₀
          = some s →
        ∀ c ∈ s.pruneLog, c.2.length ≤ c.1.length ∧
          ((graphParams 100 1 true true halfRatio).globalPruning = false → c.2.Subperm c.1)) ∧
      ∀ fuel r, cachedBeamSearch (graphIndex twoHubGraph) (graphParams 100 1 true true halfRatio) fuel
          = .ok r →
        ∀ c ∈ r.state.pruneLog, c.2.length ≤ c.1.length ∧
          ((graphParams 100 1 true true halfRatio).globalPruning = false → c.2.Subperm c.1) :=
  let ⟨⟨best, s₀⟩, h₀⟩ :=
    exists_ok_of_isOk (x := seedSearch (graphIndex twoHubGraph) (graphParams 100 1 true true halfRatio))
      (by decide)
  ⟨best, s₀, h₀, cachedBeamSearch_prune_bounded h₀⟩

/-- Under global pruning, the second call (on node `1`'s neighbours `100..110`) leaves
    `7..11`, ids from node `0`'s list that the first call left in the heap. -/
theorem pruneNodeNbrs_global_returns_foreign :
    ((cachedBeamSearch (graphIndex twoHubGraph) (graphParams 100 1 true true halfRatio) 20).toOption.map
      fun r => r.state.pruneLog.reverse.take 2) =
        some [(List.range' 1 11, List.range' 1 6), (List.range' 100 11, List.range' 7 5)] ∧
      ¬ (List.range' 7 5).Subperm (List.range' 100 11) := by
  decide

/-! ## The read budget -/

theorem hop_numIos_le {start : Nat} {s s' : SearchState D} (h : SearchInv ix p start s)
    (e : hop ix p s = some s') : s'.numIos ≤ s.numIos + p.beamWidth := by
  have hf : (frontierOf ix (popBeam p.beamWidth s.retset).1).length ≤ p.beamWidth :=
    (List.length_filter_le _ _).trans (popBeam_spec p.beamWidth s.retset).2.2
  rw [(hop_inv h e).2]
  omega

/-- Every run of the main loop keeps at most `io_limit + beam_width - 1` reads: the guard
    lets a hop start only below `io_limit`, and a hop adds at most `beam_width` reads. -/
theorem searchLoop_numIos_le {fuel start : Nat} {s s' : SearchState D}
    (h : SearchInv ix p start s) (hb : s.numIos ≤ p.ioLimit + p.beamWidth - 1)
    (e : searchLoop ix p fuel s = some s') : s'.numIos ≤ p.ioLimit + p.beamWidth - 1 := by
  refine (searchLoop_induction
    (fun s => SearchInv ix p start s ∧ s.numIos ≤ p.ioLimit + p.beamWidth - 1)
    (fun s s' ⟨h, _⟩ hg e => ⟨(hop_inv h e).1, ?_⟩) ⟨h, hb⟩ e).2
  have h₁ := hop_numIos_le h e
  have h₂ : s.numIos < p.ioLimit := by
    simp only [loopGuard, Bool.and_eq_true, decide_eq_true_eq] at hg
    exact hg.2
  omega

/-- (PROVED) In every state a seeded run reaches, and at the end of a successful call, at most
    `io_limit + beam_width - 1` sector reads have been issued. -/
theorem cachedBeamSearch_numIos_le {best : Nat} {s₀ : SearchState D}
    (h₀ : seedSearch ix p = .ok (best, s₀)) :
    (∀ n s, searchLoop ix p n s₀ = some s → s.numIos ≤ p.ioLimit + p.beamWidth - 1) ∧
    ∀ fuel r, cachedBeamSearch ix p fuel = .ok r → r.state.numIos ≤ p.ioLimit + p.beamWidth - 1 := by
  have hrun : ∀ n s, searchLoop ix p n s₀ = some s → s.numIos ≤ p.ioLimit + p.beamWidth - 1 :=
    fun n s => searchLoop_numIos_le (seedSearch_inv h₀) (by rw [seedSearch_numIos h₀]; omega)
  exact ⟨hrun, fun fuel r e => hrun _ _ (cachedBeamSearch_loop_state h₀ e).1⟩

theorem forkRun_numIos_le :
    ∃ best s₀, seedSearch (graphIndex forkGraph) (graphParams 2 2 false false .zero)
        = .ok (best, s₀) ∧
      (∀ n s, searchLoop (graphIndex forkGraph) (graphParams 2 2 false false .zero) n s₀ = some s →
        s.numIos ≤ 2 + 2 - 1) ∧
      ∀ fuel r, cachedBeamSearch (graphIndex forkGraph) (graphParams 2 2 false false .zero) fuel
          = .ok r →
        r.state.numIos ≤ 2 + 2 - 1 :=
  let ⟨⟨best, s₀⟩, h₀⟩ :=
    exists_ok_of_isOk (x := seedSearch (graphIndex forkGraph) (graphParams 2 2 false false .zero))
      (by decide)
  ⟨best, s₀, h₀, cachedBeamSearch_numIos_le h₀⟩

/-- With `io_limit = 2` and `beam_width = 2` on the fork, the second hop starts with one read
    issued and issues two more. -/
theorem cachedBeamSearch_passes_ioLimit :
    ((cachedBeamSearch (graphIndex forkGraph) (graphParams 2 2 false false .zero) 5).toOption.map
      fun r => r.state.numIos) = some 3 := by
  decide

end Order

end DiskAnn
