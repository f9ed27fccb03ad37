import DiskAnn.Search.Outcome

/-
  DiskANN search: the full-retset distance of a frontier node in partition mode
  (`pq_flash_index.cpp`, lines 2429-2435), against what `compute_dists` memoises
  (lines 1928-1968).

  With `recompute_beighbor_embeddings`, `dedup_node_dis` and `_use_partition`, a frontier
  node's distance is `node_distances[node_id]`, which inserts `0` for an id the memo does not
  hold. Only a successful fetch writes the memo: a failed one falls back to PQ distances and
  writes nothing (`computeDists_memo_of_fetch_fails`). So while the embedding service is
  down, the memo holds nothing but those inserted zeros, and every node the search expands
  is recorded at distance `0` (`searchLoop_partition_records_zero`), whatever PQ distance it
  entered the frontier with.
-/

namespace DiskAnn

variable {D V : Type} [LinearOrder D] [Zero D] {ix : SearchIndex D V} {p : SearchParams}

/-- The configuration of the partition-mode memo read (lines 2429-2435). -/
def PartitionMemoMode (ix : SearchIndex D V) (p : SearchParams) : Prop :=
  ix.usePartition = true ∧ p.recomputeBeighborEmbeddings = true ∧ p.dedupNodeDis = true ∧
    p.skipSearchReorder = false ∧ p.deferredFetch = false

/-- Every `fetch_embeddings_http` call fails. -/
def ServiceDown (ix : SearchIndex D V) : Prop := ∀ n ids, ix.fetchEmbeddings n ids = none

/-- Every memo entry is `0`, and so is every recorded `full_retset` distance. -/
structure ZeroRecorded (s : SearchState D) : Prop where
  memo_zero : ∀ x d, s.memo.nodeDistances x = some d → d = 0
  full_zero : ∀ n ∈ s.fullRetset, n.distance = 0

section Steps

variable (hdown : ServiceDown ix)
include hdown

omit [LinearOrder D] [Zero D] in
theorem scoreIds_memo_of_down {ids : List Nat} {s : SearchState D} {r : List D × SearchState D}
    (e : scoreIds ix p ids s = some r) :
    r.2.memo.nodeDistances = s.memo.nodeDistances ∧ r.2.fullRetset = s.fullRetset := by
  obtain ⟨⟨ds, m⟩, hc, rfl⟩ := Option.map_eq_some'.1 e
  exact ⟨computeDists_memo_of_fetch_fails (c := distCfg ix p) hdown hc, rfl⟩

theorem ZeroRecorded.scoreAndAdmit {nbrs : List Nat} {s s' : SearchState D} (h : ZeroRecorded s)
    (e : scoreAndAdmit ix p nbrs s = some s') : ZeroRecorded s' := by
  obtain ⟨r, hr, e⟩ := Option.bind_eq_some.1 e
  obtain ⟨hm, hf⟩ := scoreIds_memo_of_down hdown hr
  obtain ⟨hm', hf', -⟩ := admitNbrs_frame e
  exact ⟨fun x d hx => h.memo_zero x d (by rw [← hm, ← hm', hx]),
    fun n hn => h.full_zero n (by rw [← hf, ← hf']; exact hn)⟩

theorem ZeroRecorded.pruneThenAdmit {nbrs : List Nat} {s s' : SearchState D}
    (h : ZeroRecorded s) (e : pruneThenAdmit ix p nbrs s = some s') : ZeroRecorded s' := by
  unfold DiskAnn.pruneThenAdmit at e
  refine ZeroRecorded.scoreAndAdmit hdown ?_ e
  exact ⟨h.memo_zero, h.full_zero⟩

omit [LinearOrder D] in
theorem ZeroRecorded.scoreOne {u : Nat} {s : SearchState D} {r : D × SearchState D}
    (h : ZeroRecorded s) (e : scoreOne ix p u s = some r) : ZeroRecorded r.2 := by
  obtain ⟨r', hr', e⟩ := Option.bind_eq_some.1 e
  obtain ⟨d, -, rfl⟩ := Option.map_eq_some'.1 e
  obtain ⟨hm, hf⟩ := scoreIds_memo_of_down hdown hr'
  exact ⟨fun x d hx => h.memo_zero x d (hm ▸ hx), fun n hn => h.full_zero n (hf ▸ hn)⟩

theorem ZeroRecorded.bestFilterMedoid : ∀ {ms : List Nat} {best : Nat × D} {s : SearchState D}
    {r : Nat × SearchState D}, ZeroRecorded s → bestFilterMedoid ix p ms best s = some r →
      ZeroRecorded r.2
  | [], _, _, _, h, e => by cases e; exact h
  | _ :: _, _, _, _, h, e => by
    obtain ⟨r₁, e₁, e⟩ := Option.bind_eq_some.1 e
    exact ZeroRecorded.bestFilterMedoid (h.scoreOne hdown e₁) e

/-- (PROVED) While the service is down, the seeded state records nothing but zeros. -/
theorem seedSearch_zeroRecorded {best : Nat} {s₀ : SearchState D}
    (h₀ : seedSearch ix p = .ok (best, s₀)) : ZeroRecorded s₀ := by
  obtain ⟨s, hs, e⟩ := seedSearch_spec h₀
  have hinit : ZeroRecorded (initState p : SearchState D) :=
    ⟨fun _ _ h => (by cases h), fun _ h => (by cases h)⟩
  have h : ZeroRecorded s := by
    unfold selectStart at hs
    split at hs
    · cases hs; exact hinit
    · split at hs
      · cases hs
      · split at hs
        · cases hs
        · cases hs
          exact hinit.bestFilterMedoid hdown ‹_›
  unfold seedStart at e
  split at e
  · cases e
  · rename_i d s₁ h₁
    cases e
    have h₂ := h.scoreOne hdown h₁
    exact ⟨h₂.memo_zero, h₂.full_zero⟩

end Steps

omit [LinearOrder D] in
/-- (PROVED) In the partition configuration, a frontier node is recorded with its memo entry
    or, when there is none, with the `0` that `node_distances[node_id]` inserts. -/
theorem frontierNodeDist_partition (hmode : PartitionMemoMode ix p) {u : Nat} {s : SearchState D}
    {r : D × SearchState D} (e : frontierNodeDist ix p u s = some r) :
    r.1 = (s.memo.nodeDistances u).getD 0 ∧ r.2.fullRetset = s.fullRetset ∧
      r.2.memo.nodeDistances = Function.update s.memo.nodeDistances u (some r.1) := by
  obtain ⟨hpart, hrec, hdedup, hskip, hdef⟩ := hmode
  simp only [frontierNodeDist, hpart, hrec, hdedup, hskip, hdef, Bool.and_self, if_true,
    Bool.false_eq_true, if_false, Option.some.injEq] at e
  subst e
  exact ⟨rfl, rfl, rfl⟩

section Run

variable (hmode : PartitionMemoMode ix p) (hdown : ServiceDown ix)
include hmode hdown

theorem ZeroRecorded.expandFrontier {u : Nat} {sb sb' : SearchState D × List Nat}
    (h : ZeroRecorded sb.1) (e : expandFrontier ix p u sb = some sb') : ZeroRecorded sb'.1 := by
  obtain ⟨r, hr, e⟩ := Option.bind_eq_some.1 e
  obtain ⟨hd, hf, hm⟩ := frontierNodeDist_partition hmode hr
  have hd0 : r.1 = 0 := by
    rw [hd]
    cases hx : sb.1.memo.nodeDistances u with
    | none => rfl
    | some d => exact h.memo_zero u d hx
  have h₁ : ZeroRecorded { r.2 with fullRetset := r.2.fullRetset ++ [⟨u, r.1, false⟩] } := by
    refine ⟨fun x d hx => ?_, fun n hn => ?_⟩
    · simp only [hm, Function.update_apply] at hx
      split at hx
      · rw [← hd0]; exact (Option.some.inj hx).symm
      · exact h.memo_zero x d hx
    · rcases List.mem_append.1 hn with hn | hn
      · exact h.full_zero n (hf ▸ hn)
      · rw [List.mem_singleton.1 hn]; exact hd0
  dsimp only at e
  split at e
  · cases e; exact h₁
  · obtain ⟨s', hs', rfl⟩ := Option.map_eq_some'.1 e
    exact h₁.pruneThenAdmit hdown hs'

theorem ZeroRecorded.expandFrontierAll : ∀ {l : List Nat} {sb sb' : SearchState D × List Nat},
    ZeroRecorded sb.1 → expandFrontierAll ix p l sb = some sb' → ZeroRecorded sb'.1
  | [], _, _, h, e => by cases e; exact h
  | u :: l, _, _, h, e => by
    obtain ⟨sb₁, e₁, e⟩ := Option.bind_eq_some.1 e
    exact ZeroRecorded.expandFrontierAll (h.expandFrontier hmode hdown e₁) e

theorem ZeroRecorded.hop (hcache : ∀ u, ix.nhoodCache u = none) {s s' : SearchState D}
    (h : ZeroRecorded s) (e : hop ix p s = some s') : ZeroRecorded s' := by
  have hnil : cachedNhoods ix (popBeam p.beamWidth s.retset).1 = [] := by
    simp [cachedNhoods, hcache]
  simp only [DiskAnn.hop, hnil, expandCachedAll, Option.some_bind, Option.bind_eq_some,
    Option.map_eq_some'] at e
  obtain ⟨⟨s₃, b⟩, e₃, s₄, e₄, rfl⟩ := e
  have h₃ : ZeroRecorded (s₃, b).1 := by
    refine ZeroRecorded.expandFrontierAll hmode hdown ?_ e₃
    exact ⟨h.memo_zero, h.full_zero⟩
  have h₄ : ZeroRecorded s₄ := by
    split at e₄
    · exact h₃.pruneThenAdmit hdown e₄
    · cases e₄; exact h₃
  exact ⟨h₄.memo_zero, h₄.full_zero⟩

end Run

/-- (PROVED) In the partition configuration with no node cache, while the embedding service
    is down, every node a seeded run expands is recorded in `full_retset` at distance `0`. -/
theorem searchLoop_partition_records_zero (hmode : PartitionMemoMode ix p)
    (hdown : ServiceDown ix) (hcache : ∀ u, ix.nhoodCache u = none) {best : Nat}
    {s₀ : SearchState D} (h₀ : seedSearch ix p = .ok (best, s₀)) :
    ∀ n s, searchLoop ix p n s₀ = some s → ∀ e ∈ s.fullRetset, e.distance = 0 :=
  fun _ _ hs => (searchLoop_induction ZeroRecorded (fun _ _ h _ e => h.hop hmode hdown hcache e)
    (seedSearch_zeroRecorded hdown h₀) hs).full_zero

/-- The fork in partition mode with the embedding service down; PQ distance `id + 1`. -/
def downIndex : SearchIndex Nat Nat :=
  { graphIndex forkGraph with
    usePartition := true
    fetchEmbeddings := fun _ _ => none
    pqDist := fun u => u + 1 }

/-- Recompute with `dedup_node_dis`, beam width 2. -/
def downParams : SearchParams := { graphParams 100 2 true false .zero with dedupNodeDis := true }

theorem downRun_records_zero :
    PartitionMemoMode downIndex downParams ∧ ServiceDown downIndex ∧
      (∀ u, downIndex.nhoodCache u = none) ∧
      ∃ best s₀, seedSearch downIndex downParams = .ok (best, s₀) ∧
        ∀ n s, searchLoop downIndex downParams n s₀ = some s →
          ∀ e ∈ s.fullRetset, e.distance = 0 :=
  let ⟨⟨best, s₀⟩, h₀⟩ := exists_ok_of_isOk (x := seedSearch downIndex downParams) (by decide)
  ⟨⟨rfl, rfl, rfl, rfl, rfl⟩, fun _ _ => rfl, fun _ => rfl, best, s₀, h₀,
    searchLoop_partition_records_zero ⟨rfl, rfl, rfl, rfl, rfl⟩ (fun _ _ => rfl) (fun _ => rfl) h₀⟩

/-- The three nodes entered the frontier with PQ distances `1`, `2`, `3`, and are recorded
    at `0`. -/
example : (cachedBeamSearch downIndex downParams 10).toOption.map (fun r =>
    r.state.fullRetset.map fun n => (n.id, n.distance, downIndex.pqDist n.id)) =
      some [(0, 0, 1), (1, 0, 2), (2, 0, 3)] := by
  decide

end DiskAnn
