import DiskAnn.Search.Outcome

/-
  DiskANN search: `dedup_node_dis` as an optimisation of the recompute path, over a whole
  `cached_beam_search` call (`pq_flash_index.cpp`, lines 1772-2896).

  Model. Two calls on the same index and query, one with `dedup_node_dis` and one without,
  outside partition mode, under an embedding service that answers every request with the
  requested ids' embeddings (whatever the request's number). Only `compute_dists` reads
  `dedup_node_dis` there, and only it reads or fills `node_distances`; so at every step the
  plain call's state is the dedup call's state with another memo.

  Proved: every function of the seed, the hop and the finish that returns with
  `dedup_node_dis` is matched by the same function without it on the state with another memo,
  with the same distances (`scoreIds_plain`, ..., `hop_plain`, `finishSearch_plain`), and the
  dedup memo holds plain distances only (`MemoPlain`). By induction over the main loop's fuel
  (`searchLoop_plain`), a dedup search that returns has the plain search's `full_retset` and
  output (`cachedBeamSearch_dedup_agrees`). Only `computeDists_plain` reads `compute_dists`.
-/

namespace DiskAnn

variable {D V : Type}

/-! ## The plain path, and states that differ in the memo only -/

/-- The same call without `dedup_node_dis`. -/
@[simps]
def SearchParams.plain (p : SearchParams) : SearchParams := { p with dedupNodeDis := false }

/-- Every entry of the state's memo is the plain distance of its id. -/
def MemoPlain (ix : SearchIndex D V) (emb : Nat → V) (s : SearchState D) : Prop :=
  ∀ id d, s.memo.nodeDistances id = some d → d = ix.embDist (emb id)

theorem memoPlain_empty (ix : SearchIndex D V) (emb : Nat → V) (s : SearchState D)
    (h : s.memo = DistMemo.empty) : MemoPlain ix emb s := by
  intro id d hd
  rw [h] at hd
  cases hd

section Twin

variable [LinearOrder D] [Zero D] {ix : SearchIndex D V} {p : SearchParams} {emb : Nat → V}

omit [LinearOrder D] [Zero D] in
@[simp] theorem admits_plain : admits ix p.plain = admits ix p := rfl

omit [Zero D] in
theorem admitNbrs_plain (m : DistMemo D) : ∀ (l : List (Nat × D)) (s : SearchState D),
    admitNbrs ix p.plain l { s with memo := m } =
      (admitNbrs ix p l s).map fun s' => { s' with memo := m }
  | [], _ => rfl
  | (id, d) :: rest, s => by
    simp only [admitNbrs, admits_plain]
    split
    · exact admitNbrs_plain m rest s
    · cases admits ix p id with
      | none => rfl
      | some ok =>
        cases ok
        · exact admitNbrs_plain m rest { s with visited := id :: s.visited }
        · let s' : SearchState D := { s with visited := id :: s.visited }
          exact admitNbrs_plain m rest
            { s' with retset := s'.retset.insert ⟨id, d, false⟩, inserted := id :: s'.inserted }

variable (hs : ∀ n ids, ix.fetchEmbeddings n ids = some (ids.map emb))
include hs

omit [LinearOrder D] [Zero D] in
theorem scoreIds_plain {ids : List Nat} {s : SearchState D} {r : List D × SearchState D}
    (hm : MemoPlain ix emb s) (e : scoreIds ix p ids s = some r) (m : DistMemo D) :
    ∃ m', scoreIds ix p.plain ids { s with memo := m } = some (r.1, { r.2 with memo := m' }) ∧
      MemoPlain ix emb r.2 := by
  obtain ⟨⟨ds, m₁⟩, hc, rfl⟩ := Option.map_eq_some'.1 e
  obtain ⟨m', h, hm'⟩ := computeDists_plain (c := distCfg ix p) hs hm hc m
  exact ⟨m', Option.map_eq_some'.2 ⟨_, h, rfl⟩, hm'⟩

omit [Zero D] in
theorem scoreAndAdmit_plain {nbrs : List Nat} {s s' : SearchState D} (hm : MemoPlain ix emb s)
    (e : scoreAndAdmit ix p nbrs s = some s') (m : DistMemo D) :
    ∃ m', scoreAndAdmit ix p.plain nbrs { s with memo := m } = some { s' with memo := m' } ∧
      MemoPlain ix emb s' := by
  obtain ⟨r, hr, ha⟩ := Option.bind_eq_some.1 e
  obtain ⟨m', h, hm'⟩ := scoreIds_plain hs hm hr m
  refine ⟨m', Option.bind_eq_some.2 ⟨_, h, ?_⟩, ?_⟩
  · rw [admitNbrs_plain, ha]; rfl
  · intro id d hd
    rw [(admitNbrs_frame ha).1] at hd
    exact hm' id d hd

omit [Zero D] in
theorem pruneThenAdmit_plain {nbrs : List Nat} {s s' : SearchState D} (hm : MemoPlain ix emb s)
    (e : pruneThenAdmit ix p nbrs s = some s') (m : DistMemo D) :
    ∃ m', pruneThenAdmit ix p.plain nbrs { s with memo := m } = some { s' with memo := m' } ∧
      MemoPlain ix emb s' := by
  unfold pruneThenAdmit at e ⊢
  exact scoreAndAdmit_plain hs (by exact hm) e m

omit [LinearOrder D] [Zero D] in
theorem scoreOne_plain {u : Nat} {s : SearchState D} {r : D × SearchState D}
    (hm : MemoPlain ix emb s) (e : scoreOne ix p u s = some r) (m : DistMemo D) :
    ∃ m', scoreOne ix p.plain u { s with memo := m } = some (r.1, { r.2 with memo := m' }) ∧
      MemoPlain ix emb r.2 := by
  obtain ⟨q, hq, e⟩ := Option.bind_eq_some.1 e
  obtain ⟨d, hd, rfl⟩ := Option.map_eq_some'.1 e
  obtain ⟨m', h, hm'⟩ := scoreIds_plain hs hm hq m
  exact ⟨m', Option.bind_eq_some.2 ⟨_, h, Option.map_eq_some'.2 ⟨d, hd, rfl⟩⟩, hm'⟩

omit [LinearOrder D] in
theorem cachedNodeDist_plain {u : Nat} {s : SearchState D} {r : D × SearchState D}
    (hm : MemoPlain ix emb s) (e : cachedNodeDist ix p u s = some r) (m : DistMemo D) :
    ∃ m', cachedNodeDist ix p.plain u { s with memo := m } = some (r.1, { r.2 with memo := m' }) ∧
      MemoPlain ix emb r.2 := by
  cases h₁ : p.skipSearchReorder
  · cases h₂ : p.deferredFetch <;>
      simp only [cachedNodeDist, SearchParams.plain_skipSearchReorder, SearchParams.plain_deferredFetch,
        h₁, h₂, if_true, if_false, Bool.false_eq_true, Option.some.injEq] at e ⊢ <;>
      subst e <;> exact ⟨m, rfl, hm⟩
  · simp only [cachedNodeDist, SearchParams.plain_skipSearchReorder, h₁, if_true] at e ⊢
    exact scoreOne_plain hs hm e m

variable (hpart : ix.usePartition = false)
include hpart

omit [LinearOrder D] in
theorem frontierNodeDist_plain {u : Nat} {s : SearchState D} {r : D × SearchState D}
    (hm : MemoPlain ix emb s) (e : frontierNodeDist ix p u s = some r) (m : DistMemo D) :
    ∃ m', frontierNodeDist ix p.plain u { s with memo := m } = some (r.1, { r.2 with memo := m' }) ∧
      MemoPlain ix emb r.2 := by
  cases h₁ : p.skipSearchReorder
  · cases h₂ : p.deferredFetch <;>
      simp only [frontierNodeDist, SearchParams.plain_skipSearchReorder,
        SearchParams.plain_deferredFetch, SearchParams.plain_dedupNodeDis, hpart, h₁, h₂,
        Bool.and_false, if_true, if_false, Bool.false_eq_true, Option.some.injEq] at e ⊢ <;>
      subst e <;> exact ⟨m, rfl, hm⟩
  · simp only [frontierNodeDist, SearchParams.plain_skipSearchReorder, h₁, if_true] at e ⊢
    exact scoreOne_plain hs hm e m

omit hpart in
theorem expandCached_plain {u : Nat} {nbrs : List Nat} {s s' : SearchState D}
    (hm : MemoPlain ix emb s) (e : expandCached ix p u nbrs s = some s') (m : DistMemo D) :
    ∃ m', expandCached ix p.plain u nbrs { s with memo := m } = some { s' with memo := m' } ∧
      MemoPlain ix emb s' := by
  obtain ⟨r, hr, e⟩ := Option.bind_eq_some.1 e
  obtain ⟨m₁, h₁, hm₁⟩ := cachedNodeDist_plain hs hm hr m
  obtain ⟨m₂, h₂, hm₂⟩ := scoreAndAdmit_plain hs (by exact hm₁) e m₁
  exact ⟨m₂, Option.bind_eq_some.2 ⟨_, h₁, h₂⟩, hm₂⟩

theorem expandFrontier_plain {u : Nat} {sb sb' : SearchState D × List Nat}
    (hm : MemoPlain ix emb sb.1) (e : expandFrontier ix p u sb = some sb') (m : DistMemo D) :
    ∃ m', expandFrontier ix p.plain u ({ sb.1 with memo := m }, sb.2) =
        some ({ sb'.1 with memo := m' }, sb'.2) ∧ MemoPlain ix emb sb'.1 := by
  obtain ⟨r, hr, e⟩ := Option.bind_eq_some.1 e
  obtain ⟨m₁, h₁, hm₁⟩ := frontierNodeDist_plain hs hpart hm hr m
  refine (?_ : ∃ m', _ ∧ _).imp fun m' h => ⟨Option.bind_eq_some.2 ⟨_, h₁, h.1⟩, h.2⟩
  simp only [SearchParams.plain_batchRecompute]
  split at e
  · cases e
    exact ⟨m₁, by rw [if_pos ‹_›], hm₁⟩
  · obtain ⟨s', h, rfl⟩ := Option.map_eq_some'.1 e
    obtain ⟨m₂, h₂, hm₂⟩ := pruneThenAdmit_plain hs (by exact hm₁) h m₁
    exact ⟨m₂, by rw [if_neg ‹_›, h₂]; rfl, hm₂⟩

omit hpart in
theorem expandCachedAll_plain : ∀ {l : List (Nat × List Nat)} {s s' : SearchState D},
    MemoPlain ix emb s → expandCachedAll ix p l s = some s' → ∀ m : DistMemo D,
      ∃ m', expandCachedAll ix p.plain l { s with memo := m } = some { s' with memo := m' } ∧
        MemoPlain ix emb s'
  | [], _, _, hm, e, m => by cases e; exact ⟨m, rfl, hm⟩
  | (u, nbrs) :: rest, _, _, hm, e, m => by
    obtain ⟨s₁, h₁, e⟩ := Option.bind_eq_some.1 e
    obtain ⟨m₁, h₁', hm₁⟩ := expandCached_plain hs hm h₁ m
    obtain ⟨m₂, h₂, hm₂⟩ := expandCachedAll_plain hm₁ e m₁
    exact ⟨m₂, Option.bind_eq_some.2 ⟨_, h₁', h₂⟩, hm₂⟩

theorem expandFrontierAll_plain : ∀ {l : List Nat} {sb sb' : SearchState D × List Nat},
    MemoPlain ix emb sb.1 → expandFrontierAll ix p l sb = some sb' → ∀ m : DistMemo D,
      ∃ m', expandFrontierAll ix p.plain l ({ sb.1 with memo := m }, sb.2) =
          some ({ sb'.1 with memo := m' }, sb'.2) ∧ MemoPlain ix emb sb'.1
  | [], _, _, hm, e, m => by cases e; exact ⟨m, rfl, hm⟩
  | u :: rest, _, _, hm, e, m => by
    obtain ⟨sb₁, h₁, e⟩ := Option.bind_eq_some.1 e
    obtain ⟨m₁, h₁', hm₁⟩ := expandFrontier_plain hs hpart hm h₁ m
    obtain ⟨m₂, h₂, hm₂⟩ := expandFrontierAll_plain hm₁ e m₁
    exact ⟨m₂, Option.bind_eq_some.2 ⟨_, h₁', h₂⟩, hm₂⟩

theorem hop_plain {s s' : SearchState D} (hm : MemoPlain ix emb s) (e : hop ix p s = some s')
    (m : DistMemo D) :
    ∃ m', hop ix p.plain { s with memo := m } = some { s' with memo := m' } ∧ MemoPlain ix emb s' := by
  obtain ⟨s₁, h₁, e⟩ := Option.bind_eq_some.1 e
  obtain ⟨sb, h₂, e⟩ := Option.bind_eq_some.1 e
  obtain ⟨s₃, h₃, rfl⟩ := Option.map_eq_some'.1 e
  obtain ⟨m₁, h₁', hm₁⟩ := expandCachedAll_plain hs (by exact hm) h₁ m
  obtain ⟨m₂, h₂', hm₂⟩ := expandFrontierAll_plain hs hpart (by exact hm₁) h₂ m₁
  have hb : ∃ m₃, (if p.batchRecompute then pruneThenAdmit ix p.plain sb.2 { sb.1 with memo := m₂ }
      else some { sb.1 with memo := m₂ }) = some { s₃ with memo := m₃ } ∧ MemoPlain ix emb s₃ := by
    split at h₃
    · rw [if_pos ‹_›]
      exact pruneThenAdmit_plain hs hm₂ h₃ m₂
    · cases h₃
      exact ⟨m₂, by rw [if_neg ‹_›], hm₂⟩
  obtain ⟨m₃, h₃', hm₃⟩ := hb
  exact ⟨m₃, Option.bind_eq_some.2 ⟨_, h₁', Option.bind_eq_some.2 ⟨_, h₂',
    Option.map_eq_some'.2 ⟨_, h₃', rfl⟩⟩⟩, hm₃⟩

theorem searchLoop_plain : ∀ {fuel : Nat} {s s' : SearchState D},
    MemoPlain ix emb s → searchLoop ix p fuel s = some s' → ∀ m : DistMemo D,
      ∃ m', searchLoop ix p.plain fuel { s with memo := m } = some { s' with memo := m' } ∧
        MemoPlain ix emb s'
  | 0, _, _, hm, e, m => by cases e; exact ⟨m, rfl, hm⟩
  | fuel + 1, s, _, hm, e, m => by
    have hg : loopGuard p.plain { s with memo := m } = loopGuard p s := rfl
    unfold searchLoop at e
    split at e
    · obtain ⟨s₁, h₁, e⟩ := Option.bind_eq_some.1 e
      obtain ⟨m₁, h₁', hm₁⟩ := hop_plain hs hpart hm h₁ m
      obtain ⟨m₂, h₂, hm₂⟩ := searchLoop_plain hm₁ e m₁
      exact ⟨m₂, by rw [searchLoop, hg, if_pos ‹_›, h₁', Option.some_bind, h₂], hm₂⟩
    · cases e
      exact ⟨m, by rw [searchLoop, hg, if_neg ‹_›], hm⟩

omit hpart [Zero D] in
theorem bestFilterMedoid_plain : ∀ {ms : List Nat} {best : Nat × D} {s : SearchState D}
    {r : Nat × SearchState D}, MemoPlain ix emb s → bestFilterMedoid ix p ms best s = some r →
      ∀ m : DistMemo D, ∃ m', bestFilterMedoid ix p.plain ms best { s with memo := m } =
        some (r.1, { r.2 with memo := m' }) ∧ MemoPlain ix emb r.2
  | [], _, _, _, hm, e, m => by cases e; exact ⟨m, rfl, hm⟩
  | _ :: _, _, _, _, hm, e, m => by
    obtain ⟨q, hq, e⟩ := Option.bind_eq_some.1 e
    obtain ⟨m₁, h₁, hm₁⟩ := scoreOne_plain hs hm hq m
    obtain ⟨m₂, h₂, hm₂⟩ := bestFilterMedoid_plain hm₁ e m₁
    exact ⟨m₂, Option.bind_eq_some.2 ⟨_, h₁, h₂⟩, hm₂⟩

omit hpart [Zero D] in
theorem selectStart_plain {best : Nat} {s : SearchState D} (e : selectStart ix p = .ok (best, s)) :
    ∃ m, selectStart ix p.plain = .ok (best, { s with memo := m }) ∧ MemoPlain ix emb s := by
  have h₀ : MemoPlain ix emb (initState p : SearchState D) := memoPlain_empty ix emb _ rfl
  unfold selectStart at e ⊢
  simp only [SearchParams.plain_useFilter, SearchParams.plain_filterLabel]
  split at e
  · rw [if_pos ‹_›]
    cases e
    exact ⟨DistMemo.empty, rfl, h₀⟩
  · rw [if_neg ‹_›]
    split at e
    · cases e
    · split at e
      · cases e
      · rename_i r hr
        cases e
        obtain ⟨m, h, hm⟩ := bestFilterMedoid_plain hs h₀ hr (initState p).memo
        have h' : bestFilterMedoid ix p.plain _ (0, ix.fltMax) (initState p.plain) =
            some (best, { s with memo := m }) := h
        rw [h']
        exact ⟨m, rfl, hm⟩

omit hpart [Zero D] in
theorem seedStart_plain {best : Nat} {s s₀ : SearchState D} (hm : MemoPlain ix emb s)
    (e : seedStart ix p best s = .ok s₀) (m : DistMemo D) :
    ∃ m', seedStart ix p.plain best { s with memo := m } = .ok { s₀ with memo := m' } ∧
      MemoPlain ix emb s₀ := by
  unfold seedStart at e ⊢
  split at e
  · cases e
  · rename_i d s₁ h₁
    cases e
    obtain ⟨m', h, hm'⟩ := scoreOne_plain hs hm h₁ m
    rw [h]
    exact ⟨m', rfl, hm'⟩

omit hpart [Zero D] in
theorem seedSearch_plain {best : Nat} {s₀ : SearchState D} (e : seedSearch ix p = .ok (best, s₀)) :
    ∃ m, seedSearch ix p.plain = .ok (best, { s₀ with memo := m }) ∧ MemoPlain ix emb s₀ := by
  obtain ⟨s, h₁, h₂⟩ := seedSearch_spec e
  obtain ⟨m, h₁', hm⟩ := selectStart_plain hs h₁
  obtain ⟨m', h₂', hm'⟩ := seedStart_plain hs hm h₂ m
  exact ⟨m', except_bind_eq_ok.2 ⟨_, h₁', except_bind_eq_ok.2 ⟨_, h₂', rfl⟩⟩, hm'⟩

theorem runLoop_plain {fuel : Nat} {s₀ s : SearchState D} (hm : MemoPlain ix emb s₀)
    (e : runLoop ix p fuel s₀ = .ok s) (m : DistMemo D) :
    ∃ m', runLoop ix p.plain fuel { s₀ with memo := m } = .ok { s with memo := m' } := by
  obtain ⟨h₁, h₂⟩ := runLoop_spec e
  obtain ⟨m', h, -⟩ := searchLoop_plain hs hpart hm h₁ m
  have hg : loopGuard p.plain { s with memo := m' } = false := h₂
  exact ⟨m', by simp only [runLoop, h, hg, Bool.false_eq_true, if_false]; rfl⟩

omit hpart [LinearOrder D] [Zero D] in
theorem deferredRetset_setMemo (q : SearchParams) (s : SearchState D) (m : DistMemo D) :
    deferredRetset ix q { s with memo := m } = deferredRetset ix q s := by
  simp only [deferredRetset, hs]

omit hpart [Zero D] in
theorem finishSearch_plain {s : SearchState D} {r : SearchResult D} (e : finishSearch ix p s = .ok r)
    (m : DistMemo D) :
    finishSearch ix p.plain { s with memo := m } = .ok { r with state := { r.state with memo := m } } := by
  have hd : deferredRetset ix p.plain { s with memo := m } = deferredRetset ix p s :=
    deferredRetset_setMemo hs p.plain s m
  unfold finishSearch at e ⊢
  obtain ⟨fr?, h₁, e⟩ := except_bind_eq_ok.1 e
  refine except_bind_eq_ok.2 ⟨fr?, hd.trans h₁, ?_⟩
  cases fr? with
  | none => cases e; rfl
  | some fr =>
    obtain ⟨fr', h₂, e⟩ := except_bind_eq_ok.1 e
    refine except_bind_eq_ok.2 ⟨fr', h₂, ?_⟩
    split at e
    · cases e
    · rename_i out hout
      cases e
      simp only [SearchParams.plain_kSearch, hout]
      rfl

end Twin

section Agree

variable [LinearOrder D] [Zero D] {ix : SearchIndex D V} {p : SearchParams} {emb : Nat → V}

/-- (PROVED) A `dedup_node_dis` search that returns has the result of the same search without
    it: the same `full_retset`, the same ids and distances copied out, and the same loop state
    up to the memo. -/
theorem cachedBeamSearch_dedup_agrees {fuel : Nat} {r : SearchResult D}
    (hpart : ix.usePartition = false) (hs : ∀ n ids, ix.fetchEmbeddings n ids = some (ids.map emb))
    (e : cachedBeamSearch ix p fuel = .ok r) :
    ∃ m, cachedBeamSearch ix { p with dedupNodeDis := false } fuel =
      .ok { r with state := { r.state with memo := m } } := by
  obtain ⟨hbw, best, s₀, h₁, h₂, h₃⟩ := cachedBeamSearch_spec e
  obtain ⟨m, h₁', hm⟩ := seedSearch_plain hs h₁
  obtain ⟨m', h₂'⟩ := runLoop_plain hs hpart hm h₂ m
  refine ⟨m', ?_⟩
  unfold cachedBeamSearch
  dsimp only
  rw [if_neg (Nat.not_lt_of_le hbw)]
  exact except_bind_eq_ok.2 ⟨_, rfl, except_bind_eq_ok.2 ⟨_, h₁', except_bind_eq_ok.2 ⟨_, h₂',
    finishSearch_plain hs h₃ m'⟩⟩⟩

/-- The recompute query on the fork graph with `dedup_node_dis` returns, with the plain
    query's result. -/
theorem forkRun_dedup_agrees :
    (graphIndex forkGraph).usePartition = false ∧
      (∀ n ids, (graphIndex forkGraph).fetchEmbeddings n ids = some (ids.map id)) ∧
      ∃ r, cachedBeamSearch (graphIndex forkGraph)
          { graphParams 100 2 true false .zero with dedupNodeDis := true } 5 = .ok r ∧
        ∃ m, cachedBeamSearch (graphIndex forkGraph) (graphParams 100 2 true false .zero) 5 =
          .ok { r with state := { r.state with memo := m } } :=
  have hs : ∀ n ids, (graphIndex forkGraph).fetchEmbeddings n ids = some (ids.map id) :=
    fun _ ids => by simp [graphIndex]
  let ⟨r, h⟩ := exists_ok_of_isOk (x := cachedBeamSearch (graphIndex forkGraph)
    { graphParams 100 2 true false .zero with dedupNodeDis := true } 5) (by decide)
  ⟨rfl, hs, r, h, cachedBeamSearch_dedup_agrees rfl hs h⟩

end Agree

end DiskAnn
