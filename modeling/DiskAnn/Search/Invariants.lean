import DiskAnn.Search.Run

/-
  DiskANN search: the bookkeeping invariant of `cached_beam_search` over every run.

  `SearchInv ix p start s`: every id in `retset` was inserted, every inserted id is visited,
  and `retset`, the insertion trace and `full_retset` are duplicate-free; every inserted id
  is `start` or passes the admission test; every `full_retset` id was inserted and is no
  longer unexpanded in `retset`; the popped prefix of the global-pruning heap is visited;
  and every `prune_node_nbrs` call so far left at most the ids it was given (a
  sub-multiset of them under local pruning).

  Step lemmas: `SearchInv.visit` and `SearchInv.insert` (one admitted id), `admitNbrs_inv`
  (the admission loop), `pruneThenAdmit_inv`, the node expansions with the list of popped
  ids still to expand (`HopInv`), and `hop_inv`. Run lemma: `searchLoop_inv`.
-/

namespace DiskAnn

open NeighborPriorityQueue

variable {D V : Type}

/-! ## The beam -/

theorem popBeam_spec : ∀ (n : Nat) (q : NeighborPriorityQueue D),
    (popBeam n q).2.ids = q.ids ∧
      q.unexpandedIds = (popBeam n q).1 ++ (popBeam n q).2.unexpandedIds ∧
      (popBeam n q).1.length ≤ n
  | 0, q => by simp [popBeam]
  | n + 1, q => by
    unfold popBeam
    split
    · rename_i h
      simp [closestUnexpanded_eq_none.1 h]
    · rename_i nb q' h
      obtain ⟨h1, -, -, h4⟩ := closestUnexpanded_spec h
      obtain ⟨ih1, ih2, ih3⟩ := popBeam_spec n q'
      exact ⟨ih1.trans h1, by rw [h4, ih2]; rfl, by simp only [List.length_cons]; omega⟩

/-! ## The invariant -/

/-- The bookkeeping of `retset`, `visited`, the insertion trace and `full_retset`;
    `start` is the seeded medoid. -/
structure Bookkeeping (ix : SearchIndex D V) (p : SearchParams) (start : Nat) (s : SearchState D) :
    Prop where
  retset_inserted : ∀ x ∈ s.retset.ids, x ∈ s.inserted
  retset_nodup : s.retset.ids.Nodup
  inserted_visited : ∀ x ∈ s.inserted, x ∈ s.visited
  inserted_nodup : s.inserted.Nodup
  inserted_admitted : ∀ x ∈ s.inserted, x = start ∨ admits ix p x = some true
  full_inserted : ∀ x ∈ idsOf s.fullRetset, x ∈ s.inserted
  full_nodup : (idsOf s.fullRetset).Nodup
  full_expanded : ∀ x ∈ idsOf s.fullRetset, x ∉ s.retset.unexpandedIds

/-- The invariant of the main loop: the bookkeeping, the popped prefix of the
    global-pruning heap visited, and every `prune_node_nbrs` call so far bounded. -/
structure SearchInv (ix : SearchIndex D V) (p : SearchParams) (start : Nat) (s : SearchState D)
    extends Bookkeeping ix p start s : Prop where
  top_visited : TopVisited p.pruneRatio s.visited s.aqPriorityQueue
  prune_log : ∀ c ∈ s.pruneLog,
    c.2.length ≤ c.1.length ∧ (p.globalPruning = false → c.2.Subperm c.1)

variable {ix : SearchIndex D V} {p : SearchParams} {start : Nat}

theorem Bookkeeping.retset_visited {s : SearchState D} (h : Bookkeeping ix p start s) :
    ∀ x ∈ s.retset.ids, x ∈ s.visited :=
  fun x hx => h.inserted_visited x (h.retset_inserted x hx)

/-- Marking an id visited keeps the bookkeeping. -/
theorem Bookkeeping.visit {s : SearchState D} (h : Bookkeeping ix p start s) (id : Nat) :
    Bookkeeping ix p start { s with visited := id :: s.visited } where
  __ := h
  inserted_visited x hx := List.mem_cons_of_mem _ (h.inserted_visited x hx)

/-- What a step inside a hop changes besides `memo`, `aq_priority_queue` and the prune
    trace: `full_retset` and `num_ios` stay, ids are only added to `visited` and the insertion
    trace, and every newly inserted or newly unexpanded id was not visited. -/
structure Grows (s s' : SearchState D) : Prop where
  fullRetset_eq : s'.fullRetset = s.fullRetset
  numIos_eq : s'.numIos = s.numIos
  visited_sub : s.visited ⊆ s'.visited
  inserted_sub : s.inserted ⊆ s'.inserted
  inserted_new : ∀ x ∈ s'.inserted, x ∈ s.inserted ∨ x ∉ s.visited
  unexpanded_new : ∀ x ∈ s'.retset.unexpandedIds, x ∈ s.retset.unexpandedIds ∨ x ∉ s.visited

theorem Grows.refl (s : SearchState D) : Grows s s :=
  ⟨rfl, rfl, fun _ h => h, fun _ h => h, fun _ h => .inl h, fun _ h => .inl h⟩

theorem Grows.trans {s₁ s₂ s₃ : SearchState D} (h₁ : Grows s₁ s₂) (h₂ : Grows s₂ s₃) :
    Grows s₁ s₃ where
  fullRetset_eq := h₂.fullRetset_eq.trans h₁.fullRetset_eq
  numIos_eq := h₂.numIos_eq.trans h₁.numIos_eq
  visited_sub := fun _ hx => h₂.visited_sub (h₁.visited_sub hx)
  inserted_sub := fun _ hx => h₂.inserted_sub (h₁.inserted_sub hx)
  inserted_new x hx := by
    rcases h₂.inserted_new x hx with hx | hx
    · exact h₁.inserted_new x hx
    · exact .inr fun hv => hx (h₁.visited_sub hv)
  unexpanded_new x hx := by
    rcases h₂.unexpanded_new x hx with hx | hx
    · exact h₁.unexpanded_new x hx
    · exact .inr fun hv => hx (h₁.visited_sub hv)

/-! ## Steps that change only `memo` -/

theorem Bookkeeping.setMemo {s : SearchState D} (h : Bookkeeping ix p start s) (m : DistMemo D) :
    Bookkeeping ix p start { s with memo := m } := { h with }

theorem SearchInv.setMemo {s : SearchState D} (h : SearchInv ix p start s) (m : DistMemo D) :
    SearchInv ix p start { s with memo := m } := ⟨h.toBookkeeping.setMemo m, h.top_visited, h.prune_log⟩

theorem Bookkeeping.setHeap {s : SearchState D} (h : Bookkeeping ix p start s)
    (aq : List (D × Nat)) (log : List (List Nat × List Nat)) :
    Bookkeeping ix p start { s with aqPriorityQueue := aq, pruneLog := log } := { h with }

theorem Grows.setMemo (s : SearchState D) (m : DistMemo D) : Grows s { s with memo := m } :=
  ⟨rfl, rfl, fun _ h => h, fun _ h => h, fun _ h => .inl h, fun _ h => .inl h⟩

/-- `compute_dists` changes only the memo, and scores every id. -/
theorem scoreIds_spec {ids : List Nat} {s : SearchState D} {r : List D × SearchState D}
    (e : scoreIds ix p ids s = some r) : r.2 = { s with memo := r.2.memo } ∧ r.1.length = ids.length := by
  obtain ⟨⟨ds, m⟩, hc, rfl⟩ := Option.map_eq_some'.1 e
  exact ⟨rfl, computeDists_length hc⟩

theorem scoreOne_spec {u : Nat} {s : SearchState D} {r : D × SearchState D}
    (e : scoreOne ix p u s = some r) : r.2 = { s with memo := r.2.memo } := by
  obtain ⟨r', hr', e⟩ := Option.bind_eq_some.1 e
  obtain ⟨d, -, rfl⟩ := Option.map_eq_some'.1 e
  exact (scoreIds_spec hr').1

/-! ## The hop's pending list -/

/-- Inside a hop: the invariant, and the popped ids still to expand, which are
    duplicate-free, inserted, not yet in `full_retset` and no longer unexpanded. -/
structure HopInv (ix : SearchIndex D V) (p : SearchParams) (start : Nat) (s : SearchState D)
    (pending : List Nat) extends SearchInv ix p start s : Prop where
  pending_nodup : pending.Nodup
  pending_inserted : ∀ x ∈ pending, x ∈ s.inserted
  pending_fresh : ∀ x ∈ pending, x ∉ idsOf s.fullRetset
  pending_popped : ∀ x ∈ pending, x ∉ s.retset.unexpandedIds

theorem HopInv.setMemo {s : SearchState D} {pending : List Nat} (h : HopInv ix p start s pending)
    (m : DistMemo D) : HopInv ix p start { s with memo := m } pending :=
  ⟨h.toSearchInv.setMemo m, h.pending_nodup, h.pending_inserted, h.pending_fresh, h.pending_popped⟩

/-- A step that keeps the invariant and changes only what `Grows` allows keeps the pending
    list's guarantees. -/
theorem HopInv.grow {s s' : SearchState D} {pending : List Nat} (h : HopInv ix p start s pending)
    (h' : SearchInv ix p start s') (hg : Grows s s') : HopInv ix p start s' pending where
  toSearchInv := h'
  pending_nodup := h.pending_nodup
  pending_inserted x hx := hg.inserted_sub (h.pending_inserted x hx)
  pending_fresh x hx := hg.fullRetset_eq ▸ h.pending_fresh x hx
  pending_popped x hx hu := by
    rcases hg.unexpanded_new x hu with hu | hv
    · exact h.pending_popped x hx hu
    · exact hv (h.inserted_visited x (h.pending_inserted x hx))

/-- Expanding the next pending id appends it to `full_retset`. -/
theorem HopInv.push {s : SearchState D} {u : Nat} {rest : List Nat}
    (h : HopInv ix p start s (u :: rest)) (d : D) :
    HopInv ix p start { s with fullRetset := s.fullRetset ++ [⟨u, d, false⟩] } rest := by
  obtain ⟨hu, hrest⟩ := List.nodup_cons.1 h.pending_nodup
  have hmem : ∀ x, x ∈ idsOf (s.fullRetset ++ [⟨u, d, false⟩]) ↔ x ∈ idsOf s.fullRetset ∨ x = u :=
    by simp
  refine { h with
    full_inserted := fun x hx => ?_
    full_nodup := ?_
    full_expanded := fun x hx => ?_
    pending_nodup := hrest
    pending_inserted := fun x hx => h.pending_inserted x (List.mem_cons_of_mem _ hx)
    pending_fresh := fun x hx => ?_
    pending_popped := fun x hx => h.pending_popped x (List.mem_cons_of_mem _ hx) }
  · rcases (hmem x).1 hx with hx | rfl
    · exact h.full_inserted x hx
    · exact h.pending_inserted x (List.mem_cons_self _ _)
  · simpa using h.full_nodup.concat (h.pending_fresh u (List.mem_cons_self _ _))
  · rcases (hmem x).1 hx with hx | rfl
    · exact h.full_expanded x hx
    · exact h.pending_popped x (List.mem_cons_self _ _)
  · rw [hmem]
    rintro (hf | rfl)
    · exact h.pending_fresh x (List.mem_cons_of_mem _ hx) hf
    · exact hu hx

/-- Popping the beam: the popped ids, in any order, become the hop's pending list. -/
theorem HopInv.pop {s : SearchState D} (h : SearchInv ix p start s) {popped pending : List Nat}
    {q : NeighborPriorityQueue D} (hids : q.ids = s.retset.ids)
    (hsplit : s.retset.unexpandedIds = popped ++ q.unexpandedIds) (hperm : pending.Perm popped)
    (n : Nat) (f : List (List Nat)) :
    HopInv ix p start { s with retset := q, numIos := n, frontiers := f } pending := by
  have hnd : (popped ++ q.unexpandedIds).Nodup :=
    hsplit ▸ (unexpandedIds_sublist _).nodup h.retset_nodup
  obtain ⟨hpnd, -, hdisj⟩ := List.nodup_append.1 hnd
  have hpop : ∀ x ∈ pending, x ∈ s.retset.unexpandedIds := fun x hx =>
    hsplit ▸ List.mem_append_left _ (hperm.mem_iff.1 hx)
  exact { h with
    retset_inserted := fun x hx => h.retset_inserted x (hids ▸ hx)
    retset_nodup := hids ▸ h.retset_nodup
    full_expanded := fun x hx hu => h.full_expanded x hx (hsplit ▸ List.mem_append_right _ hu)
    pending_nodup := hperm.nodup_iff.2 hpnd
    pending_inserted := fun x hx => h.retset_inserted x (mem_ids_of_mem_unexpandedIds (hpop x hx))
    pending_fresh := fun x hx hf => h.full_expanded x hf (hpop x hx)
    pending_popped := fun x hx hu => hdisj (hperm.mem_iff.1 hx) hu }

theorem map_fst_cachedNhoods (ix : SearchIndex D V) (beam : List Nat) :
    (cachedNhoods ix beam).map (·.1) = beam.filter fun u => (ix.nhoodCache u).isSome := by
  induction beam with
  | nil => rfl
  | cons u beam ih =>
    simp only [cachedNhoods, List.filterMap_cons, List.filter_cons] at ih ⊢
    cases ix.nhoodCache u <;> simp [ih]

/-- The beam's cached ids followed by its uncached frontier are the beam, reordered. -/
theorem cachedNhoods_frontierOf_perm (ix : SearchIndex D V) (beam : List Nat) :
    ((cachedNhoods ix beam).map (·.1) ++ frontierOf ix beam).Perm beam := by
  rw [map_fst_cachedNhoods]
  simpa [frontierOf] using List.filter_append_perm (fun u => (ix.nhoodCache u).isSome) beam

section Order

variable [LinearOrder D]

/-- Inserting a fresh, visited, admitted id keeps the bookkeeping. -/
theorem Bookkeeping.insert {s : SearchState D} (h : Bookkeeping ix p start s) {id : Nat} {d : D}
    (hv : id ∈ s.visited) (hfresh : id ∉ s.inserted) (hok : admits ix p id = some true) :
    Bookkeeping ix p start
      { s with retset := s.retset.insert ⟨id, d, false⟩, inserted := id :: s.inserted } where
  __ := h
  retset_inserted x hx := by
    rcases mem_ids_insert hx with rfl | hx
    · exact List.mem_cons_self _ _
    · exact List.mem_cons_of_mem _ (h.retset_inserted x hx)
  retset_nodup := ids_insert_nodup (fun hm => hfresh (h.retset_inserted _ hm)) h.retset_nodup
  inserted_visited := List.forall_mem_cons.2 ⟨hv, h.inserted_visited⟩
  inserted_nodup := List.nodup_cons.2 ⟨hfresh, h.inserted_nodup⟩
  inserted_admitted := List.forall_mem_cons.2 ⟨.inr hok, h.inserted_admitted⟩
  full_inserted x hx := List.mem_cons_of_mem _ (h.full_inserted x hx)
  full_expanded x hx hu := by
    rcases mem_unexpandedIds_insert hu with rfl | hu
    · exact hfresh (h.full_inserted _ hx)
    · exact h.full_expanded x hx hu

/-- One admission step: mark visited, and insert when admitted. -/
theorem admit_one {s : SearchState D} (h : Bookkeeping ix p start s) {id : Nat} {d : D}
    (hid : id ∉ s.visited) {ok : Bool} (hok : admits ix p id = some ok) :
    let s₁ := { s with visited := id :: s.visited }
    let s₂ := if ok then { s₁ with retset := s₁.retset.insert ⟨id, d, false⟩,
                                   inserted := id :: s₁.inserted } else s₁
    Bookkeeping ix p start s₂ ∧ Grows s s₂ ∧ s₂.aqPriorityQueue = s.aqPriorityQueue ∧
      s₂.pruneLog = s.pruneLog ∧ id ∈ s₂.visited := by
  have hfresh : id ∉ s.inserted := fun hm => hid (h.inserted_visited _ hm)
  cases ok with
  | false =>
    exact ⟨h.visit id, ⟨rfl, rfl, List.subset_cons_self _ _, fun _ hx => hx, fun _ hx => .inl hx,
      fun _ hx => .inl hx⟩, rfl, rfl, List.mem_cons_self _ _⟩
  | true =>
    refine ⟨(h.visit id).insert (List.mem_cons_self _ _) hfresh hok,
      ⟨rfl, rfl, List.subset_cons_self _ _, List.subset_cons_self _ _,
        List.forall_mem_cons.2 ⟨.inr hid, fun _ => .inl⟩, fun x hx => ?_⟩, rfl, rfl,
      List.mem_cons_self _ _⟩
    rcases mem_unexpandedIds_insert hx with rfl | hx
    · exact .inr hid
    · exact .inl hx

/-- (PROVED) The admission loop keeps the bookkeeping, changes only what `Grows` allows,
    leaves the heap and the prune trace, and visits every id of its list. -/
theorem admitNbrs_inv : ∀ {l : List (Nat × D)} {s s' : SearchState D},
    Bookkeeping ix p start s → admitNbrs ix p l s = some s' →
      Bookkeeping ix p start s' ∧ Grows s s' ∧ s'.aqPriorityQueue = s.aqPriorityQueue ∧
        s'.pruneLog = s.pruneLog ∧ ∀ x ∈ l, x.1 ∈ s'.visited
  | [], s, s', h, e => by cases e; exact ⟨h, Grows.refl s, rfl, rfl, by simp⟩
  | (id, d) :: rest, s, s', h, e => by
    unfold admitNbrs at e
    split at e
    · rename_i hid
      obtain ⟨h', hg, ha, hp, hall⟩ := admitNbrs_inv h e
      exact ⟨h', hg, ha, hp, by simpa [hg.visited_sub hid] using hall⟩
    · rename_i hid
      obtain ⟨ok, hok, e⟩ := Option.bind_eq_some.1 e
      obtain ⟨h₂, hg₂, ha₂, hp₂, hv₂⟩ := admit_one (d := d) h hid hok
      obtain ⟨h', hg, ha, hp, hall⟩ := admitNbrs_inv h₂ e
      exact ⟨h', hg₂.trans hg, ha.trans ha₂, hp.trans hp₂, by simpa [hg.visited_sub hv₂] using hall⟩

/-- The admission loop changes only `visited`, `retset` and the insertion trace, and inserts
    only ids of its list. -/
theorem admitNbrs_frame : ∀ {l : List (Nat × D)} {s s' : SearchState D},
    admitNbrs ix p l s = some s' →
      s'.memo = s.memo ∧ s'.fullRetset = s.fullRetset ∧ s'.aqPriorityQueue = s.aqPriorityQueue ∧
        ∀ x ∈ s'.inserted, x ∈ s.inserted ∨ x ∈ l.map Prod.fst
  | [], _, _, e => by cases e; exact ⟨rfl, rfl, rfl, fun _ hx => .inl hx⟩
  | (id, d) :: rest, s, s', e => by
    unfold admitNbrs at e
    split at e
    · obtain ⟨hm, hf, ha, hi⟩ := admitNbrs_frame e
      exact ⟨hm, hf, ha, fun x hx => (hi x hx).imp_right (List.mem_cons_of_mem _)⟩
    · obtain ⟨ok, -, e⟩ := Option.bind_eq_some.1 e
      cases ok with
      | false =>
        obtain ⟨hm, hf, ha, hi⟩ := admitNbrs_frame e
        exact ⟨hm, hf, ha, fun x hx => (hi x hx).imp_right (List.mem_cons_of_mem _)⟩
      | true =>
        obtain ⟨hm, hf, ha, hi⟩ := admitNbrs_frame e
        refine ⟨hm, hf, ha, fun x hx => ?_⟩
        rcases hi x hx with hx | hx
        · rcases List.mem_cons.1 hx with rfl | hx
          · exact .inr (List.mem_cons_self _ _)
          · exact .inl hx
        · exact .inr (List.mem_cons_of_mem _ hx)

/-- Scoring a list and admitting it: the admission loop's guarantees, with every id of the
    list visited. -/
theorem scoreAndAdmit_inv {nbrs : List Nat} {s s' : SearchState D} (h : Bookkeeping ix p start s)
    (e : scoreAndAdmit ix p nbrs s = some s') :
    Bookkeeping ix p start s' ∧ Grows s s' ∧ s'.aqPriorityQueue = s.aqPriorityQueue ∧
      s'.pruneLog = s.pruneLog ∧ ∀ x ∈ nbrs, x ∈ s'.visited := by
  obtain ⟨r, hr, e⟩ := Option.bind_eq_some.1 e
  obtain ⟨hs, hlen⟩ := scoreIds_spec hr
  rw [hs] at e
  obtain ⟨h', hg, ha, hp, hall⟩ := admitNbrs_inv (h.setMemo r.2.memo) e
  refine ⟨h', (Grows.setMemo s _).trans hg, ha, hp, fun x hx => ?_⟩
  rw [← List.map_fst_zip nbrs r.1 hlen.ge] at hx
  obtain ⟨y, hy, rfl⟩ := List.mem_map.1 hx
  exact hall y hy

theorem SearchInv.scoreAndAdmit {nbrs : List Nat} {s s' : SearchState D}
    (h : SearchInv ix p start s) (e : scoreAndAdmit ix p nbrs s = some s') :
    SearchInv ix p start s' ∧ Grows s s' := by
  obtain ⟨h', hg, ha, hp, -⟩ := scoreAndAdmit_inv h.toBookkeeping e
  exact ⟨⟨h', ha ▸ topVisited_mono hg.visited_sub h.top_visited, hp ▸ h.prune_log⟩, hg⟩

/-- (PROVED) `prune_node_nbrs` followed by admission keeps the invariant: the heap condition
    before the call bounds what it leaves, and admitting what it left restores the heap
    condition. -/
theorem pruneThenAdmit_inv {nbrs : List Nat} {s s' : SearchState D} (h : SearchInv ix p start s)
    (e : pruneThenAdmit ix p nbrs s = some s') : SearchInv ix p start s' ∧ Grows s s' := by
  unfold pruneThenAdmit at e
  obtain ⟨h', hg, ha, hp, hall⟩ := scoreAndAdmit_inv (h.toBookkeeping.setHeap _ _) e
  refine ⟨⟨h', ?_, ?_⟩, { hg with }⟩
  · rw [ha]; exact topVisited_after_pruneNodeNbrs h.top_visited hg.visited_sub hall
  · rw [hp]
    intro c hc
    rcases List.mem_cons.1 hc with rfl | hc
    · exact ⟨pruneNodeNbrs_length_le h.top_visited nbrs,
        fun hgp => by rw [hgp]; exact pruneNodeNbrs_subperm_of_local nbrs⟩
    · exact h.prune_log c hc

/-! ## The seeded state -/

theorem bestFilterMedoid_spec : ∀ {ms : List Nat} {best : Nat × D} {s : SearchState D}
    {r : Nat × SearchState D}, bestFilterMedoid ix p ms best s = some r →
      ∃ m, r.2 = { s with memo := m }
  | [], _, s, r, e => by cases e; exact ⟨s.memo, rfl⟩
  | _ :: _, _, s, r, e => by
    obtain ⟨r₁, e₁, e⟩ := Option.bind_eq_some.1 e
    obtain ⟨m, hm⟩ := bestFilterMedoid_spec e
    exact ⟨m, by rw [hm, scoreOne_spec e₁]⟩

/-- The start selection only scores medoids: its state is the fresh one up to the memo. -/
theorem selectStart_spec {best : Nat} {s : SearchState D} (e : selectStart ix p = .ok (best, s)) :
    ∃ m, s = { initState p with memo := m } := by
  unfold selectStart at e
  split at e
  · cases e; exact ⟨_, rfl⟩
  · split at e
    · cases e
    · split at e
      · cases e
      · cases e
        exact bestFilterMedoid_spec ‹_›

/-- (PROVED) The seeded state satisfies the invariant, with the chosen medoid as `start`. -/
theorem seed_inv {best : Nat} {s s₀ : SearchState D} (hs : selectStart ix p = .ok (best, s))
    (e : seedStart ix p best s = .ok s₀) : SearchInv ix p best s₀ := by
  obtain ⟨m, rfl⟩ := selectStart_spec hs
  unfold seedStart at e
  split at e
  · cases e
  · rename_i d s₁ h₁
    cases e
    obtain ⟨m', rfl⟩ : ∃ m', s₁ = { initState p with memo := m' } := ⟨_, scoreOne_spec h₁⟩
    have hret : ∀ x ∈ ((NeighborPriorityQueue.reserve p.lSearch : NeighborPriorityQueue D).insert
        ⟨best, d, false⟩).ids, x = best :=
      fun x hx => (mem_ids_insert hx).resolve_right (List.not_mem_nil x)
    exact {
      retset_inserted := fun x hx => List.mem_singleton.2 (hret x hx)
      retset_nodup := ids_insert_nodup (List.not_mem_nil _) List.nodup_nil
      inserted_visited := fun _ hx => hx
      inserted_nodup := List.nodup_singleton best
      inserted_admitted := fun _ hx => .inl (List.mem_singleton.1 hx)
      full_inserted := fun x hx => absurd hx (List.not_mem_nil x)
      full_nodup := List.nodup_nil
      full_expanded := fun x hx => absurd hx (List.not_mem_nil x)
      top_visited := topVisited_nil _ _
      prune_log := fun c hc => absurd hc (List.not_mem_nil c) }

/-! ## One hop and every run -/

variable [Zero D]

omit [LinearOrder D] in
theorem cachedNodeDist_spec {u : Nat} {s : SearchState D} {r : D × SearchState D}
    (e : cachedNodeDist ix p u s = some r) : r.2 = { s with memo := r.2.memo } := by
  unfold cachedNodeDist at e
  split at e
  · exact scoreOne_spec e
  · split at e <;> cases e <;> rfl

omit [LinearOrder D] in
theorem frontierNodeDist_spec {u : Nat} {s : SearchState D} {r : D × SearchState D}
    (e : frontierNodeDist ix p u s = some r) : r.2 = { s with memo := r.2.memo } := by
  unfold frontierNodeDist at e
  split at e
  · exact scoreOne_spec e
  · split at e
    · cases e; rfl
    · split at e <;> cases e <;> rfl

theorem expandCached_inv {u : Nat} {nbrs rest : List Nat} {s s' : SearchState D}
    (h : HopInv ix p start s (u :: rest)) (e : expandCached ix p u nbrs s = some s') :
    HopInv ix p start s' rest ∧ s'.numIos = s.numIos := by
  obtain ⟨r, hr, e⟩ := Option.bind_eq_some.1 e
  have hm := cachedNodeDist_spec hr
  have h₁ : HopInv ix p start r.2 (u :: rest) := by rw [hm]; exact h.setMemo _
  have h₂ := h₁.push r.1
  have hn : r.2.numIos = s.numIos := by rw [hm]
  obtain ⟨h₃, hg⟩ := h₂.toSearchInv.scoreAndAdmit e
  exact ⟨h₂.grow h₃ hg, hg.numIos_eq.trans hn⟩

theorem expandFrontier_inv {u : Nat} {rest : List Nat} {sb sb' : SearchState D × List Nat}
    (h : HopInv ix p start sb.1 (u :: rest)) (e : expandFrontier ix p u sb = some sb') :
    HopInv ix p start sb'.1 rest ∧ sb'.1.numIos = sb.1.numIos := by
  obtain ⟨r, hr, e⟩ := Option.bind_eq_some.1 e
  have hm := frontierNodeDist_spec hr
  have h₁ : HopInv ix p start r.2 (u :: rest) := by rw [hm]; exact h.setMemo _
  have h₂ := h₁.push r.1
  have hn : r.2.numIos = sb.1.numIos := by rw [hm]
  dsimp only at e
  split at e
  · cases e; exact ⟨h₂, hn⟩
  · obtain ⟨s', hs', rfl⟩ := Option.map_eq_some'.1 e
    obtain ⟨h₃, hg⟩ := pruneThenAdmit_inv h₂.toSearchInv hs'
    exact ⟨h₂.grow h₃ hg, hg.numIos_eq.trans hn⟩

theorem expandCachedAll_inv : ∀ {l : List (Nat × List Nat)} {rest : List Nat} {s s' : SearchState D},
    HopInv ix p start s (l.map (·.1) ++ rest) → expandCachedAll ix p l s = some s' →
      HopInv ix p start s' rest ∧ s'.numIos = s.numIos
  | [], _, s, s', h, e => by cases e; exact ⟨h, rfl⟩
  | (u, nbrs) :: l, rest, s, s', h, e => by
    simp only [expandCachedAll, Option.bind_eq_some] at e
    obtain ⟨s₁, e₁, e⟩ := e
    obtain ⟨h₁, n₁⟩ := expandCached_inv h e₁
    obtain ⟨h', n'⟩ := expandCachedAll_inv h₁ e
    exact ⟨h', n'.trans n₁⟩

theorem expandFrontierAll_inv : ∀ {l : List Nat} {sb sb' : SearchState D × List Nat},
    HopInv ix p start sb.1 l → expandFrontierAll ix p l sb = some sb' →
      SearchInv ix p start sb'.1 ∧ sb'.1.numIos = sb.1.numIos
  | [], sb, sb', h, e => by cases e; exact ⟨h.toSearchInv, rfl⟩
  | u :: l, sb, sb', h, e => by
    simp only [expandFrontierAll, Option.bind_eq_some] at e
    obtain ⟨sb₁, e₁, e⟩ := e
    obtain ⟨h₁, n₁⟩ := expandFrontier_inv h e₁
    obtain ⟨h', n'⟩ := expandFrontierAll_inv h₁ e
    exact ⟨h', n'.trans n₁⟩

/-- (PROVED) A hop keeps the invariant and adds one read per uncached popped node. -/
theorem hop_inv {s s' : SearchState D} (h : SearchInv ix p start s) (e : hop ix p s = some s') :
    SearchInv ix p start s' ∧
      s'.numIos = s.numIos + (frontierOf ix (popBeam p.beamWidth s.retset).1).length := by
  obtain ⟨hids, hsplit, -⟩ := popBeam_spec p.beamWidth s.retset
  simp only [hop, Option.bind_eq_some, Option.map_eq_some'] at e
  obtain ⟨s₂, e₂, ⟨s₃, b⟩, e₃, s₄, e₄, rfl⟩ := e
  obtain ⟨h₂, n₂⟩ := expandCachedAll_inv
    (HopInv.pop h hids hsplit (cachedNhoods_frontierOf_perm ix _) _ _) e₂
  obtain ⟨h₃, n₃⟩ : SearchInv ix p start s₃ ∧ s₃.numIos = s₂.numIos :=
    expandFrontierAll_inv h₂ e₃
  have ⟨h₄, n₄⟩ : SearchInv ix p start s₄ ∧ s₄.numIos = s₃.numIos := by
    split at e₄
    · obtain ⟨h₄, hg⟩ := pruneThenAdmit_inv h₃ e₄
      exact ⟨h₄, hg.numIos_eq⟩
    · cases e₄; exact ⟨h₃, rfl⟩
  exact ⟨⟨{ h₄.toBookkeeping with }, h₄.top_visited, h₄.prune_log⟩, n₄.trans (n₃.trans n₂)⟩

/-- Run principle of the main loop: a property that holds at the start and that every hop
    taken under the loop guard preserves holds at the end of every run. -/
theorem searchLoop_induction (P : SearchState D → Prop)
    (step : ∀ s s', P s → loopGuard p s = true → hop ix p s = some s' → P s') :
    ∀ {fuel : Nat} {s s' : SearchState D}, P s → searchLoop ix p fuel s = some s' → P s'
  | 0, s, s', h, e => by cases e; exact h
  | fuel + 1, s, s', h, e => by
    unfold searchLoop at e
    split at e
    · obtain ⟨s₁, e₁, e⟩ := Option.bind_eq_some.1 e
      exact searchLoop_induction P step (step s s₁ h ‹_› e₁) e
    · cases e; exact h

/-- (PROVED) Every run of the main loop keeps the invariant. -/
theorem searchLoop_inv {fuel : Nat} {s s' : SearchState D} (h : SearchInv ix p start s)
    (e : searchLoop ix p fuel s = some s') : SearchInv ix p start s' :=
  searchLoop_induction (SearchInv ix p start) (fun _ _ h _ e => (hop_inv h e).1) h e

end Order

end DiskAnn
