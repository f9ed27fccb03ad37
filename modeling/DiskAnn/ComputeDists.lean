import Mathlib.Logic.Function.Basic
import Mathlib.Data.List.Basic

/-
  DiskANN search: the `compute_dists` lambda of `cached_beam_search`
  (`pq_flash_index.cpp`, lines 1875-1987).

  Model. `compute_dists(ids, n_ids, dists_out)` either looks the ids up in the PQ table
  (`aggregate_coords` + `pq_dist_lookup`, here `pqDist` per id) or, when
  `recompute_beighbor_embeddings` is set, fetches their embeddings from the embedding
  service and compares them with the query (`embDist`: `preprocess_fetched_embeddings`,
  `resize`, `_dist_cmp->compare`). With `dedup_node_dis` a first pass serves the ids found in
  the per-query memo `node_distances` and collects the others in `node_ids`; a second pass
  walks the ids again and, for the `idx`-th miss at position `i`, writes the distance to
  `dists_out[i]` and to `node_distances[node_ids[i]]`. The service is any function of the
  request's number within the query and its ids; `none` is a failed `fetch_embeddings_http`.
  A failed fetch, or one with the wrong number of rows, falls back to PQ distances for all
  ids. A read of `node_ids` past its end is undefined behaviour: the call returns `none`.

  Proved: `computeDists_length` (a call that returns fills one distance per id), and
  `fillMemo_eq_none_of_miss` (the second pass reads `node_ids` past its end as soon as a
  miss sits at a position `i ≥ |node_ids|`, which happens whenever a memo hit precedes a miss).
  Exactly: a dedup call reads past the end iff some memo hit precedes a miss and the service
  answered with one row per requested id (`computeDists_eq_none_iff`). Under a service that
  answers every request with each id's embedding, a recompute call that returns gives the
  plain path's distances, with or without `dedup_node_dis`, and keeps every memo entry the
  plain distance of its id (`computeDists_exact`); the same call without `dedup_node_dis`, on
  any memo, then returns the same distances (`computeDists_plain`).
-/

namespace DiskAnn

variable {D V : Type}

/-- What `compute_dists` closes over: the flags, the PQ lookup and the embedding service. -/
structure DistCfg (D V : Type) where
  recomputeBeighborEmbeddings : Bool
  dedupNodeDis : Bool
  /-- `aggregate_coords` + `pq_dist_lookup` for one id. -/
  pqDist : Nat → D
  /-- `fetch_embeddings_http`: the answer to the query's `n`-th request, `none` on failure. -/
  fetchEmbeddings : Nat → List Nat → Option (List V)
  /-- Preprocess a fetched embedding, pad it to `_aligned_dim`, compare with the query. -/
  embDist : V → D

/-- The per-query state `compute_dists` reads and writes. -/
structure DistMemo (D : Type) where
  nodeDistances : Nat → Option D
  /-- Requests sent to the embedding service so far in this query. -/
  requests : Nat

/-- The memo at the start of a query. -/
def DistMemo.empty : DistMemo D := ⟨fun _ => none, 0⟩

/-- The PQ path: one table lookup per id. -/
def pqDists (c : DistCfg D V) (ids : List Nat) : List D := ids.map c.pqDist

/-- `node_ids`: the ids whose embeddings are requested. -/
def nodeIdsToFetch (c : DistCfg D V) (memo : Nat → Option D) (ids : List Nat) : List Nat :=
  if c.dedupNodeDis then ids.filter fun i => (memo i).isNone else ids

/-- The second pass of the dedup branch over the first pass's results (`some d` for a memo
    hit, `none` for a miss): position `i`, miss counter `idx`. -/
def fillMemo (embDist : V → D) (nodeIds : List Nat) (embs : List V) :
    List (Option D) → Nat → Nat → (Nat → Option D) → Option (List D × (Nat → Option D))
  | [], _, _, memo => some ([], memo)
  | some d :: rest, i, idx, memo =>
    (fillMemo embDist nodeIds embs rest (i + 1) idx memo).map fun r => (d :: r.1, r.2)
  | none :: rest, i, idx, memo =>
    match embs[idx]?, nodeIds[i]? with
    | some e, some key =>
      (fillMemo embDist nodeIds embs rest (i + 1) (idx + 1)
        (Function.update memo key (some (embDist e)))).map fun r => (embDist e :: r.1, r.2)
    | _, _ => none

/-- `compute_dists`: the distances for `ids` and the memo after the call; `none` when the
    call reads `node_ids` past its end. -/
def computeDists (c : DistCfg D V) (ids : List Nat) (m : DistMemo D) :
    Option (List D × DistMemo D) :=
  if !c.recomputeBeighborEmbeddings then some (pqDists c ids, m)
  else
    let nodeIds := nodeIdsToFetch c m.nodeDistances ids
    if c.dedupNodeDis && nodeIds.isEmpty then some (ids.filterMap m.nodeDistances, m)
    else
      let m' := { m with requests := m.requests + 1 }
      match c.fetchEmbeddings m.requests nodeIds with
      | some embs =>
        if embs.length = nodeIds.length then
          if c.dedupNodeDis then
            (fillMemo c.embDist nodeIds embs (ids.map m.nodeDistances) 0 0 m.nodeDistances).map
              fun r => (r.1, { m' with nodeDistances := r.2 })
          else some (embs.map c.embDist, m')
        else some (pqDists c ids, m')
      | none => some (pqDists c ids, m')

theorem fillMemo_length {embDist : V → D} {nodeIds : List Nat} {embs : List V} :
    ∀ {fp : List (Option D)} {i idx : Nat} {memo : Nat → Option D}
      {r : List D × (Nat → Option D)},
      fillMemo embDist nodeIds embs fp i idx memo = some r → r.1.length = fp.length
  | [], _, _, _, r, h => by cases h; rfl
  | some d :: rest, i, idx, memo, r, h => by
    obtain ⟨r', h', rfl⟩ := Option.map_eq_some'.1 h
    simp [fillMemo_length h']
  | none :: rest, i, idx, memo, r, h => by
    simp only [fillMemo] at h
    split at h
    · obtain ⟨r', h', rfl⟩ := Option.map_eq_some'.1 h
      simp [fillMemo_length h']
    · cases h

/-- A call that returns fills one distance per id. -/
theorem computeDists_length {c : DistCfg D V} {ids : List Nat} {m : DistMemo D}
    {r : List D × DistMemo D} (h : computeDists c ids m = some r) : r.1.length = ids.length := by
  unfold computeDists at h
  split at h
  · cases h; simp [pqDists]
  · simp only [Bool.and_eq_true, decide_eq_true_eq, List.isEmpty_iff] at h
    split at h
    · rename_i hall
      cases h
      obtain ⟨hd, hnil⟩ := hall
      simp only [nodeIdsToFetch, hd, if_true, List.filter_eq_nil_iff, Option.isNone_iff_eq_none,
        decide_eq_true_eq] at hnil
      exact List.filterMap_length_eq_length.2 fun x hx => Option.isSome_iff_ne_none.2 (hnil x hx)
    · split at h
      · split at h
        · split at h
          · obtain ⟨r', h', rfl⟩ := Option.map_eq_some'.1 h
            simp [fillMemo_length h']
          · rename_i hlen hd
            cases h
            simp [hlen, nodeIdsToFetch, hd]
        · cases h; simp [pqDists]
      · cases h; simp [pqDists]

/-- The second pass reads `node_ids` past its end as soon as a miss sits at a position
    `i + p ≥ |node_ids|`. -/
theorem fillMemo_eq_none_of_miss {embDist : V → D} {nodeIds : List Nat} {embs : List V} :
    ∀ {fp : List (Option D)} {i idx p : Nat} {memo : Nat → Option D},
      fp[p]? = some none → nodeIds.length ≤ i + p →
        fillMemo embDist nodeIds embs fp i idx memo = none
  | [], _, _, _, _, h, _ => by simp at h
  | x :: rest, i, idx, 0, memo, h, hle => by
    obtain rfl : x = none := by simpa using h
    simp only [fillMemo, List.getElem?_eq_none (by omega : nodeIds.length ≤ i)]
    split <;> simp_all
  | x :: rest, i, idx, p + 1, memo, h, hle => by
    have ih : ∀ j m, fillMemo embDist nodeIds embs rest (i + 1) j m = none := fun _ _ =>
      fillMemo_eq_none_of_miss (p := p) (by simpa using h) (by omega)
    cases x with
    | some d => simp [fillMemo, ih]
    | none =>
      simp only [fillMemo]
      split <;> simp [ih]

/-! ## A failed fetch -/

/-- (PROVED) When every fetch fails, `compute_dists` falls back to PQ distances and writes
    nothing to `node_distances`. -/
theorem computeDists_memo_of_fetch_fails {c : DistCfg D V} {ids : List Nat} {m : DistMemo D}
    {r : List D × DistMemo D} (hc : ∀ n ids, c.fetchEmbeddings n ids = none)
    (e : computeDists c ids m = some r) : r.2.nodeDistances = m.nodeDistances := by
  unfold computeDists at e
  split at e
  · cases e; rfl
  · dsimp only at e
    split at e
    · cases e; rfl
    · simp only [hc] at e
      cases e; rfl

/-! ## The memo path under an exact service -/

/-- Recompute with `dedup_node_dis`, served by a deterministic service that answers every
    request with one embedding per requested id, `emb id`. -/
def dedupCfg (pqDist : Nat → D) (emb : Nat → V) (embDist : V → D) : DistCfg D V :=
  ⟨true, true, pqDist, fun _ ids => some (ids.map emb), embDist⟩

/-- (PROVED) Under an exact service, the call for `[a]` followed by the call for `[a, b]`
    reads `node_ids` past its end: in the second call `a` is a memo hit at position 0, `b`
    the only miss, so `node_ids = [b]` and the second pass reads `node_ids[1]`. -/
theorem computeDists_dedup_reads_past_end (pqDist : Nat → D) (emb : Nat → V) (embDist : V → D)
    (a b : Nat) (hab : a ≠ b) :
    ((computeDists (dedupCfg pqDist emb embDist) [a] DistMemo.empty).bind fun r =>
      computeDists (dedupCfg pqDist emb embDist) [a, b] r.2) = none := by
  -- the first call fetches `a` and memoises its distance
  let memo := Function.update (fun _ => none) a (some (embDist (emb a)))
  have h1 : computeDists (dedupCfg pqDist emb embDist) [a] DistMemo.empty =
      some ([embDist (emb a)], ⟨memo, 1⟩) := rfl
  -- in the second call `a` hits and `b` is the only miss, at position 1
  have hnode : nodeIdsToFetch (dedupCfg pqDist emb embDist) memo [a, b] = [b] := by
    simp [memo, nodeIdsToFetch, dedupCfg, Function.update, Ne.symm hab]
  have hmiss : memo b = none := by simp [memo, Function.update, Ne.symm hab]
  rw [h1, Option.some_bind]
  simp only [computeDists, hnode]
  simp only [dedupCfg, Bool.not_true, List.isEmpty_cons, Bool.and_false, List.map_cons,
    List.map_nil, List.length_singleton, if_true, if_false, Bool.false_eq_true]
  rw [fillMemo_eq_none_of_miss (p := 1) (by simp [hmiss]) (by simp), Option.map_none']

theorem computeDists_dedup_reads_past_end_zero_one :
    (0 : Nat) ≠ 1 ∧
      ((computeDists (dedupCfg (D := Nat) id id id) [0] DistMemo.empty).bind fun r =>
        computeDists (dedupCfg id id id) [0, 1] r.2) = none :=
  ⟨by decide, computeDists_dedup_reads_past_end id id id 0 1 (by decide)⟩

/-! ## When the memo path is defined, and what it returns -/

/-- No memo hit comes before a miss in the first pass: the misses form a prefix. -/
def missesFirst : List (Option D) → Bool
  | [] => true
  | none :: rest => missesFirst rest
  | some _ :: rest => rest.all Option.isSome

theorem countP_isNone_eq_zero_iff {fp : List (Option D)} :
    fp.countP Option.isNone = 0 ↔ fp.all Option.isSome = true := by
  simp [List.countP_eq_zero, Option.isSome_iff_ne_none, Option.isNone_iff_eq_none]

/-- The second pass from position `i`, after `idx` misses, with `node_ids` holding exactly the
    misses: while no hit has come first (`idx = i`) it returns exactly when no hit precedes a
    miss in the rest; after a hit, exactly when no miss is left. -/
theorem fillMemo_isSome_iff {embDist : V → D} {nodeIds : List Nat} {embs : List V}
    (fp : List (Option D)) (i idx : Nat) (memo : Nat → Option D) (hle : idx ≤ i)
    (hn : nodeIds.length = idx + fp.countP Option.isNone)
    (he : idx + fp.countP Option.isNone ≤ embs.length) :
    (fillMemo embDist nodeIds embs fp i idx memo).isSome = true ↔
      if idx = i then missesFirst fp = true else fp.countP Option.isNone = 0 := by
  induction fp generalizing i idx memo with
  | nil => simp [fillMemo, missesFirst]
  | cons x rest ih =>
    cases x with
    | some d =>
      simp only [List.countP_cons, Option.isNone_some, Bool.false_eq_true, if_false, Nat.add_zero] at hn he
      rw [fillMemo, Option.isSome_map', ih (i + 1) idx memo (by omega) hn he,
        if_neg (by omega : idx ≠ i + 1)]
      split_ifs with h
      · rw [missesFirst]; exact countP_isNone_eq_zero_iff
      · simp
    | none =>
      simp only [List.countP_cons, Option.isNone_none, if_true] at hn he
      have hemb : embs[idx]? = some embs[idx] := List.getElem?_eq_getElem (by omega)
      by_cases hi : i < nodeIds.length
      · rw [fillMemo, hemb, List.getElem?_eq_getElem hi]
        simp only [Option.isSome_map']
        rw [ih (i + 1) (idx + 1) _ (by omega) (by omega) (by omega)]
        by_cases h : idx = i
        · rw [if_pos (by omega), if_pos h, missesFirst]
        · -- a hit came first: some miss of `rest` is read past `node_ids`
          rw [if_neg (by omega), if_neg h, List.countP_cons_of_pos _ _ rfl]
          omega
      · rw [fillMemo, hemb, List.getElem?_eq_none (by omega), if_neg (by omega),
          List.countP_cons_of_pos _ _ rfl]
        simp

theorem missesFirst_of_all_isSome : ∀ {fp : List (Option D)}, fp.all Option.isSome = true →
    missesFirst fp = true
  | [], _ => rfl
  | none :: _, h => by simp at h
  | some _ :: _, h => by simpa [missesFirst] using h

theorem length_nodeIdsToFetch {c : DistCfg D V} (hd : c.dedupNodeDis = true)
    (memo : Nat → Option D) (ids : List Nat) :
    (nodeIdsToFetch c memo ids).length = (ids.map memo).countP Option.isNone := by
  simp [nodeIdsToFetch, hd, List.countP_eq_length_filter, List.filter_map, Function.comp_def]

/-- (PROVED) A dedup call of `compute_dists` reads `node_ids` past its end exactly when a memo
    hit precedes a miss and the service answered with one row per requested id. -/
theorem computeDists_eq_none_iff {c : DistCfg D V} {ids : List Nat} {m : DistMemo D}
    (hrec : c.recomputeBeighborEmbeddings = true) (hd : c.dedupNodeDis = true) :
    computeDists c ids m = none ↔
      missesFirst (ids.map m.nodeDistances) = false ∧
        ∃ embs, c.fetchEmbeddings m.requests (nodeIdsToFetch c m.nodeDistances ids) = some embs ∧
          embs.length = (nodeIdsToFetch c m.nodeDistances ids).length := by
  have hlen := length_nodeIdsToFetch hd m.nodeDistances ids
  simp only [computeDists, hrec, hd, Bool.not_true, Bool.false_eq_true, if_false, Bool.true_and]
  split_ifs with hnil
  · -- every id hits the memo
    have hall : (ids.map m.nodeDistances).all Option.isSome = true := by
      rw [← countP_isNone_eq_zero_iff, ← hlen, List.isEmpty_iff.1 hnil, List.length_nil]
    simp [missesFirst_of_all_isSome hall]
  · split
    · rename_i embs hf
      split_ifs with he
      · have h : (fillMemo c.embDist (nodeIdsToFetch c m.nodeDistances ids) embs
            (ids.map m.nodeDistances) 0 0 m.nodeDistances).isSome = true ↔ _ :=
          fillMemo_isSome_iff _ 0 0 _ le_rfl (by omega) (by omega)
        simp only [if_true] at h
        rw [Option.map_eq_none', ← Option.not_isSome_iff_eq_none, h]
        simp [hf, he]
      · simp [hf, he]
    · next hf => simp [hf]

/-- A memo that holds node `1` only. -/
def hitMemo : DistMemo Nat := ⟨fun i => if i = 1 then some 1 else none, 0⟩

/-- The call for `[1, 2]` on that memo: a hit before a miss. -/
theorem hitThenMiss_none_iff :
    (dedupCfg id id id : DistCfg Nat Nat).recomputeBeighborEmbeddings = true ∧
      (dedupCfg id id id : DistCfg Nat Nat).dedupNodeDis = true ∧
      (computeDists (dedupCfg id id id) [1, 2] hitMemo = none ↔
        missesFirst ([1, 2].map hitMemo.nodeDistances) = false ∧
          ∃ embs, (dedupCfg id id id : DistCfg Nat Nat).fetchEmbeddings hitMemo.requests
              (nodeIdsToFetch (dedupCfg id id id) hitMemo.nodeDistances [1, 2]) = some embs ∧
            embs.length = (nodeIdsToFetch (dedupCfg id id id) hitMemo.nodeDistances [1, 2]).length) :=
  ⟨rfl, rfl, computeDists_eq_none_iff rfl rfl⟩

/-- The embedding service answers every request with the embedding of each id it names. -/
def ExactService (c : DistCfg D V) (emb : Nat → V) : Prop :=
  ∀ n ids, c.fetchEmbeddings n ids = some (ids.map emb)

/-- Every memoised distance is the one the plain path computes for its id. -/
def MemoSound (c : DistCfg D V) (emb : Nat → V) (memo : Nat → Option D) : Prop :=
  ∀ id d, memo id = some d → d = c.embDist (emb id)

theorem MemoSound.update {c : DistCfg D V} {emb : Nat → V} {memo : Nat → Option D}
    (h : MemoSound c emb memo) (x : Nat) :
    MemoSound c emb (Function.update memo x (some (c.embDist (emb x)))) := by
  intro id d hd
  rcases eq_or_ne id x with rfl | hne
  · simpa using hd.symm
  · rw [Function.update_noteq hne] at hd; exact h id d hd

@[simp] theorem nodeIdsToFetch_nil (c : DistCfg D V) (memo : Nat → Option D) :
    nodeIdsToFetch c memo [] = [] := by
  unfold nodeIdsToFetch; split <;> rfl

theorem nodeIdsToFetch_append {c : DistCfg D V} (hd : c.dedupNodeDis = true)
    (memo : Nat → Option D) (l₁ l₂ : List Nat) :
    nodeIdsToFetch c memo (l₁ ++ l₂) = nodeIdsToFetch c memo l₁ ++ nodeIdsToFetch c memo l₂ := by
  simp [nodeIdsToFetch, hd, List.filter_append]

/-- The second pass over the suffix `suf` of the ids, under a service that returns the
    embedding of each requested id: every distance it writes is the plain one, and so is every
    memo entry it stores. -/
theorem fillMemo_sound {c : DistCfg D V} {emb : Nat → V} {memo₀ : Nat → Option D}
    (hd : c.dedupNodeDis = true) (h₀ : MemoSound c emb memo₀) (ids : List Nat) :
    ∀ (suf pre : List Nat) (memo : Nat → Option D) (r : List D × (Nat → Option D)),
      pre ++ suf = ids → MemoSound c emb memo →
      fillMemo c.embDist (nodeIdsToFetch c memo₀ ids) ((nodeIdsToFetch c memo₀ ids).map emb)
        (suf.map memo₀) pre.length (nodeIdsToFetch c memo₀ pre).length memo = some r →
      r.1 = suf.map (fun i => c.embDist (emb i)) ∧ MemoSound c emb r.2
  | [], _, memo, r, _, hm, e => by cases e; exact ⟨rfl, hm⟩
  | x :: suf, pre, memo, r, hids, hm, e => by
    have hsplit : nodeIdsToFetch c memo₀ ids =
        nodeIdsToFetch c memo₀ pre ++ nodeIdsToFetch c memo₀ (x :: suf) := by
      rw [← hids, nodeIdsToFetch_append hd]
    have hpre : pre ++ [x] ++ suf = ids := by simpa using hids
    cases hx : memo₀ x with
    | some d =>
      -- a memo hit: the first pass's distance, which the memo holds soundly
      have hnx : nodeIdsToFetch c memo₀ [x] = [] := by simp [nodeIdsToFetch, hd, hx]
      rw [List.map_cons, hx, fillMemo] at e
      obtain ⟨r', e', rfl⟩ := Option.map_eq_some'.1 e
      have ih := fillMemo_sound hd h₀ ids suf (pre ++ [x]) memo r' hpre hm
        (by rwa [List.length_append, nodeIdsToFetch_append hd, hnx, List.append_nil])
      exact ⟨by rw [ih.1, List.map_cons, h₀ x d hx], ih.2⟩
    | none =>
      -- a miss: the call returned, so no hit came before it and `node_ids[i]` is `x`
      have hnx : nodeIdsToFetch c memo₀ (x :: suf) = x :: nodeIdsToFetch c memo₀ suf := by
        simp [nodeIdsToFetch, hd, hx]
      have hcount : ((x :: suf).map memo₀).countP Option.isNone =
          (nodeIdsToFetch c memo₀ (x :: suf)).length := (length_nodeIdsToFetch hd _ _).symm
      have hle : (nodeIdsToFetch c memo₀ pre).length ≤ pre.length := by
        simp only [nodeIdsToFetch, hd, if_true]; exact List.length_filter_le _ _
      have hsome : (fillMemo c.embDist (nodeIdsToFetch c memo₀ ids)
          ((nodeIdsToFetch c memo₀ ids).map emb) ((x :: suf).map memo₀) pre.length
          (nodeIdsToFetch c memo₀ pre).length memo).isSome = true ↔ _ :=
        fillMemo_isSome_iff _ _ _ memo hle (by rw [hsplit, List.length_append, hcount])
          (by rw [List.length_map, hsplit, List.length_append, hcount])
      replace hsome := hsome.1 (by rw [e]; rfl)
      have hi : (nodeIdsToFetch c memo₀ pre).length = pre.length := by
        by_contra hne
        rw [if_neg hne, hcount, hnx] at hsome
        simp at hsome
      have hkey : (nodeIdsToFetch c memo₀ ids)[pre.length]? = some x := by
        rw [hsplit, ← hi, List.getElem?_append_right le_rfl, Nat.sub_self, hnx,
          List.getElem?_cons_zero]
      rw [List.map_cons, hx, fillMemo, List.getElem?_map, hi, hkey] at e
      dsimp only [Option.map_some'] at e
      obtain ⟨r', e', rfl⟩ := Option.map_eq_some'.1 e
      have hx1 : nodeIdsToFetch c memo₀ [x] = [x] := by simp [nodeIdsToFetch, hd, hx]
      have ih := fillMemo_sound hd h₀ ids suf (pre ++ [x]) _ r' hpre (hm.update x)
        (by rwa [List.length_append, nodeIdsToFetch_append hd, List.length_append, hx1, hi])
      exact ⟨by rw [ih.1]; rfl, ih.2⟩

theorem filterMap_of_sound {c : DistCfg D V} {emb : Nat → V} {memo : Nat → Option D}
    (hm : MemoSound c emb memo) :
    ∀ {ids : List Nat}, (∀ i ∈ ids, (memo i).isSome = true) →
      ids.filterMap memo = ids.map fun i => c.embDist (emb i)
  | [], _ => rfl
  | i :: ids, h => by
    obtain ⟨d, hd⟩ := Option.isSome_iff_exists.1 (h i (List.mem_cons_self _ _))
    rw [List.filterMap_cons, hd, List.map_cons, ← hm i d hd,
      filterMap_of_sound hm fun j hj => h j (List.mem_cons_of_mem _ hj)]

/-- Under an exact service, a recompute call of `compute_dists` that returns gives the plain
    distances, with or without `dedup_node_dis`, and keeps the memo sound. -/
theorem computeDists_exact {c : DistCfg D V} {emb : Nat → V} {ids : List Nat} {m : DistMemo D}
    {r : List D × DistMemo D} (hrec : c.recomputeBeighborEmbeddings = true)
    (hs : ExactService c emb) (hm : MemoSound c emb m.nodeDistances)
    (e : computeDists c ids m = some r) :
    r.1 = ids.map (fun i => c.embDist (emb i)) ∧ MemoSound c emb r.2.nodeDistances := by
  simp only [computeDists, hrec, Bool.not_true, Bool.false_eq_true, if_false,
    hs m.requests (nodeIdsToFetch c m.nodeDistances ids), List.length_map, if_true] at e
  cases hd : c.dedupNodeDis
  · -- the plain path: one embedding per id, the memo untouched
    simp only [hd, Bool.false_and, Bool.false_eq_true, if_false, Option.some.injEq] at e
    subst e
    simp [nodeIdsToFetch, hd, hm]
  · simp only [hd, Bool.true_and, if_true] at e
    split_ifs at e with hnil
    · -- every id hits the memo
      cases e
      refine ⟨filterMap_of_sound hm fun i hi => ?_, hm⟩
      have := List.isEmpty_iff.1 hnil
      simp only [nodeIdsToFetch, hd, if_true, List.filter_eq_nil_iff, Option.isNone_iff_eq_none,
        decide_eq_true_eq] at this
      exact Option.isSome_iff_ne_none.2 (this i hi)
    · obtain ⟨r', e', rfl⟩ := Option.map_eq_some'.1 e
      exact fillMemo_sound hd hm ids ids [] m.nodeDistances r' rfl hm
        (by rwa [List.length_nil, nodeIdsToFetch_nil, List.length_nil])

/-- A dedup call that returns under an exact service is matched by the same call without
    `dedup_node_dis`, on any memo: same distances, and the dedup memo stays sound. -/
theorem computeDists_plain {c : DistCfg D V} {emb : Nat → V} {ids : List Nat} {m : DistMemo D}
    {r : List D × DistMemo D} (hs : ExactService c emb) (hm : MemoSound c emb m.nodeDistances)
    (e : computeDists c ids m = some r) (m₀ : DistMemo D) :
    ∃ m₀', computeDists { c with dedupNodeDis := false } ids m₀ = some (r.1, m₀') ∧
      MemoSound c emb r.2.nodeDistances := by
  cases hrec : c.recomputeBeighborEmbeddings
  · simp only [computeDists, hrec, Bool.not_false, if_true, Option.some.injEq] at e ⊢
    subst e
    exact ⟨m₀, rfl, hm⟩
  · obtain ⟨h1, h2⟩ := computeDists_exact hrec hs hm e
    refine ⟨{ m₀ with requests := m₀.requests + 1 }, ?_, h2⟩
    simp [computeDists, hrec, hs m₀.requests, nodeIdsToFetch, h1, Function.comp_def]

end DiskAnn
