import DiskAnn.Search.Outcome
import DiskAnn.Search.Parallel

/-
  DiskANN's Python bindings: `StaticDiskIndex::search` and `StaticDiskIndex::batch_search`
  (`pq_flash_index.h`, lines 352-408), over the copy loop of `cached_beam_search`
  (`pq_flash_index.cpp`, lines 2853-2876).

  Model. The copy loop is a list of stores into the caller's buffers (`CopyStore`), query `i`
  of a batch writing from entry `i * knn` of the shared `u64_ids` and `dists`. The OpenMP
  threads run the queries in parallel (`parallelFor`: a query's exception, which no `try`
  catches, ends the program in `std::terminate`); since the searches share no state that a
  store changes, a run is the queries' searches and one interleaving of their stores, which
  is a parameter. `u64_ids` starts zeroed (`std::vector`) and `dists` holds whatever the
  `py::array_t` was allocated with, also a parameter. A query whose call returns before the
  copy leaves its row as it was.

  Proved: every call that returns copies `k_search` ids and distances
  (`cachedBeamSearch_copiesK`), so call `i` stores only into row `i`, each place once
  (`callStores_unique`); stores to different places commute (`applyStore_comm`), so every
  interleaving leaves the buffers the calls leave run one after the other
  (`foldl_interleave`). Hence `batch_search` returns row by row what `search` returns for each
  query alone, and fails exactly as the parallel loop of those calls does
  (`batchSearch_eq_search`).
-/

namespace DiskAnn

variable {D V : Type}

/-- A store of the copy loop of `cached_beam_search` (lines 2854-2876), at its place in the
    caller's buffer: `indices[i]` into `u64_ids` or `distances[i]` into `dists`. -/
inductive CopyStore (D : Type) where
  | index (pos v : Nat)
  | distance (pos : Nat) (v : D)

/-- Which buffer a store writes, and where. -/
def CopyStore.target : CopyStore D → Bool × Nat
  | .index pos _ => (true, pos)
  | .distance pos _ => (false, pos)

/-- The copy loop's stores when `indices` and `distances` point at entry `base` of their
    buffers, in the loop's order. -/
def copyStores : Nat → List Nat → List D → List (CopyStore D)
  | base, v :: vs, d :: ds => .index base v :: .distance base d :: copyStores (base + 1) vs ds
  | _, _, _ => []

/-- A store into `(u64_ids, dists)`. -/
def applyStore (bufs : List Nat × List D) : CopyStore D → List Nat × List D
  | .index pos v => (bufs.1.set pos v, bufs.2)
  | .distance pos v => (bufs.1, bufs.2.set pos v)

/-- The stores of a call: none when it returned before the copy. -/
def callStores (base : Nat) : Option (List Nat × List D) → List (CopyStore D)
  | none => []
  | some (ids, ds) => copyStores base ids ds

/-- Row `i` of a row-major buffer of rows of `knn` entries. -/
def row {α : Type} (knn : Nat) (buf : List α) (i : Nat) : List α := (buf.drop (i * knn)).take knn

/-- The search arguments the bindings take. -/
structure BindingArgs where
  knn : Nat
  complexity : Nat
  beamWidth : Nat
  useDeferredFetch : Bool
  skipSearchReorder : Bool
  recomputeBeighborEmbeddings : Bool
  dedupNodeDis : Bool
  pruneRatio : PruneRatio
  batchRecompute : Bool
  globalPruning : Bool

/-- The call both bindings make: the overload without a filter, which passes the `uint32_t`
    maximum as `io_limit`, with `use_reorder_data = false`. -/
def BindingArgs.params (a : BindingArgs) : SearchParams where
  kSearch := a.knn
  lSearch := a.complexity
  beamWidth := a.beamWidth
  useFilter := false
  filterLabel := 0
  ioLimit := 2 ^ 32 - 1
  useReorderData := false
  deferredFetch := a.useDeferredFetch
  skipSearchReorder := a.skipSearchReorder
  recomputeBeighborEmbeddings := a.recomputeBeighborEmbeddings
  dedupNodeDis := a.dedupNodeDis
  pruneRatio := a.pruneRatio
  batchRecompute := a.batchRecompute
  globalPruning := a.globalPruning

namespace StaticDiskIndex

variable [LinearOrder D] [Zero D]

/-- `StaticDiskIndex::search`: `u64_ids(knn)` zeroed and `dists(knn)` as allocated, the call,
    then `r(i) = (unsigned)u64_ids[i]`. -/
def search (ix : SearchIndex D V) (a : BindingArgs) (fuel : Nat) (dists : List D) :
    Except SearchFault (List Nat × List D) := do
  let r ← cachedBeamSearch ix a.params fuel
  let bufs := (callStores 0 r.out).foldl applyStore (List.replicate a.knn 0, dists)
  pure ((List.range a.knn).map fun j => u32 (bufs.1.getD j 0), bufs.2)

/-- `StaticDiskIndex::batch_search`: the calls of the OpenMP loop, query `i` writing from
    entry `i * knn` of the shared `u64_ids` and `dists`, then
    `r(i, j) = (uint32_t)u64_ids[i * knn + j]`. `interleave` is the order in which the
    threads' stores reach memory, and `dists` the `py::array_t` as allocated, row-major. -/
def batchSearch (qs : List (SearchIndex D V)) (a : BindingArgs) (fuel : Nat)
    (interleave : List (List (CopyStore D)) → List (CopyStore D)) (dists : List D) :
    Except LoopFault (List (List Nat) × List D) := do
  let rs ← parallelFor (qs.map fun ix => cachedBeamSearch ix a.params fuel)
  let stores := rs.enum.map fun (i, r) => callStores (i * a.knn) r.out
  let bufs := (interleave stores).foldl applyStore (List.replicate (a.knn * qs.length) 0, dists)
  pure ((List.range qs.length).map fun i =>
    (List.range a.knn).map fun j => u32 (bufs.1.getD (i * a.knn + j) 0), bufs.2)

end StaticDiskIndex

/-! ## Stores -/

theorem applyStore_comm (b : List Nat × List D) {x y : CopyStore D} (h : x.target = y.target → x = y) :
    applyStore (applyStore b x) y = applyStore (applyStore b y) x := by
  cases x with
  | index p v =>
    cases y with
    | index q w =>
      by_cases hpq : p = q
      · cases h (by rw [hpq]; rfl)
        rfl
      · simp only [applyStore, List.set_comm _ _ _ hpq]
    | distance q w => rfl
  | distance p v =>
    cases y with
    | index q w => rfl
    | distance q w =>
      by_cases hpq : p = q
      · cases h (by rw [hpq]; rfl)
        rfl
      · simp only [applyStore, List.set_comm _ _ _ hpq]

theorem copyStores_target : ∀ {base : Nat} {vs : List Nat} {ds : List D} {x : CopyStore D},
    x ∈ copyStores base vs ds → base ≤ x.target.2 ∧ x.target.2 < base + vs.length
  | base, v :: vs, d :: ds, x, h => by
    simp only [copyStores, List.mem_cons] at h
    rcases h with rfl | rfl | h
    · exact ⟨le_rfl, by simp [CopyStore.target]⟩
    · exact ⟨le_rfl, by simp [CopyStore.target]⟩
    · have := copyStores_target h
      simp only [List.length_cons]
      omega
  | _, [], _, _, h => by cases h
  | _, _ :: _, [], _, h => by cases h

/-- Within one call, a place is stored to once. -/
theorem copyStores_unique : ∀ {base : Nat} {vs : List Nat} {ds : List D} {x y : CopyStore D},
    x ∈ copyStores base vs ds → y ∈ copyStores base vs ds → x.target = y.target → x = y
  | base, v :: vs, d :: ds, x, y, hx, hy, h => by
    simp only [copyStores, List.mem_cons] at hx hy
    have fresh : ∀ z ∈ copyStores (base + 1) vs ds, z.target.2 ≠ base := fun z hz =>
      Nat.ne_of_gt (copyStores_target hz).1
    rcases hx with rfl | rfl | hx <;> rcases hy with rfl | rfl | hy
    all_goals first
      | rfl
      | exact copyStores_unique hx hy h
      | exact absurd (congrArg Prod.snd h) (fresh _ hy).symm
      | exact absurd (congrArg Prod.snd h) (fresh _ hx)
      | simp [CopyStore.target] at h
  | _, [], _, _, _, hx, _, _ => by cases hx
  | _, _ :: _, [], _, _, hx, _, _ => by cases hx

/-- One call's copy loop, run alone, overwrites its own row and nothing else. -/
theorem foldl_copyStores : ∀ {vs : List Nat} {ds : List D} {mid₁ : List Nat} {mid₂ : List D}
    (pre₁ suf₁ : List Nat) (pre₂ suf₂ : List D), pre₂.length = pre₁.length →
    mid₁.length = vs.length → mid₂.length = vs.length → ds.length = vs.length →
    (copyStores pre₁.length vs ds).foldl applyStore (pre₁ ++ mid₁ ++ suf₁, pre₂ ++ mid₂ ++ suf₂) =
      (pre₁ ++ vs ++ suf₁, pre₂ ++ ds ++ suf₂)
  | [], [], [], [], _, _, _, _, _, _, _, _ => rfl
  | v :: vs, d :: ds, m₁ :: mid₁, m₂ :: mid₂, pre₁, suf₁, pre₂, suf₂, hp, h₁, h₂, hd => by
    simp only [List.length_cons, Nat.add_right_cancel_iff] at h₁ h₂ hd
    have e₁ : (pre₁ ++ m₁ :: mid₁ ++ suf₁).set pre₁.length v = pre₁ ++ [v] ++ mid₁ ++ suf₁ := by
      rw [List.append_assoc, List.set_append_right _ _ le_rfl, Nat.sub_self]
      simp
    have e₂ : (pre₂ ++ m₂ :: mid₂ ++ suf₂).set pre₁.length d = pre₂ ++ [d] ++ mid₂ ++ suf₂ := by
      rw [List.append_assoc, List.set_append_right _ _ (Nat.le_of_eq hp), hp, Nat.sub_self]
      simp
    have ih := foldl_copyStores (pre₁ ++ [v]) suf₁ (pre₂ ++ [d]) suf₂ (by simp [hp]) h₁ h₂ hd
    simp only [List.length_append, List.length_singleton] at ih
    simp only [copyStores, List.foldl_cons, applyStore, e₁, e₂, ih]
    simp
  | [], _ :: _, _, _, _, _, _, _, _, _, _, hd => by cases hd
  | _ :: _, [], _, _, _, _, _, _, _, _, _, hd => by cases hd
  | [], [], _ :: _, _, _, _, _, _, _, h₁, _, _ => by cases h₁
  | [], [], [], _ :: _, _, _, _, _, _, _, h₂, _ => by cases h₂
  | _ :: _, _ :: _, [], _, _, _, _, _, _, h₁, _, _ => by cases h₁
  | _ :: _, _ :: _, _ :: _, [], _, _, _, _, _, _, h₂, _ => by cases h₂

namespace StaticDiskIndex

/-- What a call leaves in its row of `u64_ids`, which starts zeroed. -/
def idRow (k : Nat) (r : SearchResult D) : List Nat :=
  match r.out with
  | some (ids, _) => ids
  | none => List.replicate k 0

/-- What a call leaves in its row `buf` of `dists`. -/
def distRow (r : SearchResult D) (buf : List D) : List D :=
  match r.out with
  | some (_, ds) => ds
  | none => buf

/-- A call that copies writes `k` ids and `k` distances. -/
def CopiesK (k : Nat) (r : SearchResult D) : Prop :=
  ∀ ids ds, r.out = some (ids, ds) → ids.length = k ∧ ds.length = k

theorem length_idRow {k : Nat} {r : SearchResult D} (h : CopiesK k r) : (idRow k r).length = k := by
  unfold idRow
  split
  · exact (h _ _ ‹_›).1
  · exact List.length_replicate _ _

theorem length_row {α : Type} {k n i : Nat} {all : List α} (hall : all.length = n * k)
    (hi : i < n) : (row k all i).length = k := by
  simp only [row, List.length_take, List.length_drop, hall]
  rw [Nat.min_eq_left (by rw [← Nat.mul_sub_right_distrib]; exact Nat.le_mul_of_pos_left _ (by omega))]

/-- The calls' stores, run one call after the other from row `m` on: each call overwrites
    its own row. `all` is `dists` as allocated. -/
theorem foldl_callStores {k : Nat} (all : List D) : ∀ (rs : List (SearchResult D)) (m : Nat)
    (pre₁ : List Nat) (pre₂ : List D), (∀ r ∈ rs, CopiesK k r) → pre₁.length = m * k →
    pre₂.length = m * k → all.length = (m + rs.length) * k →
    (((rs.enumFrom m).map fun q => callStores (q.1 * k) q.2.out).flatten).foldl applyStore
        (pre₁ ++ List.replicate (rs.length * k) 0, pre₂ ++ all.drop (m * k)) =
      (pre₁ ++ (rs.map (idRow k)).flatten,
        pre₂ ++ ((rs.enumFrom m).map fun q => distRow q.2 (row k all q.1)).flatten)
  | [], _, _, _, _, _, _, _ => by simp_all
  | r :: rs, m, pre₁, pre₂, hk, h₁, h₂, hall => by
    have hr := hk r (List.mem_cons_self _ _)
    have hrow : (row k all m).length = k := length_row hall (by rw [List.length_cons]; omega)
    have hdrop : all.drop (m * k) = row k all m ++ all.drop ((m + 1) * k) := by
      rw [row, Nat.succ_mul, ← List.drop_drop, List.take_append_drop]
    have hcall : (callStores (m * k) r.out).foldl applyStore
        (pre₁ ++ List.replicate ((r :: rs).length * k) 0, pre₂ ++ all.drop (m * k)) =
        (pre₁ ++ idRow k r ++ List.replicate (rs.length * k) 0,
          pre₂ ++ distRow r (row k all m) ++ all.drop ((m + 1) * k)) := by
      rw [hdrop, List.length_cons, Nat.succ_mul, Nat.add_comm, List.replicate_add,
        ← List.append_assoc, ← List.append_assoc]
      cases hout : r.out with
      | none => simp only [callStores, idRow, distRow, hout]; rfl
      | some o =>
        obtain ⟨ids, ds⟩ := o
        obtain ⟨hi, hd⟩ := hr ids ds hout
        simp only [callStores, idRow, distRow, hout, ← h₁]
        exact foldl_copyStores _ _ _ _ (h₂.trans h₁.symm) (by simp [hi]) (by rw [hrow, hi])
          (hd.trans hi.symm)
    rw [List.enumFrom_cons, List.map_cons, List.flatten_cons, List.foldl_append, hcall]
    have ih := foldl_callStores all rs (m + 1) (pre₁ ++ idRow k r) (pre₂ ++ distRow r (row k all m))
      (fun r' hr' => hk r' (List.mem_cons_of_mem _ hr'))
      (by rw [List.length_append, length_idRow hr, h₁, Nat.succ_mul])
      (by rw [List.length_append, h₂, Nat.succ_mul]; unfold distRow; split
          · exact congrArg (m * k + ·) (hr _ _ ‹_›).2
          · rw [hrow])
      (by rw [hall, List.length_cons]; congr 1; omega)
    simpa only [List.map_cons, List.flatten_cons, List.append_assoc] using ih

theorem mem_callStores {k base : Nat} {r : SearchResult D} {x : CopyStore D} (hr : CopiesK k r)
    (hx : x ∈ callStores base r.out) :
    ∃ ids ds, r.out = some (ids, ds) ∧ x ∈ copyStores base ids ds ∧
      base ≤ x.target.2 ∧ x.target.2 < base + k := by
  cases hout : r.out with
  | none => simp only [callStores, hout, List.not_mem_nil] at hx
  | some o =>
    obtain ⟨ids, ds⟩ := o
    simp only [callStores, hout] at hx
    have hb := copyStores_target hx
    rw [(hr ids ds hout).1] at hb
    exact ⟨ids, ds, rfl, hx, hb⟩

/-- Across the calls of a batch, a place is stored to once: call `i` stores only into row `i`. -/
theorem callStores_unique {k : Nat} {rs : List (SearchResult D)} (hk : ∀ r ∈ rs, CopiesK k r) :
    ∀ x ∈ (rs.enum.map fun q => callStores (q.1 * k) q.2.out).flatten,
    ∀ y ∈ (rs.enum.map fun q => callStores (q.1 * k) q.2.out).flatten, x.target = y.target → x = y := by
  intro x hx y hy h
  simp only [List.mem_flatten, List.mem_map] at hx hy
  obtain ⟨_, ⟨⟨i, r⟩, hir, rfl⟩, hx⟩ := hx
  obtain ⟨_, ⟨⟨j, r'⟩, hjr, rfl⟩, hy⟩ := hy
  dsimp only at hx hy
  obtain ⟨hi, hr⟩ := List.mem_enum hir
  obtain ⟨hj, hr'⟩ := List.mem_enum hjr
  obtain ⟨ids, ds, hout, hx, hx₁, hx₂⟩ := mem_callStores (hr ▸ hk _ (List.getElem_mem hi)) hx
  obtain ⟨ids', ds', hout', hy, hy₁, hy₂⟩ := mem_callStores (hr' ▸ hk _ (List.getElem_mem hj)) hy
  have hp : x.target.2 = y.target.2 := congrArg Prod.snd h
  have hij : i = j := by
    rw [← Nat.div_eq_of_lt_le hx₁ (by rw [Nat.succ_mul]; exact hx₂),
      ← Nat.div_eq_of_lt_le hy₁ (by rw [Nat.succ_mul]; exact hy₂), hp]
  subst hij
  obtain rfl : r = r' := hr.trans hr'.symm
  rw [hout] at hout'
  cases hout'
  exact copyStores_unique hx hy h

/-- The order in which the calls' stores reach the buffers does not matter. -/
theorem foldl_interleave {k : Nat} {rs : List (SearchResult D)} (hk : ∀ r ∈ rs, CopiesK k r)
    {interleave : List (List (CopyStore D)) → List (CopyStore D)}
    (hint : ∀ ls, (interleave ls).Perm ls.flatten) (b : List Nat × List D) :
    (interleave (rs.enum.map fun q => callStores (q.1 * k) q.2.out)).foldl applyStore b =
      (rs.enum.map fun q => callStores (q.1 * k) q.2.out).flatten.foldl applyStore b :=
  (hint _).foldl_eq' (fun x hx y hy z =>
    applyStore_comm z (callStores_unique hk x ((hint _).subset hx) y ((hint _).subset hy))) b

theorem getD_flatten_rows {α : Type} {k : Nat} (x : α) : ∀ {rows : List (List α)},
    (∀ r ∈ rows, r.length = k) → ∀ {i j : Nat} (hi : i < rows.length), j < k →
      rows.flatten.getD (i * k + j) x = rows[i].getD j x
  | r :: rows, hk, i, j, hi, hj => by
    have hr := hk r (List.mem_cons_self _ _)
    simp only [List.getD_eq_getElem?_getD, List.flatten_cons]
    cases i with
    | zero => rw [Nat.zero_mul, Nat.zero_add, List.getElem?_append_left (by omega)]; rfl
    | succ i =>
      rw [List.getElem?_append_right (by rw [hr, Nat.succ_mul]; omega),
        show (i + 1) * k + j - r.length = i * k + j by rw [hr, Nat.succ_mul]; omega,
        ← List.getD_eq_getElem?_getD,
        getD_flatten_rows x (fun r' hr' => hk r' (List.mem_cons_of_mem _ hr'))
          (Nat.lt_of_succ_lt_succ hi) hj]
      simp [List.getD_eq_getElem?_getD]

/-- Reading `u64_ids` back row by row, when row `i` holds call `i`'s ids. -/
theorem readRows_flatten {k : Nat} {rs : List (SearchResult D)} (hk : ∀ r ∈ rs, CopiesK k r) :
    ((List.range rs.length).map fun i =>
        (List.range k).map fun j => u32 ((rs.map (idRow k)).flatten.getD (i * k + j) 0)) =
      rs.map fun r => (List.range k).map fun j => u32 ((idRow k r).getD j 0) := by
  refine List.ext_getElem (by simp) fun i h₁ _ => ?_
  simp only [List.getElem_map, List.getElem_range]
  refine List.map_congr_left fun j hj => ?_
  rw [getD_flatten_rows 0 (fun r hr => ?_) (by simpa using h₁) (List.mem_range.1 hj),
    List.getElem_map]
  obtain ⟨r', hr', rfl⟩ := List.mem_map.1 hr
  exact length_idRow (hk r' hr')

section Search

variable [LinearOrder D] [Zero D]

/-! ## A call copies `k_search` entries -/

omit [Zero D] in
theorem finishSearch_copiesK {ix : SearchIndex D V} {p : SearchParams} {s : SearchState D}
    {r : SearchResult D} (e : finishSearch ix p s = .ok r) : CopiesK p.kSearch r := by
  intro ids ds hout
  unfold finishSearch at e
  obtain ⟨fr?, -, e⟩ := except_bind_eq_ok.1 e
  cases fr? with
  | none => cases e; cases hout
  | some fr =>
    obtain ⟨fr', -, e⟩ := except_bind_eq_ok.1 e
    split at e
    · cases e
    · rename_i hc
      cases e
      cases hout
      unfold copyOut at hc
      split at hc
      · cases hc
        simp only [List.length_map, List.length_take]
        omega
      · cases hc

theorem cachedBeamSearch_copiesK {ix : SearchIndex D V} {p : SearchParams} {fuel : Nat}
    {r : SearchResult D} (e : cachedBeamSearch ix p fuel = .ok r) : CopiesK p.kSearch r :=
  let ⟨_, _, _, _, _, h⟩ := cachedBeamSearch_spec e
  finishSearch_copiesK h

/-- What `search` returns for a call's result, with `dists` allocated as `buf`. -/
def searchRow (k : Nat) (buf : List D) (r : SearchResult D) : List Nat × List D :=
  ((List.range k).map fun j => u32 ((idRow k r).getD j 0), distRow r buf)

theorem search_eq {ix : SearchIndex D V} {a : BindingArgs} {fuel : Nat} {buf : List D}
    (hbuf : buf.length = a.knn) :
    search ix a fuel buf = cachedBeamSearch ix a.params fuel >>= fun r => pure (searchRow a.knn buf r) := by
  unfold search
  cases h : cachedBeamSearch ix a.params fuel with
  | error => rfl
  | ok r =>
    have hr : CopiesK a.knn r := cachedBeamSearch_copiesK h
    simp only [bind, Except.bind, pure, Except.pure, searchRow, idRow, distRow]
    cases hout : r.out with
    | none => rfl
    | some o =>
      obtain ⟨ids, ds⟩ := o
      obtain ⟨hi, hd⟩ := hr ids ds hout
      have h : (copyStores 0 ids ds).foldl applyStore
          ([] ++ List.replicate a.knn 0 ++ [], [] ++ buf ++ []) = ([] ++ ids ++ [], [] ++ ds ++ []) :=
        foldl_copyStores [] [] [] [] rfl (by simp [hi]) (hbuf.trans hi.symm) (hd.trans hi.symm)
      simp only [List.nil_append, List.append_nil] at h
      simp only [callStores, h]

end Search

theorem mapM_except_length_mem {α β ε : Type} {f : α → Except ε β} :
    ∀ {l : List α} {bs : List β}, l.mapM f = .ok bs → bs.length = l.length ∧ ∀ b ∈ bs, ∃ a, f a = .ok b
  | [], _, e => by cases e; exact ⟨rfl, by simp⟩
  | a :: l, _, e => by
    rw [List.mapM_cons] at e
    obtain ⟨b, hb, e⟩ := except_bind_eq_ok.1 e
    obtain ⟨bs, hbs, e⟩ := except_bind_eq_ok.1 e
    cases e
    obtain ⟨ih₁, ih₂⟩ := mapM_except_length_mem hbs
    refine ⟨congrArg (· + 1) ih₁, ?_⟩
    simp only [List.mem_cons, forall_eq_or_imp]
    exact ⟨⟨a, hb⟩, ih₂⟩

section Search

variable [LinearOrder D] [Zero D]

/-! ## The batch -/

/-- (PROVED) Whatever the order in which the OpenMP threads' stores reach the shared `u64_ids`
    and `dists`, `batch_search` returns, row by row, what `search` returns for each query alone
    on its row of `dists` as allocated, and otherwise ends as the parallel loop of those calls
    does. No store of one query lands in another's row. -/
theorem batchSearch_eq_search {qs : List (SearchIndex D V)} {a : BindingArgs} {fuel : Nat}
    {interleave : List (List (CopyStore D)) → List (CopyStore D)} {dists : List D}
    (hint : ∀ ls, (interleave ls).Perm ls.flatten) (hlen : dists.length = qs.length * a.knn) :
    batchSearch qs a fuel interleave dists =
      (parallelFor (qs.enum.map fun q => search q.2 a fuel (row a.knn dists q.1))).map fun rows =>
        (rows.map Prod.fst, (rows.map Prod.snd).flatten) := by
  rw [show qs.enum = qs.enumFrom 0 from rfl,
    parallelFor_enumFrom_map (f := fun ix => cachedBeamSearch ix a.params fuel)
      (F := fun q => search q.2 a fuel (row a.knn dists q.1))
      (g := fun i r => searchRow a.knn (row a.knn dists i) r) qs 0 fun q hq =>
        search_eq (length_row hlen (by simpa using (List.mem_enumFrom hq).2.1))]
  unfold batchSearch
  cases hrs : parallelFor (qs.map fun ix => cachedBeamSearch ix a.params fuel) with
  | error => rfl
  | ok rs =>
    obtain ⟨hn, hmem⟩ := mapM_except_length_mem (parallelFor_map_eq_ok.1 hrs)
    have hk : ∀ r ∈ rs, CopiesK a.knn r := fun r hr =>
      let ⟨_, h⟩ := hmem r hr; cachedBeamSearch_copiesK h
    have hbufs := foldl_callStores dists rs 0 [] [] hk (Nat.zero_mul _).symm (Nat.zero_mul _).symm
      (by rw [hlen, hn, Nat.zero_add])
    simp only [List.nil_append, Nat.zero_mul, List.drop_zero] at hbufs
    rw [Nat.mul_comm rs.length] at hbufs
    simp only [bind, Except.bind, pure, Except.pure, Except.map]
    rw [foldl_interleave hk hint, show rs.enum = rs.enumFrom 0 from rfl, ← hn, hbufs,
      readRows_flatten hk]
    simp only [List.map_map, Function.comp_def, searchRow]
    congr 2
    conv_lhs => rw [← List.enumFrom_map_snd 0 rs]
    rw [List.map_map]
    rfl

/-- One nearest neighbour, `complexity = 20`, beam width 2, every option off. -/
def oneNearestArgs : BindingArgs := ⟨1, 20, 2, false, false, false, false, .zero, false, false⟩

/-- Two fork-graph queries whose stores reach memory in reverse order. -/
theorem forkBatch_reversed_stores :
    (∀ ls : List (List (CopyStore Nat)), ls.flatten.reverse.Perm ls.flatten) ∧
      [0, 0].length = [graphIndex forkGraph, graphIndex forkGraph].length * oneNearestArgs.knn ∧
      batchSearch [graphIndex forkGraph, graphIndex forkGraph] oneNearestArgs 5
          (fun ls => ls.flatten.reverse) [0, 0] =
        (parallelFor ([graphIndex forkGraph, graphIndex forkGraph].enum.map fun q =>
          search q.2 oneNearestArgs 5 (row oneNearestArgs.knn [0, 0] q.1))).map fun rows =>
            (rows.map Prod.fst, (rows.map Prod.snd).flatten) :=
  ⟨fun _ => List.reverse_perm _, rfl, batchSearch_eq_search (fun _ => List.reverse_perm _) rfl⟩

end Search

end StaticDiskIndex

end DiskAnn
