import Mathlib.Data.List.Sort
import Mathlib.Data.List.Perm.Subperm
import Mathlib.Order.Basic

/-
  DiskANN search: the `prune_node_nbrs` lambda of `cached_beam_search`
  (`pq_flash_index.cpp`, lines 2001-2096).

  Model. With `recompute_beighbor_embeddings` off, or at most 10 neighbours, the list is left
  alone. Otherwise the neighbours are scored by PQ distance. Local pruning sorts them by
  distance and keeps the best `max(10, ⌊nnbrs · (1 - prune_ratio)⌋)` when that is fewer.
  Global pruning pushes every scored neighbour onto the query-wide min-heap
  `aq_priority_queue` (kept here as a list in `(distance, id)` order, the order
  `std::greater<std::pair<float, uint32_t>>` pops), pops the first
  `⌈(1 - prune_ratio) · |heap|⌉` entries (the `i` with `i < prune_ratio · original_size`),
  pushes them back, and returns the popped ids not yet visited. `prune_ratio` is a fraction
  in `[0, 1]` and the float products are taken exactly.

  Proved: local pruning returns a sub-multiset of what it was given
  (`pruneNodeNbrs_subperm_of_local`). Under global pruning, the query-wide heap keeps
  earlier calls' candidates, so a call can return ids that are not in its list at all
  (a run showing it is in `DiskAnn.Search.Outcome`). Its count is still bounded by its list's
  length whenever the heap's popped prefix was visited after the previous call
  (`TopVisited`, `pruneGlobal_length_le`), and the caller's visiting restores that
  condition (`topVisited_after_pruneGlobal`).
-/

namespace DiskAnn

/-- `prune_ratio`, a fraction `num / den` in `[0, 1]`. Outside `[0, 1]` the code's
    float-to-integer cast (local) or heap pops (global) are undefined. -/
structure PruneRatio where
  num : Nat
  den : Nat
  den_pos : 0 < den
  num_le : num ≤ den

namespace PruneRatio

/-- `prune_ratio = 0`, the default: keep everything. -/
def zero : PruneRatio := ⟨0, 1, Nat.one_pos, Nat.zero_le 1⟩

/-- `static_cast<uint64_t>(n * (1 - prune_ratio))`. -/
def keepFloor (r : PruneRatio) (n : Nat) : Nat := n * (r.den - r.num) / r.den

/-- The number of `i` with `i < (1 - prune_ratio) * n`: `⌈n · (1 - prune_ratio)⌉`. -/
def keepCeil (r : PruneRatio) (n : Nat) : Nat := (n * (r.den - r.num) + r.den - 1) / r.den

/-- Each new entry raises the pop count by at most one. -/
theorem keepCeil_add_le (r : PruneRatio) (n m : Nat) : r.keepCeil (n + m) ≤ r.keepCeil n + m := by
  unfold keepCeil
  have hm : (n + m) * (r.den - r.num) + r.den - 1 ≤ n * (r.den - r.num) + r.den - 1 + m * r.den := by
    have := Nat.mul_le_mul_left m (Nat.sub_le r.den r.num)
    have := r.den_pos
    rw [Nat.add_mul]; omega
  calc ((n + m) * (r.den - r.num) + r.den - 1) / r.den
      ≤ (n * (r.den - r.num) + r.den - 1 + m * r.den) / r.den := Nat.div_le_div_right hm
    _ = (n * (r.den - r.num) + r.den - 1) / r.den + m := Nat.add_mul_div_right _ _ r.den_pos

end PruneRatio

variable {D : Type} [LinearOrder D]

/-- The order `aq_priority_queue` pops in: `(distance, id)` pairs, smallest first. -/
def pairLe (a b : D × Nat) : Prop := a.1 < b.1 ∨ (a.1 = b.1 ∧ a.2 ≤ b.2)

instance : DecidableRel (pairLe (D := D)) := fun _ _ => inferInstanceAs (Decidable (_ ∨ _))

/-- Local pruning: sort by PQ distance, keep the best `max(10, ⌊nnbrs · (1 - prune_ratio)⌋)`. -/
def pruneLocal (pqDist : Nat → D) (r : PruneRatio) (nbrs : List Nat) : List Nat :=
  let scored := (nbrs.map fun i => (i, pqDist i)).insertionSort fun a b => a.2 ≤ b.2
  let newNnbrs := max 10 (r.keepFloor nbrs.length)
  if newNnbrs < nbrs.length then (scored.take newNnbrs).map (·.1) else nbrs

/-- Push the scored neighbours onto the heap. -/
def pushScored (pqDist : Nat → D) (aq : List (D × Nat)) (nbrs : List Nat) : List (D × Nat) :=
  nbrs.foldl (fun q i => q.orderedInsert pairLe (pqDist i, i)) aq

/-- A heap entry whose id is not yet visited. -/
def unvisited (visited : List Nat) (e : D × Nat) : Bool := e.2 ∉ visited

/-- Global pruning: the unvisited ids among the first `⌈(1 - prune_ratio) · |heap|⌉` entries
    of the heap after the push, and the heap. -/
def pruneGlobal (pqDist : Nat → D) (r : PruneRatio) (visited : List Nat) (aq : List (D × Nat))
    (nbrs : List Nat) : List Nat × List (D × Nat) :=
  let aq' := pushScored pqDist aq nbrs
  (((aq'.take (r.keepCeil aq'.length)).filter (unvisited visited)).map (·.2), aq')

/-- `prune_node_nbrs`: the neighbours left (`node_nbrs[0..nnbrs)`) and the heap after the call. -/
def pruneNodeNbrs (recompute globalPruning : Bool) (pqDist : Nat → D) (r : PruneRatio)
    (visited : List Nat) (aq : List (D × Nat)) (nbrs : List Nat) : List Nat × List (D × Nat) :=
  if !recompute then (nbrs, aq)
  else if nbrs.length ≤ 10 then (nbrs, aq)
  else if globalPruning then pruneGlobal pqDist r visited aq nbrs
  else (pruneLocal pqDist r nbrs, aq)

/-! ## Local pruning -/

theorem pruneLocal_subperm (pqDist : Nat → D) (r : PruneRatio) (nbrs : List Nat) :
    (pruneLocal pqDist r nbrs).Subperm nbrs := by
  dsimp only [pruneLocal]
  split
  · have hperm := (List.perm_insertionSort (fun a b : Nat × D => a.2 ≤ b.2)
      (nbrs.map fun i => (i, pqDist i))).map (·.1)
    rw [List.map_map] at hperm
    simp only [Function.comp_def, List.map_id'] at hperm
    exact (((List.take_sublist _ _).map _).subperm).trans hperm.subperm
  · exact List.Subperm.refl nbrs

/-- What `prune_node_nbrs` can do: leave its list and the heap, prune locally, or prune
    globally. -/
theorem pruneNodeNbrs_cases (recompute globalPruning : Bool) (pqDist : Nat → D) (r : PruneRatio)
    (visited : List Nat) (aq : List (D × Nat)) (nbrs : List Nat) :
    pruneNodeNbrs recompute globalPruning pqDist r visited aq nbrs = (nbrs, aq) ∨
      (globalPruning = false ∧
        pruneNodeNbrs recompute globalPruning pqDist r visited aq nbrs =
          (pruneLocal pqDist r nbrs, aq)) ∨
      (globalPruning = true ∧
        pruneNodeNbrs recompute globalPruning pqDist r visited aq nbrs =
          pruneGlobal pqDist r visited aq nbrs) := by
  unfold pruneNodeNbrs
  split
  · exact .inl rfl
  · split
    · exact .inl rfl
    · cases globalPruning
      · exact .inr (.inl ⟨rfl, rfl⟩)
      · exact .inr (.inr ⟨rfl, rfl⟩)

/-- (PROVED) With global pruning off, `prune_node_nbrs` leaves a sub-multiset of its list. -/
theorem pruneNodeNbrs_subperm_of_local {recompute : Bool} {pqDist : Nat → D} {r : PruneRatio}
    {visited : List Nat} {aq : List (D × Nat)} (nbrs : List Nat) :
    (pruneNodeNbrs recompute false pqDist r visited aq nbrs).1.Subperm nbrs := by
  rcases pruneNodeNbrs_cases recompute false pqDist r visited aq nbrs with e | ⟨-, e⟩ | ⟨h, -⟩
  · rw [e]
  · rw [e]; exact pruneLocal_subperm pqDist r nbrs
  · cases h

/-! ## Global pruning -/

/-- The unvisited entries among the first `k` of the heap. -/
def unvisitedIn (visited : List Nat) (aq : List (D × Nat)) (k : Nat) : Nat :=
  ((aq.take k).filter (unvisited visited)).length

omit [LinearOrder D] in
@[simp] theorem unvisitedIn_zero (visited : List Nat) (aq : List (D × Nat)) :
    unvisitedIn visited aq 0 = 0 := by
  simp [unvisitedIn]

omit [LinearOrder D] in
theorem unvisitedIn_cons_succ (visited : List Nat) (y : D × Nat) (aq : List (D × Nat)) (k : Nat) :
    unvisitedIn visited (y :: aq) (k + 1) =
      unvisitedIn visited aq k + if unvisited visited y then 1 else 0 := by
  simp only [unvisitedIn, List.take_succ_cons, List.filter_cons]
  split <;> simp

/-- After a call and the caller's visiting, the popped prefix of the heap is visited. -/
def TopVisited (r : PruneRatio) (visited : List Nat) (aq : List (D × Nat)) : Prop :=
  ∀ e ∈ aq.take (r.keepCeil aq.length), e.2 ∈ visited

omit [LinearOrder D] in
theorem unvisitedIn_eq_zero {r : PruneRatio} {visited : List Nat} {aq : List (D × Nat)}
    (h : TopVisited r visited aq) : unvisitedIn visited aq (r.keepCeil aq.length) = 0 := by
  rw [unvisitedIn, List.length_eq_zero, List.filter_eq_nil_iff]
  intro e he
  simpa [unvisited] using h e he

omit [LinearOrder D] in
theorem unvisitedIn_mono (visited : List Nat) (aq : List (D × Nat)) {k k' : Nat} (h : k ≤ k') :
    unvisitedIn visited aq k ≤ unvisitedIn visited aq k' := by
  unfold unvisitedIn
  rw [← Nat.add_sub_cancel' h, List.take_add, List.filter_append, List.length_append]
  exact Nat.le_add_right _ _

/-- One push adds at most one unvisited entry to a prefix one longer. -/
theorem unvisitedIn_orderedInsert (visited : List Nat) (x : D × Nat) :
    ∀ (aq : List (D × Nat)) (k : Nat),
      unvisitedIn visited (aq.orderedInsert pairLe x) (k + 1) ≤ unvisitedIn visited aq k + 1
  | [], k => by
    simp only [List.orderedInsert, unvisitedIn_cons_succ]
    split <;> omega
  | y :: aq, k => by
    simp only [List.orderedInsert]
    split
    · rw [unvisitedIn_cons_succ]
      split <;> omega
    · cases k with
      | zero =>
        simp only [unvisitedIn_cons_succ, unvisitedIn_zero]
        split <;> omega
      | succ k =>
        have ih := unvisitedIn_orderedInsert visited x aq k
        rw [unvisitedIn_cons_succ, unvisitedIn_cons_succ]
        omega

theorem unvisitedIn_pushScored (pqDist : Nat → D) (visited : List Nat) :
    ∀ (nbrs : List Nat) (aq : List (D × Nat)) (k : Nat),
      unvisitedIn visited (pushScored pqDist aq nbrs) (k + nbrs.length) ≤
        unvisitedIn visited aq k + nbrs.length
  | [], aq, k => by simp [pushScored]
  | i :: nbrs, aq, k => by
    have h := unvisitedIn_pushScored pqDist visited nbrs (aq.orderedInsert pairLe (pqDist i, i))
      (k + 1)
    have h1 := unvisitedIn_orderedInsert visited (pqDist i, i) aq k
    simp only [pushScored, List.foldl_cons, List.length_cons] at h ⊢
    rw [show k + (nbrs.length + 1) = k + 1 + nbrs.length by omega]
    omega

theorem pushScored_length (pqDist : Nat → D) (nbrs : List Nat) (aq : List (D × Nat)) :
    (pushScored pqDist aq nbrs).length = aq.length + nbrs.length := by
  induction nbrs generalizing aq with
  | nil => rfl
  | cons i nbrs ih =>
    have h := ih (aq.orderedInsert pairLe (pqDist i, i))
    simp only [pushScored, List.orderedInsert_length] at h ⊢
    rw [List.foldl_cons, h, List.length_cons]
    omega

theorem mem_pushScored {pqDist : Nat → D} {e : D × Nat} :
    ∀ {nbrs : List Nat} {aq : List (D × Nat)}, e ∈ pushScored pqDist aq nbrs → e ∈ aq ∨ e.2 ∈ nbrs
  | [], _, h => .inl h
  | i :: nbrs, aq, h => by
    have h' : e ∈ pushScored pqDist (aq.orderedInsert pairLe (pqDist i, i)) nbrs := h
    rcases mem_pushScored h' with h | h
    · rcases List.mem_cons.1 ((List.perm_orderedInsert pairLe (pqDist i, i) aq).mem_iff.1 h)
        with rfl | h
      · exact .inr (List.mem_cons_self _ _)
      · exact .inl h
    · exact .inr (List.mem_cons_of_mem _ h)

/-- (PROVED) If the heap's popped prefix was visited, a global-pruning call returns at most
    as many ids as it was given. -/
theorem pruneGlobal_length_le {pqDist : Nat → D} {r : PruneRatio} {visited : List Nat}
    {aq : List (D × Nat)} (h : TopVisited r visited aq) (nbrs : List Nat) :
    (pruneGlobal pqDist r visited aq nbrs).1.length ≤ nbrs.length := by
  have hlen := pushScored_length pqDist nbrs aq
  have hcut := r.keepCeil_add_le aq.length nbrs.length
  calc (pruneGlobal pqDist r visited aq nbrs).1.length
      = unvisitedIn visited (pushScored pqDist aq nbrs)
          (r.keepCeil (pushScored pqDist aq nbrs).length) := by
        simp [pruneGlobal, unvisitedIn]
    _ ≤ unvisitedIn visited (pushScored pqDist aq nbrs)
          (r.keepCeil aq.length + nbrs.length) :=
        unvisitedIn_mono _ _ (by rw [hlen]; exact hcut)
    _ ≤ unvisitedIn visited aq (r.keepCeil aq.length) + nbrs.length :=
        unvisitedIn_pushScored pqDist visited nbrs aq _
    _ = nbrs.length := by rw [unvisitedIn_eq_zero h, Nat.zero_add]

/-- (PROVED) Once the caller has visited the returned ids, the popped prefix of the new heap
    is visited. -/
theorem topVisited_after_pruneGlobal {pqDist : Nat → D} {r : PruneRatio}
    {visited visited' : List Nat} {aq : List (D × Nat)} {nbrs : List Nat}
    (hv : visited ⊆ visited') (hr : ∀ x ∈ (pruneGlobal pqDist r visited aq nbrs).1, x ∈ visited') :
    TopVisited r visited' (pruneGlobal pqDist r visited aq nbrs).2 := by
  intro e he
  by_cases h : e.2 ∈ visited
  · exact hv h
  · exact hr _ (List.mem_map.2 ⟨e, List.mem_filter.2 ⟨he, by simpa [unvisited] using h⟩, rfl⟩)

/-- (PROVED) A `prune_node_nbrs` call made while the heap's popped prefix is visited leaves
    at most as many ids as it was given. -/
theorem pruneNodeNbrs_length_le {recompute globalPruning : Bool} {pqDist : Nat → D}
    {r : PruneRatio} {visited : List Nat} {aq : List (D × Nat)} (h : TopVisited r visited aq)
    (nbrs : List Nat) :
    (pruneNodeNbrs recompute globalPruning pqDist r visited aq nbrs).1.length ≤ nbrs.length := by
  rcases pruneNodeNbrs_cases recompute globalPruning pqDist r visited aq nbrs
    with e | ⟨-, e⟩ | ⟨-, e⟩
  · rw [e]
  · rw [e]; exact (pruneLocal_subperm pqDist r nbrs).length_le
  · rw [e]; exact pruneGlobal_length_le h nbrs

omit [LinearOrder D] in
theorem topVisited_mono {r : PruneRatio} {visited visited' : List Nat} {aq : List (D × Nat)}
    (hv : visited ⊆ visited') (h : TopVisited r visited aq) : TopVisited r visited' aq :=
  fun e he => hv (h e he)

/-- The heap condition survives a `prune_node_nbrs` call once the caller has visited what
    the call left. -/
theorem topVisited_after_pruneNodeNbrs {recompute globalPruning : Bool} {pqDist : Nat → D}
    {r : PruneRatio} {visited visited' : List Nat} {aq : List (D × Nat)} {nbrs : List Nat}
    (h : TopVisited r visited aq) (hv : visited ⊆ visited')
    (hr : ∀ x ∈ (pruneNodeNbrs recompute globalPruning pqDist r visited aq nbrs).1, x ∈ visited') :
    TopVisited r visited' (pruneNodeNbrs recompute globalPruning pqDist r visited aq nbrs).2 := by
  rcases pruneNodeNbrs_cases recompute globalPruning pqDist r visited aq nbrs
    with e | ⟨-, e⟩ | ⟨-, e⟩ <;> rw [e] at hr ⊢
  · exact topVisited_mono hv h
  · exact topVisited_mono hv h
  · exact topVisited_after_pruneGlobal hv hr

/-- (PROVED) A property of every id of a call's list and of every heap entry before it holds
    of every id the call leaves and of every heap entry after it. -/
theorem pruneNodeNbrs_ids_of (P : Nat → Prop) (recompute globalPruning : Bool) (pqDist : Nat → D)
    (r : PruneRatio) (visited : List Nat) {aq : List (D × Nat)} {nbrs : List Nat}
    (hn : ∀ x ∈ nbrs, P x) (ha : ∀ e ∈ aq, P e.2) :
    (∀ x ∈ (pruneNodeNbrs recompute globalPruning pqDist r visited aq nbrs).1, P x) ∧
      ∀ e ∈ (pruneNodeNbrs recompute globalPruning pqDist r visited aq nbrs).2, P e.2 := by
  have hpush : ∀ e ∈ pushScored pqDist aq nbrs, P e.2 := fun e he =>
    (mem_pushScored he).elim (ha e) (hn _)
  rcases pruneNodeNbrs_cases recompute globalPruning pqDist r visited aq nbrs
    with e | ⟨-, e⟩ | ⟨-, e⟩ <;> rw [e]
  · exact ⟨hn, ha⟩
  · exact ⟨fun x hx => hn x ((pruneLocal_subperm pqDist r nbrs).subset hx), ha⟩
  · refine ⟨fun x hx => ?_, hpush⟩
    obtain ⟨e', he', rfl⟩ := List.mem_map.1 hx
    exact hpush e' ((List.take_sublist _ _).subset (List.mem_filter.1 he').1)

omit [LinearOrder D] in
theorem topVisited_nil (r : PruneRatio) (visited : List Nat) :
    TopVisited r visited ([] : List (D × Nat)) := by
  simp [TopVisited]

end DiskAnn
