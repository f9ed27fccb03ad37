import DiskAnn.Search.Run

/-
  DiskANN's parallel loops: the `#pragma omp parallel for schedule(dynamic, 1)` of
  `StaticDiskIndex::batch_search` (`pq_flash_index.h`, lines 391-400) and of
  `generate_cache_list_from_sample_queries` (`pq_flash_index.cpp`, lines 445-453).

  Model. Each iteration is one call, whose outcome does not depend on the other calls: what
  they share (disjoint rows of one buffer, atomic counters) their callers model. The loop's
  outcome is then the same under every schedule and thread count. A call that ran out of
  fuel leaves it open, since under some schedules the calls queued behind it never run
  (`outOfFuel`). Otherwise undefined behaviour in any call makes the run undefined, whatever
  the other calls do. Otherwise an exception escaping any call leaves the parallel region,
  which no `try` encloses, and the runtime calls `std::terminate`. Otherwise the loop gives
  every call's result, in iteration order.

  Proved: the loop succeeds exactly when every call does, with their results
  (`parallelFor_map_eq_ok`), and a map of each call's result by its index is a map of the
  loop's results (`parallelFor_enumFrom_map`).
-/

namespace DiskAnn

/-- How a parallel loop ends without its results. -/
inductive LoopFault where
  /-- `std::terminate`, for an exception leaving an iteration. -/
  | terminate
  /-- Undefined behaviour in some iteration. -/
  | undefined
  /-- Some iteration ran out of fuel. -/
  | outOfFuel
deriving DecidableEq, Repr

/-- What one failed call makes of the loop. -/
def SearchFault.toLoopFault : SearchFault → LoopFault
  | .thrown _ => .terminate
  | .undefined _ => .undefined
  | .outOfFuel => .outOfFuel

/-- Of two calls' faults, the one that decides the loop: running out of fuel, then undefined
    behaviour, then `std::terminate`. -/
def LoopFault.join : LoopFault → LoopFault → LoopFault
  | .outOfFuel, _ | _, .outOfFuel => .outOfFuel
  | .undefined, _ | _, .undefined => .undefined
  | .terminate, .terminate => .terminate

/-- `#pragma omp parallel for` over calls with these outcomes, in iteration order. -/
def parallelFor {α : Type} : List (Except SearchFault α) → Except LoopFault (List α)
  | [] => .ok []
  | .ok a :: rs => (parallelFor rs).map (a :: ·)
  | .error e :: rs =>
    .error (match parallelFor rs with
      | .ok _ => e.toLoopFault
      | .error f => e.toLoopFault.join f)

/-- A loop of failed calls fails. -/
theorem parallelFor_error_cons {α : Type} (e : SearchFault) (rs : List (Except SearchFault α))
    (as : List α) : parallelFor (.error e :: rs) ≠ .ok as := by
  simp only [parallelFor]
  split <;> nofun

/-- The loop succeeds exactly when every call does, with the calls' results. -/
theorem parallelFor_map_eq_ok {γ α : Type} {f : γ → Except SearchFault α} :
    ∀ {l : List γ} {as : List α}, parallelFor (l.map f) = .ok as ↔ l.mapM f = .ok as
  | [], _ => by
    rw [List.map_nil, List.mapM_nil]
    exact ⟨fun h => by cases h; rfl, fun h => by cases h; rfl⟩
  | c :: l, as => by
    rw [List.map_cons, List.mapM_cons]
    cases f c with
    | error e => exact iff_of_false (parallelFor_error_cons _ _ _) nofun
    | ok a =>
      simp only [parallelFor, bind, Except.bind]
      cases h : l.mapM f with
      | ok bs => simp [parallelFor_map_eq_ok.2 h, Except.map, pure, Except.pure]
      | error =>
        cases h' : parallelFor (l.map f) with
        | ok bs => cases h.symm.trans (parallelFor_map_eq_ok.1 h')
        | error => exact iff_of_false nofun nofun

/-- Calls that each map the result of a call `f` by their index map the loop's results. -/
theorem parallelFor_enumFrom_map {α β γ : Type} {f : α → Except SearchFault β}
    {F : Nat × α → Except SearchFault γ} {g : Nat → β → γ} : ∀ (l : List α) (m : Nat),
    (∀ q ∈ l.enumFrom m, F q = f q.2 >>= fun b => pure (g q.1 b)) →
      parallelFor ((l.enumFrom m).map F) =
        (parallelFor (l.map f)).map fun bs => (bs.enumFrom m).map fun q => g q.1 q.2
  | [], _, _ => rfl
  | a :: l, m, h => by
    have ih := parallelFor_enumFrom_map l (m + 1) fun q hq => h q (List.mem_cons_of_mem _ hq)
    rw [List.enumFrom_cons, List.map_cons, List.map_cons, h _ (List.mem_cons_self _ _)]
    cases f a <;> simp only [bind, Except.bind, pure, Except.pure, parallelFor, ih] <;>
      cases parallelFor (l.map f) <;> rfl

end DiskAnn
