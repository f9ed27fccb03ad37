import DiskAnn.Layout

/-
  DiskANN search: `range_search` (`pq_flash_index.cpp`, lines 2901-2940).

  Model. `l_search` is a `uint32_t`: it starts at `(uint32_t)min_l_search` and is doubled
  modulo `2^32` after each call, and the loop stops once fewer than `l_search / 2` of a
  call's results lie within `range` or once `l_search > max_l_search` (a `uint64_t`). Each
  call to `cached_beam_search` is an arbitrary oracle: `beyond n i` says whether the `n`-th
  call left `distances[i] > range`, so a statement over every `beyond` is a statement over
  every range and every sequence of results. The loop runs at most `fuel` passes.

  Proved:
  * `rangeSearch_stops`: for `1 ≤ min_l_search ≤ max_l_search < 2^31` and any results, the
    loop stops within 31 passes and every call gets `1 ≤ l_search ≤ max_l_search`.
  * `rangeSearch_zero_start_never_stops`: when `min_l_search` is a multiple of `2^32` the
    truncated `l_search` is `0`, every call gets `l_search = 0`, and the loop never stops.
  * `rangeSearch_within_wraps`: when every result lies within `range` and
    `max_l_search ≥ 2^32 - 1`, no `uint32_t` exceeds `max_l_search`, the doubling wraps to `0`
    after 32 passes, and the loop never stops.
-/

namespace DiskAnn

/-- `cur_bw`: `min_beam_width` or `l_search / 5`, whichever is larger, capped at 100. -/
def curBw (minBeamWidth lSearch : Nat) : Nat :=
  let bw := if minBeamWidth > lSearch / 5 then minBeamWidth else lSearch / 5
  if bw > 100 then 100 else bw

/-- `res_count` after scanning a call's `l` results: the position of the first one beyond
    `range`, `l` when there is none, and the previous count when `l = 0`. -/
def resCount (beyond : Nat → Bool) (l prev : Nat) : Nat :=
  match (List.range l).find? beyond with
  | some i => i
  | none => if l = 0 then prev else l

/-- The loop's variables. -/
structure RangeState where
  lSearch : Nat
  resCount : Nat
  stopFlag : Bool
  /-- Trace: each call's `l_search` and `cur_bw`, latest first. -/
  calls : List (Nat × Nat)

/-- One pass of the `while (!stop_flag)` body, with the call's results `beyond`. -/
def rangeStep (maxLSearch minBeamWidth : Nat) (beyond : Nat → Bool) (s : RangeState) :
    RangeState :=
  let res := resCount beyond s.lSearch s.resCount
  let l := u32 (s.lSearch * 2)
  { lSearch := l
    resCount := res
    stopFlag := decide (res < s.lSearch / 2) || decide (maxLSearch < l)
    calls := (s.lSearch, curBw minBeamWidth s.lSearch) :: s.calls }

/-- The loop, for at most `fuel` passes; the `n`-th call's results are `beyond n`. -/
def rangeLoop (maxLSearch minBeamWidth : Nat) (beyond : Nat → Nat → Bool) :
    Nat → RangeState → RangeState
  | 0, s => s
  | fuel + 1, s =>
    if s.stopFlag then s
    else rangeLoop maxLSearch minBeamWidth beyond fuel
      (rangeStep maxLSearch minBeamWidth (beyond s.calls.length) s)

/-- `range_search`: the count it returns (`none` while the loop still runs after `fuel`
    passes), and each call's `l_search` and `cur_bw`, first call first. -/
def rangeSearch (minLSearch maxLSearch minBeamWidth : Nat) (beyond : Nat → Nat → Bool)
    (fuel : Nat) : Option Nat × List (Nat × Nat) :=
  let s := rangeLoop maxLSearch minBeamWidth beyond fuel ⟨u32 minLSearch, 0, false, []⟩
  (if s.stopFlag then some s.resCount else none, s.calls.reverse)

section Loop

variable {maxLSearch minBeamWidth : Nat} {beyond : Nat → Nat → Bool}

@[simp] theorem rangeLoop_stopped (fuel : Nat) {s : RangeState} (h : s.stopFlag = true) :
    rangeLoop maxLSearch minBeamWidth beyond fuel s = s := by
  cases fuel <;> simp [rangeLoop, h]

theorem rangeLoop_succ (fuel : Nat) {s : RangeState} (h : s.stopFlag = false) :
    rangeLoop maxLSearch minBeamWidth beyond (fuel + 1) s =
      rangeLoop maxLSearch minBeamWidth beyond fuel
        (rangeStep maxLSearch minBeamWidth (beyond s.calls.length) s) := by
  simp [rangeLoop, h]

/-! ## Bounds below `2^31`: the loop stops -/

/-- A pass from `l ≤ max_l_search < 2^31` doubles `l` without wrapping. -/
theorem rangeStep_lSearch {b : Nat → Bool} {s : RangeState} (hmax : maxLSearch < 2 ^ 31)
    (hl : s.lSearch ≤ maxLSearch) :
    (rangeStep maxLSearch minBeamWidth b s).lSearch = 2 * s.lSearch := by
  simp only [rangeStep, u32]
  omega

/-- A pass that leaves the loop running left `l_search ≤ max_l_search`. -/
theorem rangeStep_le_of_running {b : Nat → Bool} {s : RangeState}
    (h : (rangeStep maxLSearch minBeamWidth b s).stopFlag = false) :
    (rangeStep maxLSearch minBeamWidth b s).lSearch ≤ maxLSearch := by
  simp only [rangeStep, Bool.or_eq_false_iff, decide_eq_false_iff_not, not_lt] at h ⊢
  exact h.2

/-- From a running state with `1 ≤ l ≤ max_l_search < 2^31` and `max_l_search < l * 2^fuel`,
    the loop stops within `fuel` passes, and each call it makes gets
    `1 ≤ l_search ≤ max_l_search`. -/
theorem rangeLoop_stops (hmax : maxLSearch < 2 ^ 31) :
    ∀ (fuel : Nat) (s : RangeState), s.stopFlag = false → 1 ≤ s.lSearch →
      s.lSearch ≤ maxLSearch → maxLSearch < s.lSearch * 2 ^ fuel →
      (rangeLoop maxLSearch minBeamWidth beyond fuel s).stopFlag = true ∧
        ∀ c ∈ (rangeLoop maxLSearch minBeamWidth beyond fuel s).calls,
          c ∈ s.calls ∨ 1 ≤ c.1 ∧ c.1 ≤ maxLSearch
  | 0, s, _, _, hle, hlt => absurd hlt (by simpa using hle)
  | fuel + 1, s, hs, h1, hle, hlt => by
    rw [rangeLoop_succ fuel hs]
    have hl' : (rangeStep maxLSearch minBeamWidth (beyond s.calls.length) s).lSearch =
        2 * s.lSearch := rangeStep_lSearch hmax hle
    have hcalls : ∀ c ∈ (rangeStep maxLSearch minBeamWidth (beyond s.calls.length) s).calls,
        c ∈ s.calls ∨ 1 ≤ c.1 ∧ c.1 ≤ maxLSearch := by
      intro c hc
      rcases List.mem_cons.1 hc with rfl | hc
      · exact .inr ⟨h1, hle⟩
      · exact .inl hc
    cases hs' : (rangeStep maxLSearch minBeamWidth (beyond s.calls.length) s).stopFlag
    · -- the loop goes on with `l` doubled, and `l * 2^(fuel+1)` is `2 l * 2^fuel`
      have hmeasure : s.lSearch * 2 ^ (fuel + 1) = 2 * s.lSearch * 2 ^ fuel := by
        rw [pow_succ]; ac_rfl
      obtain ⟨hstop, hc⟩ := rangeLoop_stops hmax fuel _ hs' (by omega)
        (rangeStep_le_of_running hs') (by rw [hl', ← hmeasure]; exact hlt)
      exact ⟨hstop, fun c h => (hc c h).elim (hcalls c) .inr⟩
    · rw [rangeLoop_stopped fuel hs']
      exact ⟨hs', hcalls⟩

/-- (PROVED) For every `1 ≤ min_l_search ≤ max_l_search < 2^31`, every `min_beam_width` and
    all results, `range_search` returns within 31 passes, and every call gets
    `1 ≤ l_search ≤ max_l_search`. -/
theorem rangeSearch_stops {minLSearch fuel : Nat} (h1 : 1 ≤ minLSearch)
    (hle : minLSearch ≤ maxLSearch) (hmax : maxLSearch < 2 ^ 31) (hfuel : 31 ≤ fuel) :
    ∃ r, (rangeSearch minLSearch maxLSearch minBeamWidth beyond fuel).1 = some r ∧
      ∀ c ∈ (rangeSearch minLSearch maxLSearch minBeamWidth beyond fuel).2,
        1 ≤ c.1 ∧ c.1 ≤ maxLSearch := by
  have hl : u32 minLSearch = minLSearch := Nat.mod_eq_of_lt (by omega)
  have hlt : maxLSearch < minLSearch * 2 ^ fuel :=
    calc maxLSearch < 2 ^ 31 := hmax
      _ ≤ 2 ^ fuel := Nat.pow_le_pow_right (by omega) hfuel
      _ ≤ minLSearch * 2 ^ fuel := Nat.le_mul_of_pos_left _ h1
  obtain ⟨hstop, hc⟩ := @rangeLoop_stops maxLSearch minBeamWidth beyond hmax
    fuel ⟨u32 minLSearch, 0, false, []⟩ rfl (by simp [hl, h1]) (by simp [hl, hle])
    (by simpa only [hl] using hlt)
  refine ⟨(rangeLoop maxLSearch minBeamWidth beyond fuel ⟨u32 minLSearch, 0, false, []⟩).resCount,
    by simp [rangeSearch, hstop], fun c h => ?_⟩
  simpa using hc c (List.mem_reverse.1 h)

/-! ## `l_search = 0`: the loop never stops -/

/-- A pass with `l_search = 0` reads no result, keeps the count, and passes `0` on. -/
theorem rangeStep_zero {b : Nat → Bool} {s : RangeState} (h : s.lSearch = 0) :
    rangeStep maxLSearch minBeamWidth b s =
      { s with stopFlag := false, calls := (0, curBw minBeamWidth 0) :: s.calls } := by
  cases s
  subst h
  simp [rangeStep, resCount, u32]

theorem rangeLoop_zero :
    ∀ (fuel : Nat) (s : RangeState), s.lSearch = 0 → s.stopFlag = false →
      rangeLoop maxLSearch minBeamWidth beyond fuel s =
        { s with calls := List.replicate fuel (0, curBw minBeamWidth 0) ++ s.calls }
  | 0, _, _, _ => rfl
  | fuel + 1, ⟨_, r, _, calls⟩, rfl, rfl => by
    rw [rangeLoop_succ fuel rfl, rangeStep_zero rfl,
      rangeLoop_zero fuel ⟨0, r, false, (0, curBw minBeamWidth 0) :: calls⟩ rfl rfl]
    simp [List.replicate_succ']

end Loop

/-- (PROVED) When `min_l_search` is a multiple of `2^32` (for instance `2^32` itself), for
    every `max_l_search`, `min_beam_width` and all results, the loop is still running after
    any number of passes, and every call gets `l_search = 0`. -/
theorem rangeSearch_zero_start_never_stops {minLSearch : Nat} (h : minLSearch % 2 ^ 32 = 0)
    (maxLSearch minBeamWidth : Nat) (beyond : Nat → Nat → Bool) (fuel : Nat) :
    rangeSearch minLSearch maxLSearch minBeamWidth beyond fuel =
      (none, List.replicate fuel (0, curBw minBeamWidth 0)) := by
  simp [rangeSearch, rangeLoop_zero fuel ⟨u32 minLSearch, 0, false, []⟩ h rfl]

theorem rangeSearch_at_two_pow_32 :
    (2 ^ 32 : Nat) % 2 ^ 32 = 0 ∧
      rangeSearch (2 ^ 32) (2 ^ 32) 1 (fun _ _ => false) 3 = (none, [(0, 1), (0, 1), (0, 1)]) :=
  ⟨Nat.mod_self _, rangeSearch_zero_start_never_stops (Nat.mod_self _) _ _ _ 3⟩

/-! ## Results within `range`: the doubling wraps to `0` -/

section Loop

variable {maxLSearch minBeamWidth : Nat} {beyond : Nat → Nat → Bool}

/-- With every result within `range` and `max_l_search ≥ 2^32 - 1`, a pass never stops the
    loop and doubles `l_search` modulo `2^32`. -/
theorem rangeStep_within {s : RangeState} (hmax : 2 ^ 32 ≤ maxLSearch + 1) :
    (rangeStep maxLSearch minBeamWidth (fun _ => false) s).stopFlag = false ∧
      (rangeStep maxLSearch minBeamWidth (fun _ => false) s).lSearch = u32 (s.lSearch * 2) := by
  have hfind : (List.range s.lSearch).find? (fun _ => false) = none := by simp
  refine ⟨?_, rfl⟩
  simp only [rangeStep, resCount, hfind, u32, Bool.or_eq_false_iff, decide_eq_false_iff_not]
  constructor
  · split <;> omega
  · omega

theorem rangeLoop_within (hmax : 2 ^ 32 ≤ maxLSearch + 1) :
    ∀ (fuel : Nat) (s : RangeState), s.stopFlag = false → s.lSearch < 2 ^ 32 →
      (rangeLoop maxLSearch minBeamWidth (fun _ _ => false) fuel s).stopFlag = false ∧
        (rangeLoop maxLSearch minBeamWidth (fun _ _ => false) fuel s).lSearch =
          u32 (s.lSearch * 2 ^ fuel)
  | 0, s, hs, hlt => ⟨hs, by simpa [u32] using (Nat.mod_eq_of_lt hlt).symm⟩
  | fuel + 1, s, hs, _ => by
    obtain ⟨hs', hl'⟩ := @rangeStep_within maxLSearch minBeamWidth s hmax
    rw [rangeLoop_succ fuel hs]
    obtain ⟨hstop, hl⟩ := rangeLoop_within hmax fuel _ hs' (by rw [hl']; exact Nat.mod_lt _ (by decide))
    have hpow : 2 ^ (fuel + 1) = 2 * 2 ^ fuel := by rw [pow_succ, Nat.mul_comm]
    refine ⟨hstop, ?_⟩
    rw [hl, hl', hpow, u32, u32, Nat.mod_mul_mod, Nat.mul_assoc]
    rfl

theorem rangeLoop_add (a b : Nat) (s : RangeState) :
    rangeLoop maxLSearch minBeamWidth beyond (a + b) s =
      rangeLoop maxLSearch minBeamWidth beyond b (rangeLoop maxLSearch minBeamWidth beyond a s) := by
  induction a generalizing s with
  | zero => rw [Nat.zero_add]; rfl
  | succ a ih =>
    cases hs : s.stopFlag
    · rw [Nat.add_right_comm, rangeLoop_succ _ hs, rangeLoop_succ _ hs, ih]
    · simp [hs]

end Loop

/-- (PROVED) When every result lies within `range` and `max_l_search ≥ 2^32 - 1`, for every
    `min_l_search` and `min_beam_width`, the loop is still running after any number of
    passes, and every call after the first 32 gets `l_search = 0`. -/
theorem rangeSearch_within_wraps {maxLSearch : Nat} (hmax : 2 ^ 32 ≤ maxLSearch + 1)
    (minLSearch minBeamWidth fuel : Nat) :
    ∃ first, rangeSearch minLSearch maxLSearch minBeamWidth (fun _ _ => false) (32 + fuel) =
      (none, first ++ List.replicate fuel (0, curBw minBeamWidth 0)) := by
  obtain ⟨hs, hl⟩ := @rangeLoop_within maxLSearch minBeamWidth hmax 32
    ⟨u32 minLSearch, 0, false, []⟩ rfl (Nat.mod_lt _ (by decide))
  have hz : u32 (u32 minLSearch * 2 ^ 32) = 0 := by simp [u32]
  rw [hz] at hl
  refine ⟨(rangeLoop maxLSearch minBeamWidth (fun _ _ => false) 32
    ⟨u32 minLSearch, 0, false, []⟩).calls.reverse, ?_⟩
  simp [rangeSearch, rangeLoop_add, rangeLoop_zero fuel _ hl hs, hs]

theorem rangeSearch_one_wraps :
    2 ^ 32 ≤ (2 ^ 32 - 1 : Nat) + 1 ∧
      ∃ first, rangeSearch 1 (2 ^ 32 - 1) 1 (fun _ _ => false) (32 + 2) =
        (none, first ++ List.replicate 2 (0, curBw 1 0)) :=
  ⟨by decide, rangeSearch_within_wraps (by decide) 1 1 2⟩

end DiskAnn
