import Mathlib
import DiskAnn.Fetch

/-
  DiskANN's metric reduction on the recompute path: the metric `_dist_cmp` compares under
  (the constructor, `pq_flash_index.cpp`, lines 44-69), the query normalisation of
  `cached_beam_search` (lines 1810-1840), the distance to a fetched embedding after
  `preprocess_fetched_embeddings` (lines 1941-1962), and the distance written out for a result
  (lines 2864-2874).

  Model. Floating-point data is compared under L2 whatever the metric: the inner product is
  reduced to L2 by one more coordinate (`_max_base_norm` scales the base side, the query is
  normalised with a `0` in that slot) and cosine by normalising both sides. The L2 kernel lies
  outside the sources and is the sum of squared differences over `aligned_dim`
  (`l2Compare`). `aligned_query_T` is the query's first `data_dim` floats, normalised, then
  zeros; a fetched embedding is resized to `aligned_dim` with zeros. The inner product's
  `aligned_query_T[data_dim - 1] = 0` at `data_dim = 0` writes at `2^64 - 1` (`none`). The
  float operations are `FloatOps`; the statements below take them exact (`FloatOps.exact`), an
  ordered field with a square root (`ExactSqrt`). They need a query of nonzero norm (the code
  divides by `query_norm` unchecked) and a positive `_max_base_norm`, which stays `0` when
  `_max_base_norm.bin` is missing.

  Proved, with `‖x‖ ≤ max_base_norm`:
  - the lifted distance is `2 - 2 ⟨q, x⟩ / (‖q‖ B)`, so the result written for an inner-product
    search is `2 (⟨q, x⟩ - B ‖q‖)`: the sign flip and the rescaling by `B ‖q‖` give an
    increasing function of the inner product, not the inner product
    (`innerProduct_emitted_distance`);
  - the L2 order of lifted embeddings is the inner-product order reversed
    (`innerProduct_lifted_order`); past `B` the lifted coordinate is clamped to `0`, and for
    every query some embedding past `B` ranks below one within `B` of smaller inner product
    (`innerProduct_clamped_order`);
  - under cosine the distance is `2 - 2 cos(q, x)` (`cosine_fetched_distance`).
-/

namespace DiskAnn

/-! ## The code -/

/-- The metric the constructor gives `_dist_cmp`: cosine and the inner product are compared
    under L2 for floating-point data, taken as preprocessed, and kept for integral data. -/
def metricToInvoke (m : Metric) (isFloatingPoint : Bool) : Metric :=
  match m, isFloatingPoint with
  | .cosine, true | .innerProduct, true => .l2
  | m, _ => m

section Code

variable {F : Type} (ops : FloatOps F)

/-- `DistanceL2::compare`, outside the sources: the sum of squared differences. -/
def l2Compare (a b : List F) : F :=
  sumSquares ops (List.zipWith ops.sub a b)

/-- The normalisation step of `cached_beam_search`: `aligned_query_T` over its first
    `data_dim` floats and `query_norm`, for a query of at least `data_dim` floats. -/
def normalizeQuery (metric : Metric) (dataDim : Nat) (query : List F) : Option (List F × F) :=
  match metric with
  | .innerProduct =>
    if dataDim = 0 then none else
    let q := query.take (dataDim - 1)
    let queryNorm := ops.sqrt (sumSquares ops q)
    some (q.map (ops.div · queryNorm) ++ [ops.zero], queryNorm)
  | .cosine =>
    let q := query.take dataDim
    let queryNorm := ops.sqrt (sumSquares ops q)
    some (q.map (ops.div · queryNorm), queryNorm)
  | .l2 => some (query.take dataDim, ops.zero)

/-- The distance of the recompute path: the preprocessed embedding resized to `aligned_dim`
    with zeros, against `aligned_query_T`, zero past `data_dim`. -/
def fetchedDistance (alignedDim : Nat) (queryT emb : List F) : F :=
  l2Compare ops (resize queryT alignedDim ops.zero) (resize emb alignedDim ops.zero)

/-- The distance written for a result: under the inner product its sign is flipped and it is
    rescaled by `_max_base_norm * query_norm` unless `_max_base_norm` is `0`. `-d` is
    `0 - d`, which differs only in the sign of a zero. -/
def emitDistance [DecidableEq F] (metric : Metric) (maxBaseNorm queryNorm d : F) : F :=
  match metric with
  | .innerProduct =>
    let d := ops.sub ops.zero d
    if maxBaseNorm ≠ ops.zero then ops.mul d (ops.mul maxBaseNorm queryNorm) else d
  | _ => d

/-- Under the inner product an embedding of `data_dim - 1` floats is divided by
    `max_base_norm` and takes the MIPS coordinate. -/
theorem preprocessEmbedding_innerProduct_of_length {B : F} {dataDim : UInt32} (hd : dataDim ≠ 0)
    {x : List F} (hx : x.length = dataDim.toNat - 1) :
    preprocessEmbedding ops .innerProduct B dataDim x =
      x.map (ops.div · B) ++ [mipsCoordinate ops B (sumSquares ops x)] := by
  have hpos : 0 < dataDim.toNat := Nat.pos_of_ne_zero fun h => hd (UInt32.toNat.inj h)
  have hlen : dataDim.toNat = x.length + 1 := by omega
  simp only [preprocessEmbedding, toNat_sub_one, if_neg hd, ← hx, Nat.lt_irrefl, if_false,
    List.take_length, List.drop_length]
  rw [hlen, resize_append_of_length _ (List.length_map _ _)]
  rfl

end Code

/-! ## Exact arithmetic -/

section Exact

variable {F : Type} [LinearOrderedField F]

/-- Exact arithmetic in an ordered field, with `sqrt` for `std::sqrt`. -/
def FloatOps.exact (sqrt : F → F) : FloatOps F :=
  ⟨0, 1, (· + ·), (· - ·), (· * ·), (· / ·), sqrt, fun a b => decide (a ≤ b),
    fun a b => decide (a < b)⟩

/-- `‖a‖²`. -/
def normSq (a : List F) : F := (a.map fun x => x * x).sum

/-- `⟨a, b⟩`. -/
def dot (a b : List F) : F := (List.zipWith (· * ·) a b).sum

@[simp] theorem normSq_nil : normSq ([] : List F) = 0 := rfl

@[simp] theorem normSq_cons (x : F) (a : List F) : normSq (x :: a) = x * x + normSq a := by
  simp [normSq]

@[simp] theorem dot_nil_left (b : List F) : dot [] b = 0 := rfl

@[simp] theorem dot_nil_right (a : List F) : dot a [] = 0 := by
  cases a <;> rfl

@[simp] theorem dot_cons (x y : F) (a b : List F) : dot (x :: a) (y :: b) = x * y + dot a b := by
  simp [dot]

theorem normSq_nonneg (a : List F) : 0 ≤ normSq a := by
  induction a with
  | nil => exact le_refl 0
  | cons x a ih => rw [normSq_cons]; exact add_nonneg (mul_self_nonneg x) ih

theorem normSq_append_single (a : List F) (u : F) : normSq (a ++ [u]) = normSq a + u * u := by
  induction a with
  | nil => simp
  | cons x a ih => simp only [List.cons_append, normSq_cons, ih]; ring

theorem dot_append_single {a b : List F} (h : a.length = b.length) (u v : F) :
    dot (a ++ [u]) (b ++ [v]) = dot a b + u * v := by
  induction a generalizing b with
  | nil => cases b <;> simp_all
  | cons x a ih =>
    cases b with
    | nil => cases h
    | cons y b => simp only [List.cons_append, dot_cons, ih (Nat.succ.inj h)]; ring

theorem normSq_map_div (a : List F) (c : F) : normSq (a.map (· / c)) = normSq a / (c * c) := by
  induction a with
  | nil => simp
  | cons x a ih => simp only [List.map_cons, normSq_cons, ih]; ring

theorem dot_map_div (a b : List F) (c e : F) :
    dot (a.map (· / c)) (b.map (· / e)) = dot a b / (c * e) := by
  induction a generalizing b with
  | nil => simp [dot]
  | cons x a ih =>
    cases b with
    | nil => simp [dot]
    | cons y b => simp only [List.map_cons, dot_cons, ih]; ring

theorem normSq_map_mul (a : List F) (c : F) : normSq (a.map (· * c)) = c * c * normSq a := by
  induction a with
  | nil => simp
  | cons x a ih => simp only [List.map_cons, normSq_cons, ih]; ring

theorem dot_map_mul (a : List F) (c : F) : dot a (a.map (· * c)) = c * normSq a := by
  induction a with
  | nil => simp
  | cons x a ih => simp only [List.map_cons, dot_cons, normSq_cons, ih]; ring

/-- `a` rescaled to norm `c`, `c a / ‖a‖`, has squared norm `c²` and inner product `c ‖a‖`
    with `a`. -/
theorem normSq_dot_rescale {a : List F} {s : F} (hs : s ≠ 0) (hss : s * s = normSq a) (c : F) :
    normSq (a.map (· * (c / s))) = c * c ∧ dot a (a.map (· * (c / s))) = c * s := by
  have hcs : c / s * s = c := div_mul_cancel₀ c hs
  constructor
  · rw [normSq_map_mul, ← hss]
    calc c / s * (c / s) * (s * s) = (c / s * s) * (c / s * s) := by ring
      _ = c * c := by rw [hcs]
  · rw [dot_map_mul, ← hss, ← mul_assoc, hcs]

/-- `‖a - b‖² = ‖a‖² + ‖b‖² - 2 ⟨a, b⟩` for vectors of one length. -/
theorem normSq_zipWith_sub {a b : List F} (h : a.length = b.length) :
    normSq (List.zipWith (· - ·) a b) = normSq a + normSq b - 2 * dot a b := by
  induction a generalizing b with
  | nil => cases b <;> simp_all
  | cons x a ih =>
    cases b with
    | nil => cases h
    | cons y b =>
      simp only [List.zipWith_cons_cons, normSq_cons, dot_cons, ih (Nat.succ.inj h)]
      ring

variable {sqrt : F → F}

theorem foldl_sumSquares_exact (xs : List F) (c : F) :
    xs.foldl (fun acc x => (FloatOps.exact sqrt).add acc ((FloatOps.exact sqrt).mul x x)) c =
      c + normSq xs := by
  induction xs generalizing c with
  | nil => simp
  | cons x xs ih => rw [List.foldl_cons, ih, normSq_cons]; exact (add_assoc _ _ _).trans rfl

@[simp] theorem sumSquares_exact (xs : List F) :
    sumSquares (FloatOps.exact sqrt) xs = normSq xs :=
  (foldl_sumSquares_exact xs 0).trans (zero_add _)

theorem normSq_append (a b : List F) : normSq (a ++ b) = normSq a + normSq b := by
  induction a with
  | nil => simp
  | cons x a ih => simp only [List.cons_append, normSq_cons, ih]; ring

theorem normSq_replicate_zero (k : Nat) : normSq (List.replicate k (0 : F)) = 0 := by
  induction k with
  | zero => rfl
  | succ k ih => rw [List.replicate_succ, normSq_cons, ih, mul_zero, add_zero]

/-- The zeros past `data_dim` on both sides add nothing to the distance. -/
theorem fetchedDistance_exact {n : Nat} {a b : List F} (h : a.length = b.length)
    (hn : a.length ≤ n) :
    fetchedDistance (FloatOps.exact sqrt) n a b = normSq a + normSq b - 2 * dot a b := by
  have hb : b.length ≤ n := h ▸ hn
  simp only [fetchedDistance, resize, List.take_of_length_le hn, List.take_of_length_le hb, ← h]
  rw [l2Compare, sumSquares_exact, List.zipWith_append _ _ _ _ _ h, normSq_append]
  rw [show List.zipWith (FloatOps.exact sqrt).sub a b = List.zipWith (· - ·) a b from rfl,
    normSq_zipWith_sub h, List.zipWith_replicate',
    show (FloatOps.exact sqrt).sub (FloatOps.exact sqrt).zero (FloatOps.exact sqrt).zero = 0 from
      sub_self 0, normSq_replicate_zero, add_zero]

@[simp] theorem exact_div (a b : F) : (FloatOps.exact sqrt).div a b = a / b := rfl

/-- `sqrt` is an exact square root. -/
def ExactSqrt (sqrt : F → F) : Prop := ∀ a, 0 ≤ a → 0 ≤ sqrt a ∧ sqrt a * sqrt a = a

/-- `std::sqrt` in exact arithmetic. -/
theorem real_sqrt_exact : ExactSqrt Real.sqrt :=
  fun a ha => ⟨Real.sqrt_nonneg a, Real.mul_self_sqrt ha⟩

theorem normalizeQuery_innerProduct_exact {dataDim : Nat} (hd : dataDim ≠ 0) {q : List F}
    (hq : q.length = dataDim - 1) :
    normalizeQuery (FloatOps.exact sqrt) .innerProduct dataDim q =
      some (q.map (· / sqrt (normSq q)) ++ [0], sqrt (normSq q)) := by
  simp only [normalizeQuery, if_neg hd, ← hq, List.take_length, exact_div, sumSquares_exact]
  rfl

theorem normalizeQuery_cosine_exact {dataDim : Nat} {q : List F} (hq : q.length = dataDim) :
    normalizeQuery (FloatOps.exact sqrt) .cosine dataDim q =
      some (q.map (· / sqrt (normSq q)), sqrt (normSq q)) := by
  simp only [normalizeQuery, ← hq, List.take_length, exact_div, sumSquares_exact]
  rfl

/-! ## The reduction, in exact arithmetic -/

theorem sqrt_normSq_pos (hsqrt : ExactSqrt sqrt) {a : List F} (h : normSq a ≠ 0) : 0 < sqrt (normSq a) := by
  obtain ⟨h0, hsq⟩ := hsqrt _ (normSq_nonneg a)
  refine lt_of_le_of_ne h0 fun he => h ?_
  rw [← hsq, ← he, mul_zero]

/-- The MIPS coordinate squares to `1 - ‖x‖² / B²` within `B`: clamping at `0` only happens
    at `‖x‖ = B`, where the two agree. -/
theorem mipsCoordinate_mul_self (hsqrt : ExactSqrt sqrt) {B s : F} (hB : 0 < B) (hs : s ≤ B * B) :
    mipsCoordinate (FloatOps.exact sqrt) B s * mipsCoordinate (FloatOps.exact sqrt) B s =
      1 - s / (B * B) := by
  have hres : 0 ≤ 1 - s / (B * B) :=
    sub_nonneg.mpr ((div_le_one (mul_pos hB hB)).mpr hs)
  simp only [mipsCoordinate, FloatOps.exact, decide_eq_true_eq]
  split
  · rename_i hle
    rw [le_antisymm hle hres, mul_zero]
  · exact (hsqrt _ hres).2

/-- At or past `B` the MIPS coordinate is clamped to `0`. -/
theorem mipsCoordinate_clamped {B s : F} (hB : 0 < B) (hs : B * B ≤ s) :
    mipsCoordinate (FloatOps.exact sqrt) B s = 0 := by
  have hle : 1 - s / (B * B) ≤ 0 := sub_nonpos.mpr ((le_div_iff₀ (mul_pos hB hB)).mpr (by simpa))
  simp only [mipsCoordinate, FloatOps.exact, decide_eq_true_eq, if_pos hle]

/-- The lifted distance of an embedding within `B`: `2 - 2 ⟨q, x⟩ / (‖q‖ B)`. -/
theorem innerProduct_fetchedDistance (hsqrt : ExactSqrt sqrt) {dataDim : UInt32} (hd : dataDim ≠ 0) {alignedDim : Nat}
    (hal : dataDim.toNat ≤ alignedDim) {q x : List F} {B : F}
    (hq : q.length = dataDim.toNat - 1) (hx : x.length = dataDim.toNat - 1)
    (hq0 : normSq q ≠ 0) (hB : 0 < B) (hxB : normSq x ≤ B * B) :
    fetchedDistance (FloatOps.exact sqrt) alignedDim (q.map (· / sqrt (normSq q)) ++ [0])
        (preprocessEmbedding (FloatOps.exact sqrt) .innerProduct B dataDim x) =
      2 - 2 * dot q x / (sqrt (normSq q) * B) := by
  have hnn := (hsqrt _ (normSq_nonneg q)).2
  have hpos : 0 < dataDim.toNat := Nat.pos_of_ne_zero fun h => hd (UInt32.toNat.inj h)
  rw [preprocessEmbedding_innerProduct_of_length _ hd hx, fetchedDistance_exact
    (by simp [hq, hx]) (by simp; omega)]
  simp only [exact_div, sumSquares_exact, normSq_append_single, normSq_map_div,
    dot_append_single (by simp [hq, hx] : (q.map (· / sqrt (normSq q))).length = (x.map (· / B)).length),
    dot_map_div, mipsCoordinate_mul_self hsqrt hB hxB, hnn, div_self hq0]
  ring

/-- The lifted distance of an embedding at or past `B`, whose MIPS coordinate is clamped to
    `0`: `1 + ‖x‖² / B² - 2 ⟨q, x⟩ / (‖q‖ B)`. -/
theorem clamped_fetchedDistance (hsqrt : ExactSqrt sqrt) {dataDim : UInt32} (hd : dataDim ≠ 0)
    {alignedDim : Nat} (hal : dataDim.toNat ≤ alignedDim) {q x : List F} {B : F}
    (hq : q.length = dataDim.toNat - 1) (hx : x.length = dataDim.toNat - 1)
    (hq0 : normSq q ≠ 0) (hB : 0 < B) (hxB : B * B ≤ normSq x) :
    fetchedDistance (FloatOps.exact sqrt) alignedDim (q.map (· / sqrt (normSq q)) ++ [0])
        (preprocessEmbedding (FloatOps.exact sqrt) .innerProduct B dataDim x) =
      1 + normSq x / (B * B) - 2 * dot q x / (sqrt (normSq q) * B) := by
  have hnn := (hsqrt _ (normSq_nonneg q)).2
  have hpos : 0 < dataDim.toNat := Nat.pos_of_ne_zero fun h => hd (UInt32.toNat.inj h)
  rw [preprocessEmbedding_innerProduct_of_length _ hd hx, fetchedDistance_exact
    (by simp [hq, hx]) (by simp; omega)]
  simp only [exact_div, sumSquares_exact, normSq_append_single, normSq_map_div,
    dot_append_single (by simp [hq, hx] : (q.map (· / sqrt (normSq q))).length = (x.map (· / B)).length),
    dot_map_div, mipsCoordinate_clamped hB hxB, hnn, div_self hq0]
  ring

/-- The distance an inner-product search writes for an embedding within `B` is
    `2 (⟨q, x⟩ - B ‖q‖)`. -/
theorem innerProduct_emitted_distance (hsqrt : ExactSqrt sqrt) {dataDim : UInt32} (hd : dataDim ≠ 0) {alignedDim : Nat}
    (hal : dataDim.toNat ≤ alignedDim) {q x : List F} {B : F}
    (hq : q.length = dataDim.toNat - 1) (hx : x.length = dataDim.toNat - 1)
    (hq0 : normSq q ≠ 0) (hB : 0 < B) (hxB : normSq x ≤ B * B) :
    ∃ queryT, normalizeQuery (FloatOps.exact sqrt) .innerProduct dataDim.toNat q =
        some (queryT, sqrt (normSq q)) ∧
      emitDistance (FloatOps.exact sqrt) .innerProduct B (sqrt (normSq q))
          (fetchedDistance (FloatOps.exact sqrt) alignedDim queryT
            (preprocessEmbedding (FloatOps.exact sqrt) .innerProduct B dataDim x)) =
        2 * (dot q x - B * sqrt (normSq q)) := by
  have hd' : dataDim.toNat ≠ 0 := fun h => hd (UInt32.toNat.inj h)
  refine ⟨_, normalizeQuery_innerProduct_exact hd' hq, ?_⟩
  have hn := sqrt_normSq_pos hsqrt hq0
  rw [innerProduct_fetchedDistance hsqrt hd hal hq hx hq0 hB hxB]
  simp only [emitDistance, FloatOps.exact, ne_eq, hB.ne', not_false_eq_true, if_true]
  have hc : 2 * dot q x / (sqrt (normSq q) * B) * (B * sqrt (normSq q)) = 2 * dot q x := by
    rw [mul_comm B, div_mul_cancel₀ _ (mul_pos hn hB).ne']
  linear_combination hc

/-- A one-dimensional inner-product index, `max_base_norm = 1`: the query `[1]` against the
    embedding `[1]` is written as `0`, not as their inner product `1`. -/
theorem unitQuery_emitted_distance :
    ∃ queryT, normalizeQuery (FloatOps.exact Real.sqrt) .innerProduct (2 : UInt32).toNat [(1 : ℝ)] =
        some (queryT, 1) ∧
      emitDistance (FloatOps.exact Real.sqrt) .innerProduct 1 1
          (fetchedDistance (FloatOps.exact Real.sqrt) 8 queryT
            (preprocessEmbedding (FloatOps.exact Real.sqrt) .innerProduct 1 2 [1])) = 0 := by
  obtain ⟨queryT, hq, he⟩ := innerProduct_emitted_distance real_sqrt_exact
    (by decide : (2 : UInt32) ≠ 0) (by decide : (2 : UInt32).toNat ≤ 8) (q := [1]) (x := [1])
    rfl rfl (by norm_num [normSq]) one_pos (by norm_num [normSq])
  have h1 : Real.sqrt (normSq [(1 : ℝ)]) = 1 := by norm_num [normSq]
  rw [h1] at hq he
  exact ⟨queryT, hq, by rw [he]; norm_num [dot]⟩

/-- Within `B`, the L2 order of lifted embeddings is their inner-product order reversed. -/
theorem innerProduct_lifted_order (hsqrt : ExactSqrt sqrt) {dataDim : UInt32} (hd : dataDim ≠ 0) {alignedDim : Nat}
    (hal : dataDim.toNat ≤ alignedDim) {q x y : List F} {B : F}
    (hq : q.length = dataDim.toNat - 1) (hx : x.length = dataDim.toNat - 1)
    (hy : y.length = dataDim.toNat - 1) (hq0 : normSq q ≠ 0) (hB : 0 < B)
    (hxB : normSq x ≤ B * B) (hyB : normSq y ≤ B * B) :
    ∃ queryT, normalizeQuery (FloatOps.exact sqrt) .innerProduct dataDim.toNat q =
        some (queryT, sqrt (normSq q)) ∧
      (fetchedDistance (FloatOps.exact sqrt) alignedDim queryT
          (preprocessEmbedding (FloatOps.exact sqrt) .innerProduct B dataDim x) ≤
        fetchedDistance (FloatOps.exact sqrt) alignedDim queryT
          (preprocessEmbedding (FloatOps.exact sqrt) .innerProduct B dataDim y) ↔
        dot q y ≤ dot q x) := by
  have hd' : dataDim.toNat ≠ 0 := fun h => hd (UInt32.toNat.inj h)
  refine ⟨_, normalizeQuery_innerProduct_exact hd' hq, ?_⟩
  have hnB := mul_pos (sqrt_normSq_pos hsqrt hq0) hB
  rw [innerProduct_fetchedDistance hsqrt hd hal hq hx hq0 hB hxB,
    innerProduct_fetchedDistance hsqrt hd hal hq hy hq0 hB hyB, sub_le_sub_iff_left,
    mul_div_assoc, mul_div_assoc, mul_le_mul_left two_pos, div_le_div_iff_of_pos_right hnB]

/-- The embeddings `[1]` and `[1/2]` of the same index keep their order. -/
theorem unitQuery_lifted_order :
    ∃ queryT, normalizeQuery (FloatOps.exact Real.sqrt) .innerProduct (2 : UInt32).toNat [(1 : ℝ)] =
        some (queryT, Real.sqrt (normSq [(1 : ℝ)])) ∧
      (fetchedDistance (FloatOps.exact Real.sqrt) 8 queryT
          (preprocessEmbedding (FloatOps.exact Real.sqrt) .innerProduct 1 2 [1]) ≤
        fetchedDistance (FloatOps.exact Real.sqrt) 8 queryT
          (preprocessEmbedding (FloatOps.exact Real.sqrt) .innerProduct 1 2 [1 / 2]) ↔
        dot [1] [1 / 2] ≤ dot [(1 : ℝ)] [1]) :=
  innerProduct_lifted_order real_sqrt_exact (by decide) (by decide) rfl rfl rfl
    (by norm_num [normSq]) one_pos (by norm_num [normSq]) (by norm_num [normSq])

/-- Past `max_base_norm` the lifted coordinate is clamped to `0` and the ranking breaks: for
    every nonzero query `q` and every `B > 0`, the embedding `4 B q / ‖q‖`, of norm `4 B`, has the
    larger inner product with `q` but the larger lifted distance than `B q / ‖q‖`, of norm `B`. -/
theorem innerProduct_clamped_order (hsqrt : ExactSqrt sqrt) {dataDim : UInt32} (hd : dataDim ≠ 0)
    {alignedDim : Nat} (hal : dataDim.toNat ≤ alignedDim) {q : List F} {B : F}
    (hq : q.length = dataDim.toNat - 1) (hq0 : normSq q ≠ 0) (hB : 0 < B) :
    let x := q.map (· * (4 * B / sqrt (normSq q)))
    let y := q.map (· * (B / sqrt (normSq q)))
    ∃ queryT, normalizeQuery (FloatOps.exact sqrt) .innerProduct dataDim.toNat q =
        some (queryT, sqrt (normSq q)) ∧
      normSq y = B * B ∧ normSq x = 16 * (B * B) ∧ dot q y < dot q x ∧
      fetchedDistance (FloatOps.exact sqrt) alignedDim queryT
          (preprocessEmbedding (FloatOps.exact sqrt) .innerProduct B dataDim y) <
        fetchedDistance (FloatOps.exact sqrt) alignedDim queryT
          (preprocessEmbedding (FloatOps.exact sqrt) .innerProduct B dataDim x) := by
  intro x y
  have hd' : dataDim.toNat ≠ 0 := fun h => hd (UInt32.toNat.inj h)
  refine ⟨_, normalizeQuery_innerProduct_exact hd' hq, ?_⟩
  have hs := sqrt_normSq_pos hsqrt hq0
  have hss := (hsqrt _ (normSq_nonneg q)).2
  obtain ⟨hy2, hdy⟩ : normSq y = B * B ∧ dot q y = B * sqrt (normSq q) :=
    normSq_dot_rescale hs.ne' hss B
  obtain ⟨hx2, hdx⟩ : normSq x = 4 * B * (4 * B) ∧ dot q x = 4 * B * sqrt (normSq q) :=
    normSq_dot_rescale hs.ne' hss (4 * B)
  have hBB := mul_pos hB hB
  refine ⟨hy2, by rw [hx2]; ring, by rw [hdy, hdx, mul_assoc]; linarith [mul_pos hB hs], ?_⟩
  -- `y` lifts within `B`, at distance `0`; `x` is clamped, at distance `9`
  have hyl : y.length = dataDim.toNat - 1 := by simp [y, hq]
  have hxl : x.length = dataDim.toNat - 1 := by simp [x, hq]
  rw [innerProduct_fetchedDistance hsqrt hd hal hq hyl hq0 hB hy2.le,
    clamped_fetchedDistance hsqrt hd hal hq hxl hq0 hB (by rw [hx2]; linarith), hdy, hdx, hx2]
  have hBs : B * sqrt (normSq q) ≠ 0 := (mul_pos hB hs).ne'
  have h16 : 4 * B * (4 * B) / (B * B) = 16 := by
    rw [show 4 * B * (4 * B) = 16 * (B * B) by ring, mul_div_assoc, div_self hBB.ne', mul_one]
  rw [h16, mul_comm (sqrt (normSq q)) B]
  simp only [mul_assoc, mul_div_assoc, div_self hBs, mul_one]
  norm_num

/-- The query `[1]` of a one-dimensional inner-product index with `max_base_norm = 1`: `[4]`
    has the larger inner product but the larger lifted distance than `[1]`. -/
theorem unitQuery_clamped_order :
    let x := [(1 : ℝ)].map (· * (4 * 1 / Real.sqrt (normSq [(1 : ℝ)])))
    let y := [(1 : ℝ)].map (· * (1 / Real.sqrt (normSq [(1 : ℝ)])))
    ∃ queryT, normalizeQuery (FloatOps.exact Real.sqrt) .innerProduct (2 : UInt32).toNat [(1 : ℝ)] =
        some (queryT, Real.sqrt (normSq [(1 : ℝ)])) ∧
      normSq y = 1 * 1 ∧ normSq x = 16 * (1 * 1) ∧ dot [(1 : ℝ)] y < dot [(1 : ℝ)] x ∧
      fetchedDistance (FloatOps.exact Real.sqrt) 8 queryT
          (preprocessEmbedding (FloatOps.exact Real.sqrt) .innerProduct 1 2 y) <
        fetchedDistance (FloatOps.exact Real.sqrt) 8 queryT
          (preprocessEmbedding (FloatOps.exact Real.sqrt) .innerProduct 1 2 x) :=
  innerProduct_clamped_order real_sqrt_exact (by decide) (by decide) rfl (by norm_num [normSq])
    one_pos

/-- Under cosine an embedding of `data_dim` floats is divided by its norm. -/
theorem preprocessEmbedding_cosine_exact (hsqrt : ExactSqrt sqrt) {B : F} {dataDim : UInt32} {x : List F}
    (hx : x.length = dataDim.toNat) (hx0 : normSq x ≠ 0) :
    preprocessEmbedding (FloatOps.exact sqrt) .cosine B dataDim x =
      x.map (· / sqrt (normSq x)) := by
  have hd : dataDim ≠ 0 := by
    rintro rfl
    exact hx0 (by rw [List.eq_nil_of_length_eq_zero hx]; rfl)
  have hm := sqrt_normSq_pos hsqrt hx0
  simp only [preprocessEmbedding, toNat_sub_one, if_neg hd, hx, sumSquares_exact,
    if_neg (show ¬dataDim.toNat < dataDim.toNat - 1 by omega)]
  simp [FloatOps.exact, hm]

/-- Under cosine the distance of a fetched embedding is `2 - 2 cos(q, x)`, and it is written
    as it is. -/
theorem cosine_fetched_distance (hsqrt : ExactSqrt sqrt) {dataDim : UInt32} {alignedDim : Nat}
    (hal : dataDim.toNat ≤ alignedDim) {q x : List F} {B : F}
    (hq : q.length = dataDim.toNat) (hx : x.length = dataDim.toNat)
    (hq0 : normSq q ≠ 0) (hx0 : normSq x ≠ 0) :
    ∃ queryT, normalizeQuery (FloatOps.exact sqrt) .cosine dataDim.toNat q =
        some (queryT, sqrt (normSq q)) ∧
      emitDistance (FloatOps.exact sqrt) .cosine B (sqrt (normSq q))
          (fetchedDistance (FloatOps.exact sqrt) alignedDim queryT
            (preprocessEmbedding (FloatOps.exact sqrt) .cosine B dataDim x)) =
        2 - 2 * dot q x / (sqrt (normSq q) * sqrt (normSq x)) := by
  refine ⟨_, normalizeQuery_cosine_exact hq, ?_⟩
  rw [preprocessEmbedding_cosine_exact hsqrt hx hx0, fetchedDistance_exact
    (by simp [hq, hx]) (by simp [hq, hal])]
  simp only [emitDistance, normSq_map_div, dot_map_div, (hsqrt _ (normSq_nonneg q)).2,
    (hsqrt _ (normSq_nonneg x)).2, div_self hq0, div_self hx0]
  ring

/-- The orthogonal unit vectors `[1, 0]` and `[0, 1]` are at distance `2` under cosine. -/
theorem orthogonal_cosine_distance :
    ∃ queryT, normalizeQuery (FloatOps.exact Real.sqrt) .cosine (2 : UInt32).toNat [(1 : ℝ), 0] =
        some (queryT, 1) ∧
      emitDistance (FloatOps.exact Real.sqrt) .cosine 1 1
          (fetchedDistance (FloatOps.exact Real.sqrt) 8 queryT
            (preprocessEmbedding (FloatOps.exact Real.sqrt) .cosine 1 2 [0, 1])) = 2 := by
  obtain ⟨queryT, hq, he⟩ := cosine_fetched_distance real_sqrt_exact
    (by decide : (2 : UInt32).toNat ≤ 8) (q := [1, 0]) (x := [0, 1]) (B := 1) rfl rfl
    (by norm_num [normSq]) (by norm_num [normSq])
  have h1 : ∀ l : List ℝ, normSq l = 1 → Real.sqrt (normSq l) = 1 := fun l h => by
    rw [h, Real.sqrt_one]
  rw [h1 _ (by norm_num [normSq])] at hq he
  exact ⟨queryT, hq, by rw [he, h1 _ (by norm_num [normSq])]; norm_num [dot]⟩

end Exact

end DiskAnn
