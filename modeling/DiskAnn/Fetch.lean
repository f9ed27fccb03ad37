import Mathlib.Algebra.Order.Ring.Nat
import Mathlib.Algebra.Group.Int
import DiskAnn.Layout

/-
  DiskANN's embedding-service client: the decode of the `NodeEmbeddingResponse` in
  `fetch_embeddings_zmq` (`pq_flash_index.cpp`, lines 1639-1701), and
  `preprocess_fetched_embeddings` (lines 1714-1770), which every caller runs on the rows.

  Model. The transport (socket, send, receive) and the protobuf parse either fail, and the
  call returns `false`, or give the response: its `dimensions`, a repeated `int32`, and the
  bytes of `embeddings_data`. A float is the four bytes `memcpy` moves. The size check compares
  `emb_data.size()` with `(size_t)batch_size * embedding_dim * sizeof(float)`, computed in
  `size_t` with `embedding_dim` converted to `size_t`. On success `out_embeddings.resize`
  keeps the first rows, then each row `i` is resized to `embedding_dim` and filled by `memcpy`
  from float `i · embedding_dim`. A negative `embedding_dim` makes that `resize` throw
  `std::length_error`.

  Proved: a call that returns `false` leaves `out_embeddings` as it was. One that returns
  `true` had two dimensions `batch ≥ 0` and `dim`, and exactly `4 · batch · dim` bytes, with no
  wrap. It leaves `batch` rows of `dim` floats, row `i` being the floats `[i dim, (i + 1) dim)`
  (`fetchEmbeddingsZmq_spec`).

  Preprocessing. The float operations are parameters (`FloatOps`), so the statements hold for
  single precision in particular and the model keeps the code's order of operations. An
  embedding shorter than `data_dim - 1`, computed in `uint32_t`, is zero-padded to it. Under
  the inner product its first `data_dim - 1` coordinates are divided by `max_base_norm` and
  it is resized to `data_dim`, the new slot taking the MIPS coordinate; under cosine it is
  divided by its norm when that is positive.

  Proved: the lengths for every metric, with the `uint32_t` wrap at `data_dim = 0`
  (`length_preprocessEmbedding`), and the shape under the inner product: an embedding of
  `data_dim` or more floats keeps its own coordinate `data_dim - 1`, undivided, in place of the
  MIPS coordinate (`preprocessEmbedding_innerProduct`).
-/

namespace DiskAnn

/-- A decoded `NodeEmbeddingResponse`; `dimensions` holds `int32` values. -/
structure NodeEmbeddingResponse where
  dimensions : List Int
  embeddingsData : List UInt8
  dimensions_int32 : ∀ x ∈ dimensions, -2 ^ 31 ≤ x ∧ x < 2 ^ 31

/-- A float, as the four bytes `memcpy` copies. -/
abbrev FloatBits := List UInt8

/-- The floats of a byte string, four bytes each. -/
def floatsOf : List UInt8 → List FloatBits
  | a :: b :: c :: d :: rest => [a, b, c, d] :: floatsOf rest
  | _ => []

/-- `(size_t)x` for an `int`. -/
def sizeT (x : Int) : Nat := (x % 2 ^ 64).toNat

/-- Row `i` as `memcpy` fills it: the floats `[i dim, (i + 1) dim)` of the data. -/
def embeddingRow (data : List UInt8) (dim i : Nat) : List FloatBits :=
  ((floatsOf data).drop (i * dim)).take dim

/-- `out_embeddings.resize(n)`: the first `n` rows kept, empty rows added. -/
def resizeRows (rows : List (List FloatBits)) (n : Nat) : List (List FloatBits) :=
  rows.take n ++ List.replicate (n - rows.length) []

/-- Row `i` of the copy loop: `out_embeddings[i].resize(embedding_dim)`, which throws for a
    negative size, then the `memcpy`. -/
def copyRow (data : List UInt8) (embeddingDim : Int) (rows : List (List FloatBits)) (i : Nat) :
    Except String (List (List FloatBits)) :=
  if embeddingDim < 0 then throw "vector::_M_default_append"
  else pure (rows.set i (embeddingRow data embeddingDim.toNat i))

/-- `if (batch_size > 0)`, the copy loop over the rows. -/
def copyRows (data : List UInt8) (batchSize embeddingDim : Int) (rows : List (List FloatBits)) :
    Except String (List (List FloatBits)) :=
  if 0 < batchSize then (List.range batchSize.toNat).foldlM (copyRow data embeddingDim) rows
  else pure rows

/-- `fetch_embeddings_zmq` from the response on: its result and `out_embeddings`. The response
    is `none` when the transport or the parse failed. -/
def fetchEmbeddingsZmq (resp : Option NodeEmbeddingResponse) (out : List (List FloatBits)) :
    Except String (Bool × List (List FloatBits)) :=
  match resp with
  | none => pure (false, out)
  | some r =>
    match r.dimensions with
    | [batchSize, embeddingDim] =>
      let expectedBytes := u64 (u64 (sizeT batchSize * sizeT embeddingDim) * 4)
      if 0 ≤ batchSize ∧ r.embeddingsData.length = expectedBytes then
        (fun rows => (true, rows)) <$>
          copyRows r.embeddingsData batchSize embeddingDim (resizeRows out batchSize.toNat)
      else pure (false, out)
    | _ => pure (false, out)

/-! ## The pieces -/

theorem length_floatsOf : ∀ l : List UInt8, (floatsOf l).length = l.length / 4
  | _ :: _ :: _ :: _ :: rest => by
    simp only [floatsOf, List.length_cons, length_floatsOf rest]
    omega
  | [] => rfl
  | [_] => by simp [floatsOf]
  | [_, _] => by simp [floatsOf]
  | [_, _, _] => by simp [floatsOf]

theorem length_embeddingRow {data : List UInt8} {dim i : Nat}
    (h : (i + 1) * dim ≤ (floatsOf data).length) : (embeddingRow data dim i).length = dim := by
  simp only [embeddingRow, List.length_take, List.length_drop, Nat.succ_mul] at h ⊢
  omega

theorem length_resizeRows (rows : List (List FloatBits)) (n : Nat) :
    (resizeRows rows n).length = n := by
  simp only [resizeRows, List.length_append, List.length_take, List.length_replicate]
  omega

theorem sizeT_of_nonneg {x : Int} (h0 : 0 ≤ x) (h : x < 2 ^ 64) : sizeT x = x.toNat := by
  rw [sizeT, Int.emod_eq_of_lt h0 h]

/-- With a size that does not throw, the copy loop over rows `0 .. k` fills each with its
    slice of the data. -/
theorem foldlM_copyRow {data : List UInt8} {dim : Int} (hd : 0 ≤ dim)
    (rows : List (List FloatBits)) :
    ∀ k, k ≤ rows.length → (List.range k).foldlM (copyRow data dim) rows =
      .ok ((List.range k).map (embeddingRow data dim.toNat) ++ rows.drop k)
  | 0, _ => rfl
  | k + 1, hk => by
    have hlen : ((List.range k).map (embeddingRow data dim.toNat)).length = k := by simp
    rw [List.range_succ, List.foldlM_append, foldlM_copyRow hd rows k (by omega)]
    simp only [bind, Except.bind, List.foldlM_cons, List.foldlM_nil, copyRow, if_neg (Int.not_lt.2 hd)]
    rw [List.set_append_right _ _ (Nat.le_of_eq hlen), hlen, Nat.sub_self,
      List.drop_eq_getElem_cons (by omega), List.set_cons_zero, List.map_append]
    simp [pure, Except.pure]

/-- A negative `embedding_dim` throws at the first row. -/
theorem foldlM_copyRow_throws {data : List UInt8} {dim : Int} (hd : dim < 0)
    (rows : List (List FloatBits)) (k : Nat) :
    (List.range (k + 1)).foldlM (copyRow data dim) rows = .error "vector::_M_default_append" := by
  rw [List.range_succ_eq_map, List.foldlM_cons]
  simp only [copyRow, if_pos hd]
  rfl

/-- The copy loop leaves `batch` rows, each filled from its slice; it throws for a negative
    `embedding_dim` unless there is no row. -/
theorem copyRows_spec {data : List UInt8} {batch dim : Int} {rows rows' : List (List FloatBits)}
    (h : copyRows data batch dim rows = .ok rows') (hlen : rows.length = batch.toNat) :
    (0 < batch → 0 ≤ dim) ∧ rows' = (List.range batch.toNat).map (embeddingRow data dim.toNat) := by
  unfold copyRows at h
  split_ifs at h with hb
  · by_cases hd : dim < 0
    · obtain ⟨k, hk⟩ : ∃ k, batch.toNat = k + 1 := ⟨batch.toNat - 1, by omega⟩
      rw [hk, foldlM_copyRow_throws hd] at h
      cases h
    · rw [foldlM_copyRow (Int.not_lt.1 hd) _ _ (Nat.le_of_eq hlen.symm),
        List.drop_of_length_le (Nat.le_of_eq hlen), List.append_nil] at h
      cases h
      exact ⟨fun _ => Int.not_lt.1 hd, rfl⟩
  · cases h
    have h0 : batch.toNat = 0 := by omega
    rw [h0] at hlen ⊢
    exact ⟨fun h => absurd h hb, List.eq_nil_of_length_eq_zero hlen⟩

/-- Everything a call can do: return `false` with `out_embeddings` untouched, or pass the
    checks and run the copy loop. -/
theorem fetchEmbeddingsZmq_cases {resp : Option NodeEmbeddingResponse}
    {out rows : List (List FloatBits)} {ok : Bool}
    (h : fetchEmbeddingsZmq resp out = .ok (ok, rows)) :
    (ok = false ∧ rows = out) ∨
      ∃ r batch dim, resp = some r ∧ r.dimensions = [batch, dim] ∧ ok = true ∧ 0 ≤ batch ∧
        r.embeddingsData.length = u64 (u64 (sizeT batch * sizeT dim) * 4) ∧
        copyRows r.embeddingsData batch dim (resizeRows out batch.toNat) = .ok rows := by
  cases resp with
  | none => cases h; exact .inl ⟨rfl, rfl⟩
  | some r =>
    simp only [fetchEmbeddingsZmq] at h
    split at h
    next batch dim hdims =>
      split_ifs at h with hchk
      · cases hc : copyRows r.embeddingsData batch dim (resizeRows out batch.toNat) with
        | error e => rw [hc] at h; cases h
        | ok rows' =>
          rw [hc] at h
          cases h
          exact .inr ⟨r, batch, dim, rfl, hdims, rfl, hchk.1, hchk.2, hc⟩
      · cases h; exact .inl ⟨rfl, rfl⟩
    next => cases h; exact .inl ⟨rfl, rfl⟩

/-- The size check in `size_t` is exact for `int32` dimensions, once a negative `dim` has been
    ruled out for a non-empty batch. -/
theorem expectedBytes_eq {b d : Int} (h0 : 0 ≤ b) (hb : b < 2 ^ 31) (hd : -2 ^ 31 ≤ d ∧ d < 2 ^ 31)
    (hpos : 0 < b → 0 ≤ d) : u64 (u64 (sizeT b * sizeT d) * 4) = 4 * (b.toNat * d.toNat) := by
  rcases h0.eq_or_lt with rfl | hb0
  · simp [sizeT, u64]
  · have hd0 := hpos hb0
    have hm : b.toNat * d.toNat < 2 ^ 31 * 2 ^ 31 := Nat.mul_lt_mul'' (by omega) (by omega)
    rw [sizeT_of_nonneg h0 (by omega), sizeT_of_nonneg hd0 (by omega), u64, u64,
      Nat.mod_eq_of_lt (by omega), Nat.mod_eq_of_lt (by omega), Nat.mul_comm]

/-- (PROVED) For every response and every `out_embeddings`: a call that returns `false`
    leaves `out_embeddings` as it was, and a call that returns `true` had exactly two
    dimensions `batch ≥ 0` and `dim`, and `4 · batch · dim` bytes as an exact integer, with
    `dim ≥ 0` when `batch > 0`. It leaves `batch` rows, row `i` the floats
    `[i dim, (i + 1) dim)` of the data, each of `dim` floats. -/
theorem fetchEmbeddingsZmq_spec (resp : Option NodeEmbeddingResponse)
    (out : List (List FloatBits)) :
    (∀ rows, fetchEmbeddingsZmq resp out = .ok (false, rows) → rows = out) ∧
      ∀ rows, fetchEmbeddingsZmq resp out = .ok (true, rows) →
        ∃ r batch dim, resp = some r ∧ r.dimensions = [batch, dim] ∧ 0 ≤ batch ∧
          (r.embeddingsData.length : Int) = 4 * batch * dim ∧ (0 < batch → 0 ≤ dim) ∧
          rows = (List.range batch.toNat).map (embeddingRow r.embeddingsData dim.toNat) ∧
          ∀ row ∈ rows, row.length = dim.toNat := by
  refine ⟨fun rows h => ?_, fun rows h => ?_⟩
  · rcases fetchEmbeddingsZmq_cases h with ⟨-, rfl⟩ | ⟨r, batch, dim, -, -, hok, -⟩
    · rfl
    · cases hok
  · rcases fetchEmbeddingsZmq_cases h with ⟨hok, -⟩ | ⟨r, batch, dim, rfl, hdims, -, h0, hlen, hcopy⟩
    · cases hok
    obtain ⟨hpos, rfl⟩ := copyRows_spec hcopy (length_resizeRows _ _)
    have hb := r.dimensions_int32 batch (by simp [hdims])
    have hd := r.dimensions_int32 dim (by simp [hdims])
    rw [expectedBytes_eq h0 hb.2 hd hpos] at hlen
    refine ⟨r, batch, dim, rfl, hdims, h0, ?_, hpos, rfl, ?_⟩
    · rw [hlen]
      rcases h0.eq_or_lt with rfl | hb0
      · simp
      · push_cast [Int.toNat_of_nonneg h0, Int.toNat_of_nonneg (hpos hb0)]
        exact (Int.mul_assoc 4 batch dim).symm
    · simp only [List.mem_map, List.mem_range]
      rintro _ ⟨i, hi, rfl⟩
      apply length_embeddingRow
      rw [length_floatsOf, hlen, Nat.mul_div_cancel_left _ (by decide)]
      exact Nat.mul_le_mul_right _ hi

/-- Two rows of one float each, over one stale row. -/
def twoRowResponse : NodeEmbeddingResponse := ⟨[2, 1], [1, 2, 3, 4, 5, 6, 7, 8], by decide⟩

theorem twoRowResponse_decoded :
    fetchEmbeddingsZmq (some twoRowResponse) [[[9, 9, 9, 9]]] =
        .ok (true, [[[1, 2, 3, 4]], [[5, 6, 7, 8]]]) ∧
      ∃ r batch dim, some twoRowResponse = some r ∧ r.dimensions = [batch, dim] ∧ 0 ≤ batch ∧
        (r.embeddingsData.length : Int) = 4 * batch * dim ∧ (0 < batch → 0 ≤ dim) ∧
        ([[[1, 2, 3, 4]], [[5, 6, 7, 8]]] : List (List FloatBits)) =
          (List.range batch.toNat).map (embeddingRow r.embeddingsData dim.toNat) ∧
        ∀ row ∈ ([[[1, 2, 3, 4]], [[5, 6, 7, 8]]] : List (List FloatBits)), row.length = dim.toNat :=
  have e : fetchEmbeddingsZmq (some twoRowResponse) [[[9, 9, 9, 9]]] =
      .ok (true, [[[1, 2, 3, 4]], [[5, 6, 7, 8]]]) := rfl
  ⟨e, (fetchEmbeddingsZmq_spec _ _).2 _ e⟩

/-! ## `preprocess_fetched_embeddings` -/

/-- The metrics the sources name (`diskann::Metric` is declared outside them). -/
inductive Metric where
  | l2
  | innerProduct
  | cosine
deriving DecidableEq, Repr

/-- The single-precision operations `preprocess_fetched_embeddings` performs. They are
    parameters, so that every statement holds for IEEE rounding in particular, and the model
    keeps the code's order of operations. -/
structure FloatOps (F : Type) where
  zero : F
  one : F
  add : F → F → F
  sub : F → F → F
  mul : F → F → F
  div : F → F → F
  sqrt : F → F
  le : F → F → Bool
  lt : F → F → Bool

/-- `std::vector::resize(n, x)`. -/
def resize {α : Type} (l : List α) (n : Nat) (x : α) : List α :=
  l.take n ++ List.replicate (n - l.length) x

variable {F : Type} (ops : FloatOps F)

/-- `norm_sq += emb[i] * emb[i]` from `0`, in the loop's order. -/
def sumSquares (xs : List F) : F :=
  xs.foldl (fun acc x => ops.add acc (ops.mul x x)) ops.zero

/-- The coordinate the MIPS-to-L2 reduction appends: `res = 1 - norm_sq / (max_base_norm *
    max_base_norm)`, then `0` when `res <= 0` and `std::sqrt(res)` otherwise. -/
def mipsCoordinate (maxBaseNorm normSq : F) : F :=
  let res := ops.sub ops.one (ops.div normSq (ops.mul maxBaseNorm maxBaseNorm))
  if ops.le res ops.zero then ops.zero else ops.sqrt res

/-- The body of the loop of `preprocess_fetched_embeddings` on one embedding. `data_dim - 1`
    is computed in `uint32_t`. -/
def preprocessEmbedding (metric : Metric) (maxBaseNorm : F) (dataDim : UInt32) (emb : List F) :
    List F :=
  let d := (dataDim - 1).toNat
  let emb := if emb.length < d then resize emb d ops.zero else emb
  match metric with
  | .innerProduct =>
    let normSq := sumSquares ops (emb.take d)
    resize ((emb.take d).map (ops.div · maxBaseNorm) ++ emb.drop d) dataDim.toNat
      (mipsCoordinate ops maxBaseNorm normSq)
  | .cosine =>
    let norm := ops.sqrt (sumSquares ops emb)
    if ops.lt ops.zero norm then emb.map (ops.div · norm) else emb
  | .l2 => emb

/-- `preprocess_fetched_embeddings`: every embedding in place. -/
def preprocessFetchedEmbeddings (embeddings : List (List F)) (metric : Metric) (maxBaseNorm : F)
    (dataDim : UInt32) : List (List F) :=
  embeddings.map (preprocessEmbedding ops metric maxBaseNorm dataDim)

theorem length_resize {α : Type} (l : List α) (n : Nat) (x : α) : (resize l n x).length = n := by
  simp only [resize, List.length_append, List.length_take, List.length_replicate]
  omega

theorem resize_append_of_length {α : Type} {l r : List α} {n : Nat} (x : α) (hl : l.length = n) :
    resize (l ++ r) (n + 1) x = l ++ [r.headD x] := by
  cases r with
  | nil => simp [resize, hl, List.take_of_length_le]
  | cons y r =>
    simp only [resize, List.length_append, List.length_cons, List.headD_cons]
    rw [List.take_append_eq_append_take, List.take_of_length_le (by omega), hl,
      Nat.add_sub_cancel_left, Nat.sub_eq_zero_of_le (by omega)]
    simp

/-- `data_dim - 1` in `uint32_t`. -/
theorem toNat_sub_one (dataDim : UInt32) :
    (dataDim - 1).toNat = if dataDim = 0 then 2 ^ 32 - 1 else dataDim.toNat - 1 := by
  split
  · subst_vars; rfl
  · have h : dataDim.toNat ≠ 0 := fun h => ‹¬dataDim = 0› (UInt32.toNat.inj h)
    rw [UInt32.toNat_sub_of_le _ _ (show (1 : UInt32).toNat ≤ dataDim.toNat by simp; omega)]
    rfl

/-- The padding leaves the first `d` coordinates as `resize` to `d` does. -/
theorem take_pad (emb : List F) (d : Nat) :
    (if emb.length < d then resize emb d ops.zero else emb).take d = resize emb d ops.zero := by
  split
  · exact List.take_of_length_le (Nat.le_of_eq (length_resize _ _ _))
  · simp [resize, Nat.sub_eq_zero_of_le (Nat.le_of_not_lt ‹_›)]


/-- Under the inner product every embedding leaves with `data_dim` coordinates: its first
    `data_dim - 1`, zero-padded, divided by `max_base_norm`, then the MIPS coordinate when the
    service returned fewer than `data_dim` floats. A longer embedding keeps its own coordinate
    `data_dim - 1`, undivided, and loses the rest. At `data_dim = 0` it is emptied. -/
theorem preprocessEmbedding_innerProduct (maxBaseNorm : F) (dataDim : UInt32) (emb : List F) :
    preprocessEmbedding ops .innerProduct maxBaseNorm dataDim emb =
      if dataDim = 0 then [] else
        (resize emb (dataDim.toNat - 1) ops.zero).map (ops.div · maxBaseNorm) ++
          [if emb.length < dataDim.toNat then
            mipsCoordinate ops maxBaseNorm (sumSquares ops (resize emb (dataDim.toNat - 1) ops.zero))
          else emb.getD (dataDim.toNat - 1) ops.zero] := by
  simp only [preprocessEmbedding, take_pad]
  rw [toNat_sub_one]
  split
  · subst_vars
    exact List.eq_nil_of_length_eq_zero (length_resize _ _ _)
  · have hpos : dataDim.toNat ≠ 0 := fun h => ‹¬dataDim = 0› (UInt32.toNat.inj h)
    obtain ⟨d, hd⟩ : ∃ d, dataDim.toNat = d + 1 := ⟨dataDim.toNat - 1, by omega⟩
    simp only [hd, Nat.add_sub_cancel]
    rw [resize_append_of_length _ (by rw [List.length_map, length_resize])]
    congr 3
    split
    · rw [if_pos (by omega), List.drop_of_length_le (by rw [length_resize])]
      rfl
    · rw [List.headD_eq_head?_getD, List.head?_drop, List.getD_eq_getElem?_getD]
      split
      · rw [List.getElem?_eq_none (by omega)]
        rfl
      · rw [List.getElem?_eq_getElem (by omega)]
        rfl


theorem length_pad (emb : List F) (d : Nat) :
    (if emb.length < d then resize emb d ops.zero else emb).length = max emb.length d := by
  split
  · rw [length_resize]
    omega
  · omega

/-- Under the inner product an embedding leaves with `data_dim` coordinates. Under the
    other metrics it keeps its length, padded with zeros to `data_dim - 1` computed in
    `uint32_t`: at `data_dim = 0`, to `2^32 - 1` floats. -/
theorem length_preprocessEmbedding (metric : Metric) (maxBaseNorm : F) (dataDim : UInt32)
    (emb : List F) :
    (preprocessEmbedding ops metric maxBaseNorm dataDim emb).length =
      if metric = .innerProduct then dataDim.toNat
      else max emb.length (if dataDim = 0 then 2 ^ 32 - 1 else dataDim.toNat - 1) := by
  rw [← toNat_sub_one]
  cases metric with
  | innerProduct => exact length_resize _ _ _
  | cosine =>
    have h (c : Bool) (f : F → F) (e : List F) : (if c then e.map f else e).length = e.length := by
      cases c <;> simp
    exact (h _ _ _).trans (length_pad ops _ _)
  | l2 => exact length_pad ops _ _

end DiskAnn
