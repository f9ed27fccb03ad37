import Mathlib.Algebra.Order.Ring.Nat
import Mathlib.Data.List.Basic

/-
  DiskANN disk layout: sector arithmetic and the read requests one hop of
  `cached_beam_search` issues into the query's sector scratch (`pq_flash_index.cpp`,
  lines 117-137 and 2216-2277).

  Model. The sector scratch is addressed by byte offset from `sector_scratch`. Frontier node
  `i` gets the buffer `num_sectors_per_node * i * SECTOR_LEN` (`frontier_nhoods[i].second`,
  line 2221, where its adjacency is later parsed, line 2503). In the default layout its
  request reads `num_sectors_per_node` sectors from `get_node_sector(id)` into that buffer
  (offset and length are `uint64_t` products, so they wrap mod `2^64`).
  In partition mode the request instead reads the node's partition sector
  `(id2partition[id] + 1) * SECTOR_LEN` of the graph file into `i * SECTOR_LEN` (line 2267).
  `MAX_N_SECTOR_READS` (from `defaults`, not among the sources) is a parameter.

  Proved: `frontierReadReq_within_iff` (slot `i` lies inside the first
  `MAX_N_SECTOR_READS` sectors exactly when `num_sectors_per_node * (i + 1)` does not exceed
  it, the length not wrapping). The beam-width guard of `cached_beam_search` allows `ceil(max_node_len / SECTOR_LEN) *
  MAX_N_SECTOR_READS` frontier slots, so with multi-sector nodes a full frontier reads past
  the scratch (`frontierReadReqs_past_scratch`). `partitionReadBuf_eq_frontierNhoodBuf_iff`:
  the read and parse buffers of partition slot `i` agree exactly when nodes take one sector
  or `i = 0`; with two-sector nodes, slot 1 parses the partition sector read for slot 2
  (`partition_slot_one_parses_slot_two`).
-/

namespace DiskAnn

/-- `defaults::SECTOR_LEN`: a sector is a fixed 4096-byte block. -/
def sectorLen : Nat := 4096

/-- `DIV_ROUND_UP(x, y)`. -/
def divRoundUp (x y : Nat) : Nat := (x + y - 1) / y

/-- `uint32_t` arithmetic. -/
def u32 (n : Nat) : Nat := n % 2 ^ 32

/-- `uint64_t` (and `size_t`) arithmetic. -/
def u64 (n : Nat) : Nat := n % 2 ^ 64

/-- `num_sectors_per_node` (line 1849) and `num_sectors` in `read_nodes` (line 167). -/
def numSectorsPerNode (nnodesPerSector maxNodeLen : Nat) : Nat :=
  if 0 < nnodesPerSector then 1 else divRoundUp maxNodeLen sectorLen

/-- `get_node_sector`. -/
def getNodeSector (nnodesPerSector maxNodeLen nodeId : Nat) : Nat :=
  1 + if 0 < nnodesPerSector then nodeId / nnodesPerSector
      else nodeId * divRoundUp maxNodeLen sectorLen

/-- `AlignedRead`: file offset, length, and the buffer as an offset into the scratch. -/
structure AlignedRead where
  offset : Nat
  len : Nat
  buf : Nat
deriving DecidableEq, Repr

/-- `frontier_nhoods[i].second`, as an offset into `sector_scratch`. -/
def frontierNhoodBuf (nspn i : Nat) : Nat := nspn * i * sectorLen

/-- The buffer partition slot `i` is read into (`sector_scratch + sector_scratch_idx * SECTOR_LEN`). -/
def partitionReadBuf (i : Nat) : Nat := i * sectorLen

/-- The default-layout read request of frontier slot `i` for node `id` (line 2228); offset and
    length are `uint64_t` products. -/
def frontierReadReq (nnodesPerSector maxNodeLen i id : Nat) : AlignedRead :=
  let nspn := numSectorsPerNode nnodesPerSector maxNodeLen
  ⟨u64 (getNodeSector nnodesPerSector maxNodeLen id * sectorLen), u64 (nspn * sectorLen),
    frontierNhoodBuf nspn i⟩

/-- The partition read request of frontier slot `i` for node `id` (lines 2247-2275). -/
def partitionReadReq (id2partition : Nat → Nat) (i id : Nat) : AlignedRead :=
  ⟨(id2partition id + 1) * sectorLen, sectorLen, partitionReadBuf i⟩

/-- The requests of one hop's frontier, in frontier order. -/
def frontierReadReqs (nnodesPerSector maxNodeLen : Nat) (frontier : List Nat) : List AlignedRead :=
  (List.range frontier.length).zipWith (frontierReadReq nnodesPerSector maxNodeLen) frontier

/-- The partition-mode requests of one hop's frontier (`graph_read_reqs`). -/
def partitionReadReqs (id2partition : Nat → Nat) (frontier : List Nat) : List AlignedRead :=
  (List.range frontier.length).zipWith (partitionReadReq id2partition) frontier

/-- A request lies inside the first `maxNSectorReads` sectors of the scratch. -/
def WithinScratch (maxNSectorReads : Nat) (r : AlignedRead) : Prop :=
  r.buf + r.len ≤ maxNSectorReads * sectorLen

instance (m : Nat) : DecidablePred (WithinScratch m) :=
  fun _ => inferInstanceAs (Decidable (_ ≤ _))

/-- The scratch sector left at buffer `buf` by a batch of reads: the file offset read there. -/
def sectorReadInto (reqs : List AlignedRead) (buf : Nat) : Option Nat :=
  (reqs.find? fun r => r.buf = buf).map (·.offset)

/-- (PROVED) Frontier slot `i` stays inside `MAX_N_SECTOR_READS` sectors exactly when its
    `num_sectors_per_node * (i + 1)` sectors do (the read length not wrapping). -/
theorem frontierReadReq_within_iff (m nnps mnl i id : Nat)
    (hlen : numSectorsPerNode nnps mnl * sectorLen < 2 ^ 64) :
    WithinScratch m (frontierReadReq nnps mnl i id) ↔
      numSectorsPerNode nnps mnl * (i + 1) ≤ m := by
  simp only [WithinScratch, frontierReadReq, frontierNhoodBuf, u64, Nat.mod_eq_of_lt hlen]
  simp only [sectorLen]
  generalize numSectorsPerNode nnps mnl = n
  rw [show n * i * 4096 + n * 4096 = n * (i + 1) * 4096 by
    rw [Nat.mul_add n i 1, Nat.mul_one, Nat.add_mul]]
  exact ⟨fun h => Nat.le_of_mul_le_mul_right h (by decide), Nat.mul_le_mul_right 4096⟩

/-- The guard's largest beam width with multi-sector nodes: a frontier of that many nodes has
    a read request past the first `MAX_N_SECTOR_READS` sectors. -/
theorem frontierReadReqs_past_scratch (m mnl : Nat) (frontier : List Nat) (hm : 0 < m)
    (hmnl : sectorLen < mnl) (hlen : frontier.length = divRoundUp mnl sectorLen * m) :
    ∃ r ∈ frontierReadReqs 0 mnl frontier, ¬ WithinScratch m r := by
  have hn : 2 ≤ numSectorsPerNode 0 mnl := by
    simp only [numSectorsPerNode, Nat.lt_irrefl, if_false, divRoundUp, sectorLen] at hmnl ⊢
    exact (Nat.le_div_iff_mul_le (by decide)).2 (by omega)
  have hn' : numSectorsPerNode 0 mnl = divRoundUp mnl sectorLen := by simp [numSectorsPerNode]
  have hpos : 0 < frontier.length := by
    rw [hlen, ← hn']; exact Nat.mul_pos (by omega) hm
  have hi : frontier.length - 1 < (frontierReadReqs 0 mnl frontier).length := by
    simp [frontierReadReqs]; omega
  refine ⟨_, List.getElem_mem hi, ?_⟩
  -- the last slot's buffer alone starts past the scratch, whatever its (`uint64_t`) length
  simp only [frontierReadReqs, List.getElem_zipWith, List.getElem_range, WithinScratch,
    frontierReadReq, frontierNhoodBuf, hlen, ← hn']
  generalize numSectorsPerNode 0 mnl = n at hn
  intro h
  have hbuf : n * (n * m - 1) ≤ m :=
    Nat.le_of_mul_le_mul_right (Nat.le_of_add_right_le h) (by decide : 0 < sectorLen)
  have h2m : 2 * m ≤ n * m := Nat.mul_le_mul_right m hn
  have : 2 * (n * m - 1) ≤ n * (n * m - 1) := Nat.mul_le_mul_right _ hn
  omega

/-- At `MAX_N_SECTOR_READS = 128` and two-sector nodes the guard accepts 256 frontier slots. -/
theorem frontierReadReqs_past_scratch_at_8192 :
    0 < 128 ∧ sectorLen < 8192 ∧ (List.range 256).length = divRoundUp 8192 sectorLen * 128 ∧
      ∃ r ∈ frontierReadReqs 0 8192 (List.range 256), ¬ WithinScratch 128 r :=
  ⟨by decide, by decide, by simp [divRoundUp, sectorLen],
    frontierReadReqs_past_scratch 128 8192 (List.range 256) (by decide) (by decide)
      (by simp [divRoundUp, sectorLen])⟩

/-- (PROVED) The partition read buffer of slot `i` is its parse buffer exactly when nodes
    take one sector or `i = 0`. -/
theorem partitionReadBuf_eq_frontierNhoodBuf_iff (nspn i : Nat) :
    partitionReadBuf i = frontierNhoodBuf nspn i ↔ nspn = 1 ∨ i = 0 := by
  simp only [partitionReadBuf, frontierNhoodBuf, sectorLen]
  constructor
  · intro h
    rcases Nat.eq_zero_or_pos i with hi | hi
    · exact .inr hi
    · have h1 : 1 * i = nspn * i := by
        simpa using Nat.eq_of_mul_eq_mul_right (by decide : 0 < 4096) h
      exact .inl (Nat.eq_of_mul_eq_mul_right hi h1).symm
  · rintro (rfl | rfl) <;> simp

/-- With two-sector nodes (`max_node_len` in `(4096, 8192]`, the partition layout keeps
    `_nnodes_per_sector = 0`), frontier slot 1's parse buffer holds the partition sector read
    for slot 2. -/
theorem partition_slot_one_parses_slot_two (id2partition : Nat → Nat) (a b c : Nat) :
    sectorReadInto (partitionReadReqs id2partition [a, b, c])
        (frontierNhoodBuf (numSectorsPerNode 0 8192) 1) =
      some ((id2partition c + 1) * sectorLen) := by
  simp [sectorReadInto, partitionReadReqs, partitionReadReq, partitionReadBuf, frontierNhoodBuf,
    numSectorsPerNode, divRoundUp, sectorLen, List.range_succ]

end DiskAnn
