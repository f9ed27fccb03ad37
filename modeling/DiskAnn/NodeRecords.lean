import Mathlib.Algebra.Order.Ring.Nat
import DiskAnn.Layout

/-
  DiskANN node records in the default disk layout: where `read_nodes` (lines 166-223) and
  `cached_beam_search` (lines 2216-2229) find a node's record in the sectors they read
  (`get_node_sector`, `offset_to_node`, lines 117-127 of `pq_flash_index.cpp`).

  Model. `_nnodes_per_sector` and `_max_node_len` form a `NodeLayout`: either every node takes
  `ceil(_max_node_len / SECTOR_LEN)` sectors of its own (`_nnodes_per_sector = 0`), or
  `_nnodes_per_sector` records of `_max_node_len` bytes share one sector. Both callers read
  `num_sectors * SECTOR_LEN` bytes from `get_node_sector(id) * SECTOR_LEN`, products taken
  in `uint64_t`, and find the record `offset_to_node` bytes into them: the record is the
  `_max_node_len` file bytes from `nodeRecordStart`. A request returns the file bytes
  `[offset, offset + len)` (the reader is not among the sources).

  Proved: `read_nodes` and `cached_beam_search` issue the same request for a node
  (`readNodesReq_eq_frontierReadReq`). In exact arithmetic the records follow id order, each
  ending before the next begins (`NodeLayout.recordStart_add_le`). For nodes whose sectors
  end at or below `2^64` bytes nothing wraps, so a node's record lies inside the bytes read
  for it, after the metadata sector, and apart from every other node's record
  (`nodeRecord_in_own_sectors`). Every id below `2^32` is such a node when nodes are packed,
  or when `_max_node_len ≤ 2^32 - SECTOR_LEN` (`readFits_of_lt`). Past that the offset can
  wrap: with `_max_node_len = 2^38 + SECTOR_LEN`, node `2^26 - 1` is read from offset 0,
  the metadata sector, over node 0's record (`nodeRecord_wraps_into_metadata`). Without
  wrap, what `read_nodes` parses as a node's record is the file's bytes of that record
  (`NodeLayout.nodeRecordBytes_eq`), so a file changed only inside one node's record gives
  every other node the same record (`NodeLayout.nodeRecordBytes_frame`).
-/

namespace DiskAnn

/-! ## The records as the code finds them -/

/-- `offset_to_node`: where node `nodeId`'s record starts in the sectors read for it. -/
def offsetToNode (nnodesPerSector maxNodeLen nodeId : Nat) : Nat :=
  if nnodesPerSector = 0 then 0 else u64 (nodeId % nnodesPerSector * maxNodeLen)

/-- The request `read_nodes` issues for entry `i`, node `nodeId`, in the default layout
    (lines 187-191): `num_sectors` sectors from `get_node_sector(node_id)`, into
    `buf + i * num_sectors * SECTOR_LEN`. -/
def readNodesReq (nnodesPerSector maxNodeLen i nodeId : Nat) : AlignedRead :=
  let numSectors := numSectorsPerNode nnodesPerSector maxNodeLen
  ⟨u64 (getNodeSector nnodesPerSector maxNodeLen nodeId * sectorLen),
    u64 (numSectors * sectorLen), i * numSectors * sectorLen⟩

/-- The file offset of node `nodeId`'s record: `offset_to_node` bytes into the sectors read
    from `get_node_sector(node_id) * SECTOR_LEN`. The record is `_max_node_len` bytes long. -/
def nodeRecordStart (nnodesPerSector maxNodeLen nodeId : Nat) : Nat :=
  u64 (getNodeSector nnodesPerSector maxNodeLen nodeId * sectorLen) +
    offsetToNode nnodesPerSector maxNodeLen nodeId

/-- Request `r` reads the file bytes `[start, start + len)`. -/
def ReadCovers (r : AlignedRead) (start len : Nat) : Prop :=
  r.offset ≤ start ∧ start + len ≤ r.offset + r.len

/-- The records of nodes `a` and `b` share no byte. -/
def RecordsDisjoint (nnodesPerSector maxNodeLen a b : Nat) : Prop :=
  nodeRecordStart nnodesPerSector maxNodeLen a + maxNodeLen ≤
      nodeRecordStart nnodesPerSector maxNodeLen b ∨
    nodeRecordStart nnodesPerSector maxNodeLen b + maxNodeLen ≤
      nodeRecordStart nnodesPerSector maxNodeLen a

/-- Node `nodeId`'s sectors end at or below `2^64` bytes. -/
def ReadFits (nnodesPerSector maxNodeLen nodeId : Nat) : Prop :=
  (getNodeSector nnodesPerSector maxNodeLen nodeId + numSectorsPerNode nnodesPerSector maxNodeLen) *
    sectorLen ≤ 2 ^ 64

instance (r : AlignedRead) (start len : Nat) : Decidable (ReadCovers r start len) :=
  inferInstanceAs (Decidable (_ ∧ _))

instance (nnps mnl a b : Nat) : Decidable (RecordsDisjoint nnps mnl a b) :=
  inferInstanceAs (Decidable (_ ∨ _))

instance (nnps mnl nodeId : Nat) : Decidable (ReadFits nnps mnl nodeId) :=
  inferInstanceAs (Decidable (_ ≤ _))

/-- `_nnodes_per_sector` and `_max_node_len` as `load` is meant to leave them: multi-sector
    nodes (`0`), or `_nnodes_per_sector` whole records in one sector. -/
structure NodeLayout where
  nnodesPerSector : Nat
  maxNodeLen : Nat
  packed_fits : 0 < nnodesPerSector → nnodesPerSector * maxNodeLen ≤ sectorLen

/-! ## Sector arithmetic -/

section Arith

variable {nnps mnl nodeId : Nat}

@[simp] theorem offsetToNode_zero (mnl nodeId : Nat) : offsetToNode 0 mnl nodeId = 0 := rfl

theorem one_le_getNodeSector (nnps mnl nodeId : Nat) : 1 ≤ getNodeSector nnps mnl nodeId :=
  Nat.le_add_right 1 _

theorem le_divRoundUp_mul (x : Nat) : x ≤ divRoundUp x sectorLen * sectorLen := by
  unfold divRoundUp sectorLen; omega

/-- A packed record ends inside its node group: `(id % n + 1) * len ≤ n * len`. -/
theorem mod_mul_add_le (nodeId mnl : Nat) (hn : 0 < nnps) :
    nodeId % nnps * mnl + mnl ≤ nnps * mnl := by
  rw [← Nat.succ_mul]; exact Nat.mul_le_mul_right _ (Nat.mod_lt _ hn)

theorem offsetToNode_packed (hn : 0 < nnps) (hfit : nnps * mnl ≤ sectorLen) :
    offsetToNode nnps mnl nodeId = nodeId % nnps * mnl := by
  have := mod_mul_add_le nodeId mnl hn
  rw [offsetToNode, if_neg (Nat.pos_iff_ne_zero.1 hn), u64, Nat.mod_eq_of_lt]
  unfold sectorLen at hfit; omega

/-- Nodes that take no sector (unpacked, `_max_node_len = 0`) all sit at sector 1. -/
theorem getNodeSector_of_numSectorsPerNode_eq_zero (h : numSectorsPerNode nnps mnl = 0) :
    getNodeSector nnps mnl nodeId = 1 := by
  unfold numSectorsPerNode at h
  split_ifs at h with hn
  simp [getNodeSector, hn, h]

/-- Without wrap, the sectors of a node start at `get_node_sector(id) * SECTOR_LEN`. -/
theorem getNodeSector_mul_lt (h : ReadFits nnps mnl nodeId) :
    getNodeSector nnps mnl nodeId * sectorLen < 2 ^ 64 := by
  unfold ReadFits at h
  rcases Nat.eq_zero_or_pos (numSectorsPerNode nnps mnl) with h0 | h0
  · rw [getNodeSector_of_numSectorsPerNode_eq_zero h0]; decide
  · rw [Nat.add_mul] at h
    have : sectorLen ≤ numSectorsPerNode nnps mnl * sectorLen := Nat.le_mul_of_pos_left _ h0
    unfold sectorLen at *; omega

theorem numSectorsPerNode_mul_lt (h : ReadFits nnps mnl nodeId) :
    numSectorsPerNode nnps mnl * sectorLen < 2 ^ 64 := by
  unfold ReadFits at h
  have := one_le_getNodeSector nnps mnl nodeId
  rw [Nat.add_mul] at h
  unfold sectorLen at *; omega

end Arith

/-! ## The two callers' requests -/

/-- (PROVED) `read_nodes` and `cached_beam_search` build the same request for a node. -/
theorem readNodesReq_eq_frontierReadReq (nnps mnl i nodeId : Nat) :
    readNodesReq nnps mnl i nodeId = frontierReadReq nnps mnl i nodeId := by
  simp only [readNodesReq, frontierReadReq, frontierNhoodBuf, Nat.mul_comm i]

section Requests

variable {nnps mnl nodeId : Nat} (i : Nat) (h : ReadFits nnps mnl nodeId)
include h

theorem frontierReadReq_offset :
    (frontierReadReq nnps mnl i nodeId).offset = getNodeSector nnps mnl nodeId * sectorLen :=
  Nat.mod_eq_of_lt (getNodeSector_mul_lt h)

theorem frontierReadReq_len :
    (frontierReadReq nnps mnl i nodeId).len = numSectorsPerNode nnps mnl * sectorLen :=
  Nat.mod_eq_of_lt (numSectorsPerNode_mul_lt h)

theorem nodeRecordStart_eq :
    nodeRecordStart nnps mnl nodeId =
      getNodeSector nnps mnl nodeId * sectorLen + offsetToNode nnps mnl nodeId := by
  rw [nodeRecordStart, u64, Nat.mod_eq_of_lt (getNodeSector_mul_lt h)]

end Requests

/-! ## Records in exact arithmetic -/

namespace NodeLayout

variable (L : NodeLayout)

/-- A node's record lies inside the sectors read for it. -/
theorem offsetToNode_add_le (nodeId : Nat) :
    offsetToNode L.nnodesPerSector L.maxNodeLen nodeId + L.maxNodeLen ≤
      numSectorsPerNode L.nnodesPerSector L.maxNodeLen * sectorLen := by
  obtain ⟨n, mnl, hfit⟩ := L
  rcases Nat.eq_zero_or_pos n with rfl | hn
  · simpa [numSectorsPerNode] using le_divRoundUp_mul mnl
  · rw [offsetToNode_packed hn (hfit hn), numSectorsPerNode, if_pos hn, Nat.one_mul]
    exact (mod_mul_add_le nodeId mnl hn).trans (hfit hn)

/-- (PROVED) Records follow id order: each ends before the next one's starts. -/
theorem recordStart_add_le {a b : Nat} (hab : a < b) :
    getNodeSector L.nnodesPerSector L.maxNodeLen a * sectorLen +
        offsetToNode L.nnodesPerSector L.maxNodeLen a + L.maxNodeLen ≤
      getNodeSector L.nnodesPerSector L.maxNodeLen b * sectorLen +
        offsetToNode L.nnodesPerSector L.maxNodeLen b := by
  obtain ⟨n, mnl, hfit⟩ := L
  dsimp only
  rcases Nat.eq_zero_or_pos n with rfl | hn
  case inl =>
    -- multi-sector nodes: node `id` starts sector `1 + id * D`; `_max_node_len ≤ D * SECTOR_LEN`
    rw [offsetToNode_zero, offsetToNode_zero, Nat.add_zero, Nat.add_zero]
    simp only [getNodeSector, Nat.lt_irrefl, if_false]
    have hlen := le_divRoundUp_mul mnl
    generalize divRoundUp mnl sectorLen = d at hlen ⊢
    calc (1 + a * d) * sectorLen + mnl ≤ (1 + a * d) * sectorLen + d * sectorLen :=
          Nat.add_le_add_left hlen _
      _ = (1 + (a + 1) * d) * sectorLen := by rw [← Nat.add_mul, Nat.add_assoc, Nat.succ_mul]
      _ ≤ (1 + b * d) * sectorLen :=
          Nat.mul_le_mul_right _ (Nat.add_le_add_left (Nat.mul_le_mul_right _ hab) 1)
  case inr =>
    -- packed nodes: node `id` is slot `id % n` of sector `1 + id / n`
    simp only [getNodeSector, if_pos hn, offsetToNode_packed hn (hfit hn)]
    have hslot := mod_mul_add_le a mnl hn
    rw [Nat.add_assoc]
    rcases (Nat.div_le_div_right (c := n) hab.le).lt_or_eq with hq | hq
    · -- a later sector: `a`'s slot ends inside its own sector
      calc (1 + a / n) * sectorLen + (a % n * mnl + mnl)
            ≤ (1 + a / n) * sectorLen + sectorLen :=
            Nat.add_le_add_left (hslot.trans (hfit hn)) _
        _ = (1 + (a / n + 1)) * sectorLen := by rw [← Nat.succ_mul, Nat.add_succ]
        _ ≤ (1 + b / n) * sectorLen := Nat.mul_le_mul_right _ (Nat.add_le_add_left hq 1)
        _ ≤ (1 + b / n) * sectorLen + b % n * mnl := Nat.le_add_right _ _
    · -- the same sector: a later slot
      have hr : a % n < b % n := by
        have := Nat.div_add_mod a n; have := Nat.div_add_mod b n; rw [hq] at *; omega
      rw [hq, ← Nat.succ_mul]
      exact Nat.add_le_add_left (Nat.mul_le_mul_right _ hr) _

/-- Without wrap, the records of two nodes share no byte. -/
theorem recordsDisjoint_of_ne {a b : Nat} (hab : a ≠ b)
    (ha : ReadFits L.nnodesPerSector L.maxNodeLen a)
    (hb : ReadFits L.nnodesPerSector L.maxNodeLen b) :
    RecordsDisjoint L.nnodesPerSector L.maxNodeLen a b := by
  rw [RecordsDisjoint, nodeRecordStart_eq ha, nodeRecordStart_eq hb]
  rcases Nat.lt_or_gt_of_ne hab with h | h
  · exact .inl (L.recordStart_add_le h)
  · exact .inr (L.recordStart_add_le h)

end NodeLayout

/-! ## When nothing wraps -/

/-- (PROVED) Every id below `2^32` has its sectors below `2^64` bytes when nodes are packed,
    or when a record takes at most `2^32 - SECTOR_LEN` bytes. -/
theorem readFits_of_lt {nnps mnl nodeId : Nat} (hm : 0 < nnps ∨ mnl ≤ 2 ^ 32 - sectorLen)
    (hid : nodeId < 2 ^ 32) : ReadFits nnps mnl nodeId := by
  unfold ReadFits getNodeSector numSectorsPerNode
  split_ifs with hn
  · have := Nat.div_le_self nodeId nnps
    unfold sectorLen; omega
  · have hd : divRoundUp mnl sectorLen ≤ 2 ^ 20 - 1 := by
      unfold divRoundUp sectorLen at *; omega
    have : (nodeId + 1) * divRoundUp mnl sectorLen ≤ 2 ^ 32 * (2 ^ 20 - 1) :=
      Nat.mul_le_mul hid hd
    rw [Nat.succ_mul] at this
    generalize divRoundUp mnl sectorLen = d at *
    unfold sectorLen; omega

/-- Unpacked records of `2^32 - SECTOR_LEN` bytes: the largest 32-bit id's sectors still fit. -/
theorem largestId_read_fits :
    (0 < 0 ∨ 2 ^ 32 - sectorLen ≤ 2 ^ 32 - sectorLen) ∧ 2 ^ 32 - 1 < 2 ^ 32 ∧
      ReadFits 0 (2 ^ 32 - sectorLen) (2 ^ 32 - 1) :=
  ⟨by decide, by decide, readFits_of_lt (by decide) (by decide)⟩

/-! ## Records as read -/

/-- Node `nodeId`'s record lies inside the bytes both callers read for it, after the
    metadata sector and apart from the record of every other node, when their sectors end
    at or below `2^64` bytes. -/
theorem nodeRecord_in_own_sectors (L : NodeLayout) (i a b : Nat) (hab : a ≠ b)
    (ha : ReadFits L.nnodesPerSector L.maxNodeLen a)
    (hb : ReadFits L.nnodesPerSector L.maxNodeLen b) :
    readNodesReq L.nnodesPerSector L.maxNodeLen i a =
        frontierReadReq L.nnodesPerSector L.maxNodeLen i a ∧
      ReadCovers (frontierReadReq L.nnodesPerSector L.maxNodeLen i a)
        (nodeRecordStart L.nnodesPerSector L.maxNodeLen a) L.maxNodeLen ∧
      sectorLen ≤ nodeRecordStart L.nnodesPerSector L.maxNodeLen a ∧
      RecordsDisjoint L.nnodesPerSector L.maxNodeLen a b := by
  refine ⟨readNodesReq_eq_frontierReadReq _ _ i a, ?covers, ?start, ?disjoint⟩
  case covers =>
    rw [ReadCovers, nodeRecordStart_eq ha, frontierReadReq_offset i ha, frontierReadReq_len i ha]
    have := L.offsetToNode_add_le a
    omega
  case start =>
    rw [nodeRecordStart_eq ha]
    exact (Nat.le_mul_of_pos_left _ (one_le_getNodeSector _ _ a)).trans (Nat.le_add_right _ _)
  case disjoint => exact L.recordsDisjoint_of_ne hab ha hb

/-- Four 1024-byte records to a sector: nodes 1 and 2 share sector 1. -/
theorem packedNodes_in_own_sectors :
    (1 : Nat) ≠ 2 ∧ ReadFits 4 1024 1 ∧ ReadFits 4 1024 2 ∧
      (readNodesReq 4 1024 0 1 = frontierReadReq 4 1024 0 1 ∧
        ReadCovers (frontierReadReq 4 1024 0 1) (nodeRecordStart 4 1024 1) 1024 ∧
        sectorLen ≤ nodeRecordStart 4 1024 1 ∧ RecordsDisjoint 4 1024 1 2) :=
  ⟨by decide, by decide, by decide,
    nodeRecord_in_own_sectors ⟨4, 1024, fun _ => by decide⟩ 0 1 2 (by decide) (by decide)
      (by decide)⟩

/-- Nodes of `2^38 + SECTOR_LEN` bytes take `2^26 + 1` sectors each, so node `2^26 - 1`'s
    sectors start at `2^52 * SECTOR_LEN = 2^64`, which `uint64_t` wraps to offset 0: its record
    starts in the metadata sector, over node 0's. -/
theorem nodeRecord_wraps_into_metadata :
    (2 ^ 26 - 1 : Nat) ≠ 0 ∧ 2 ^ 26 - 1 < 2 ^ 32 ∧
      nodeRecordStart 0 (2 ^ 38 + sectorLen) (2 ^ 26 - 1) = 0 ∧
      ¬ RecordsDisjoint 0 (2 ^ 38 + sectorLen) (2 ^ 26 - 1) 0 := by
  decide

/-! ## What a read returns -/

section Bytes

variable {β : Type}

/-- The bytes request `r` leaves in its buffer, from a file holding byte `disk p` at
    offset `p`. -/
def readBytes (disk : Nat → β) (r : AlignedRead) : List β :=
  (List.range r.len).map fun k => disk (r.offset + k)

/-- The record `read_nodes` finds for node `nodeId` in what entry `i` read: `_max_node_len`
    bytes from `node_buf = offset_to_node(buf, node_id)` (line 208). -/
def nodeRecordBytes (nnodesPerSector maxNodeLen : Nat) (disk : Nat → β) (i nodeId : Nat) :
    List β :=
  ((readBytes disk (readNodesReq nnodesPerSector maxNodeLen i nodeId)).drop
    (offsetToNode nnodesPerSector maxNodeLen nodeId)).take maxNodeLen

theorem take_drop_readBytes (disk : Nat → β) (r : AlignedRead) {off n : Nat}
    (h : off + n ≤ r.len) :
    ((readBytes disk r).drop off).take n =
      (List.range n).map fun k => disk (r.offset + off + k) := by
  apply List.ext_getElem
  · simp only [readBytes, List.length_take, List.length_drop, List.length_map, List.length_range]
    omega
  · intro k _ _
    simp [readBytes, Nat.add_assoc]

/-- (PROVED) The record read for a node is the file's `_max_node_len` bytes from
    `nodeRecordStart`. -/
theorem NodeLayout.nodeRecordBytes_eq (L : NodeLayout) (disk : Nat → β) (i : Nat) {nodeId : Nat}
    (h : ReadFits L.nnodesPerSector L.maxNodeLen nodeId) :
    nodeRecordBytes L.nnodesPerSector L.maxNodeLen disk i nodeId =
      (List.range L.maxNodeLen).map fun k =>
        disk (nodeRecordStart L.nnodesPerSector L.maxNodeLen nodeId + k) := by
  rw [nodeRecordBytes, readNodesReq_eq_frontierReadReq, take_drop_readBytes,
    frontierReadReq_offset i h, nodeRecordStart_eq h]
  rw [frontierReadReq_len i h]
  exact L.offsetToNode_add_le nodeId

/-- (PROVED) A file that differs from another only inside node `b`'s record gives every
    other node the same record: rewriting one node never changes what is read for another. -/
theorem NodeLayout.nodeRecordBytes_frame (L : NodeLayout) {disk disk' : Nat → β} (i : Nat)
    {a b : Nat} (hab : a ≠ b) (ha : ReadFits L.nnodesPerSector L.maxNodeLen a)
    (hb : ReadFits L.nnodesPerSector L.maxNodeLen b)
    (hdisk : ∀ p, p < nodeRecordStart L.nnodesPerSector L.maxNodeLen b ∨
      nodeRecordStart L.nnodesPerSector L.maxNodeLen b + L.maxNodeLen ≤ p → disk' p = disk p) :
    nodeRecordBytes L.nnodesPerSector L.maxNodeLen disk' i a =
      nodeRecordBytes L.nnodesPerSector L.maxNodeLen disk i a := by
  rw [L.nodeRecordBytes_eq disk' i ha, L.nodeRecordBytes_eq disk i ha]
  refine List.map_congr_left fun k hk => hdisk _ ?_
  have hk := List.mem_range.1 hk
  rcases L.recordsDisjoint_of_ne hab ha hb with h | h <;> omega

/-- One node per sector: a write at the start of node `1`'s record leaves node `0`'s. -/
theorem nodeOneWrite_keeps_nodeZero :
    0 ≠ 1 ∧ ReadFits 1 4096 0 ∧ ReadFits 1 4096 1 ∧
      nodeRecordBytes 1 4096 (Function.update (fun _ => (0 : Nat)) 8192 7) 0 0 =
        nodeRecordBytes 1 4096 (fun _ => (0 : Nat)) 0 0 :=
  have hstart : nodeRecordStart 1 4096 1 = 8192 := by decide
  ⟨by decide, by decide, by decide,
    NodeLayout.nodeRecordBytes_frame ⟨1, 4096, fun _ => by decide⟩ 0 (b := 1) (by decide) (by decide)
      (by decide) fun p hp => Function.update_noteq (by
        change p < nodeRecordStart 1 4096 1 ∨ nodeRecordStart 1 4096 1 + 4096 ≤ p at hp
        rw [hstart] at hp
        omega) _ _⟩

end Bytes

end DiskAnn
