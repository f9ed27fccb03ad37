import Mathlib.Algebra.BigOperators.Group.List
import DiskAnn.Layout
import DiskAnn.Search.Basic

/-
  DiskANN label files: `get_label_file_metadata` (`pq_flash_index.cpp`, lines 730-772) and
  `parse_label_file` (lines 791-872), whose tables `point_has_label` (lines 774-789) and
  `generate_random_labels` (lines 660-685) read.

  Model. The file is its bytes. Both passes run the same line loop: from `cur_pos`, find the
  next `'\n'` and stop when there is none, so a final line without a newline is never read
  (`labelFileLines`). Within a line both run the same label loop, except that the fill pass
  also cuts a label at the line end when the next `','` lies past it (`clamp`). The metadata
  pass counts lines and labels in `uint32_t`; the fill pass allocates the three tables with
  those counts, and for each line writes `_pts_to_label_offsets[line_cnt]` and
  `_pts_to_label_counts[line_cnt]`, then for each label `_pts_to_labels[labels_seen_so_far++]`,
  every counter a `uint32_t`. A write past a table's end is undefined (`writePastEnd`). So is
  the read of `label_str[label_str.length() - 1]` for an empty label (`readPastEnd`).
  `std::stoul` throws on a label without digits or past `ULONG_MAX`. A line without labels
  ends the process (`exit`). `LabelT` is `labelBits` bits wide.

  Proved: the two passes visit the same number of labels on every line
  (`length_labelSpans_clamp`), and the lines the loops visit are the file's newlines
  (`length_labelFileLines`). Below `2^32` lines and labels, no write goes past a table, and
  a parse that returns leaves a CSR partition of the counted labels (`parseLabelFile_csr`),
  on which `point_has_label` answers for each newline-terminated line whether the label is
  among that line's values (`parseLabelFile_point_has_label`). The fill pass is proved line
  by line: `TablesOk` holds between lines and `InLine` within one, both carried over a
  `foldlM` by `foldlM_prefix_inv`. With `2^32` lines `num_pts` wraps to `0` and the first write is past the end
  (`parseLabelFile_many_lines`). `num_points_labels` is the number of newlines, so a final
  line without one gets no entry (`parseLabelFile_num_points`). `generate_random_labels`
  then reads past the end of the offsets (`generateRandomLabels_unterminated`); for the
  points the parse counted, every draw lands in `_pts_to_labels`
  (`generateRandomLabels_in_table`).
-/

namespace DiskAnn

/-- How a label-file parse can end without tables. -/
inductive LabelFault where
  | writePastEnd (table : String)
  | readPastEnd (what : String)
  | thrown (msg : String)
  | exit (msg : String)
deriving DecidableEq, Repr

/-! ## The scans -/

/-- `std::string::find(c, pos)`: the first position at or after `pos` holding `c`; `none` is
    `npos`. -/
def findFrom (c : Char) : List Char → Nat → Option Nat
  | [], _ => none
  | x :: xs, 0 => if x = c then some 0 else (findFrom c xs 0).map (· + 1)
  | _ :: xs, pos + 1 => (findFrom c xs pos).map (· + 1)

/-- The line loop of both passes, from `cur_pos`: the span `[cur_pos, next_pos)` of each
    line that ends in a newline. -/
def lineSpans (s : List Char) : Nat → Nat → List (Nat × Nat)
  | 0, _ => []
  | fuel + 1, curPos =>
    if curPos < s.length then
      match findFrom '\n' s curPos with
      | none => []
      | some nextPos => (curPos, nextPos) :: lineSpans s fuel (nextPos + 1)
    else []

/-- The label loop over a line ending at `next_pos`, from `lbl_pos`: the span
    `[lbl_pos, next_lbl_pos)` of each label. Only the fill pass cuts at `next_pos` a label
    whose `','` lies past the line (`clamp`). -/
def labelSpans (s : List Char) (clamp : Bool) (nextPos : Nat) : Nat → Nat → List (Nat × Nat)
  | 0, _ => []
  | fuel + 1, lblPos =>
    if lblPos < nextPos then
      let next := (findFrom ',' s lblPos).getD nextPos
      let next := if clamp && decide (nextPos < next) then nextPos else next
      (lblPos, next) :: labelSpans s clamp nextPos fuel (next + 1)
    else []

/-- The lines both passes visit; each step moves past a byte, so `|s| + 1` steps suffice. -/
def labelFileLines (s : List Char) : List (Nat × Nat) := lineSpans s (s.length + 1) 0

/-- The labels one pass visits on a line. -/
def lineLabels (s : List Char) (clamp : Bool) (line : Nat × Nat) : List (Nat × Nat) :=
  labelSpans s clamp line.2 (s.length + 1) line.1

/-- `get_label_file_metadata`: `num_pts` and `num_total_labels`, both `uint32_t`. -/
def getLabelFileMetadata (s : List Char) : Nat × Nat :=
  (u32 (labelFileLines s).length,
    u32 ((labelFileLines s).map fun l => (lineLabels s false l).length).sum)

/-! ## One label -/

/-- `isspace` in the C locale. -/
def isCSpace (c : Char) : Bool :=
  c = ' ' || c = '\t' || c = '\n' || c = Char.ofNat 11 || c = Char.ofNat 12 || c = '\r'

/-- The value of a run of decimal digits. -/
def digitsValue (ds : List Char) : Nat := ds.foldl (fun acc d => acc * 10 + (d.toNat - '0'.toNat)) 0

/-- `std::stoul` in base 10: leading white space, an optional sign, then the longest run of
    digits. No digit throws `invalid_argument`, a value past `ULONG_MAX` `out_of_range`, and
    a minus sign negates modulo `2^64`. -/
def stoul (str : List Char) : Except LabelFault Nat :=
  let str := str.dropWhile isCSpace
  let (neg, str) : Bool × List Char := match str with
    | '-' :: r => (true, r)
    | '+' :: r => (false, r)
    | r => (false, r)
  let ds := str.takeWhile Char.isDigit
  if ds = [] then throw (.thrown "std::invalid_argument")
  else if 2 ^ 64 ≤ digitsValue ds then throw (.thrown "std::out_of_range")
  else pure (if neg then (2 ^ 64 - digitsValue ds) % 2 ^ 64 else digitsValue ds)

/-- One label: `label_str` of the span, a trailing tab erased, `std::stoul`, and the cast to
    `LabelT`. -/
def parseLabel (labelBits : Nat) (s : List Char) (span : Nat × Nat) : Except LabelFault Nat :=
  let str := (s.drop span.1).take (span.2 - span.1)
  match str.getLast? with
  | none => throw (.readPastEnd "label_str[label_str.length() - 1] of an empty label")
  | some c => (stoul (if c = '\t' then str.dropLast else str)).map (· % 2 ^ labelBits)

/-! ## The fill pass -/

/-- The three tables `parse_label_file` allocates, and its `uint32_t` counters. -/
structure FillState where
  offsets : List Nat
  counts : List Nat
  labels : List Nat
  lineCnt : Nat
  labelsSeenSoFar : Nat
  /-- `num_lbls_in_cur_pt`, which aliases `_pts_to_label_counts[line_cnt]`. -/
  numLblsInCurPt : Nat

/-- `a[i] = v` into the table `table`, undefined past its end. -/
def writeAt (table : String) (a : List Nat) (i v : Nat) : Except LabelFault (List Nat) :=
  if i < a.length then pure (a.set i v) else throw (.writePastEnd table)

/-- One label of the fill pass: store it at `labels_seen_so_far++` and count it. -/
def fillLabel (labelBits : Nat) (s : List Char) (st : FillState) (span : Nat × Nat) :
    Except LabelFault FillState := do
  let l ← parseLabel labelBits s span
  let labels ← writeAt "_pts_to_labels" st.labels st.labelsSeenSoFar l
  let n := u32 (st.numLblsInCurPt + 1)
  let counts ← writeAt "_pts_to_label_counts" st.counts st.lineCnt n
  pure { st with
    labels := labels
    counts := counts
    labelsSeenSoFar := u32 (st.labelsSeenSoFar + 1)
    numLblsInCurPt := n }

/-- One line of the fill pass. -/
def fillLine (labelBits : Nat) (s : List Char) (st : FillState) (line : Nat × Nat) :
    Except LabelFault FillState := do
  let offsets ← writeAt "_pts_to_label_offsets" st.offsets st.lineCnt st.labelsSeenSoFar
  let counts ← writeAt "_pts_to_label_counts" st.counts st.lineCnt 0
  let st ← (lineLabels s true line).foldlM (fillLabel labelBits s)
    { st with offsets := offsets, counts := counts, numLblsInCurPt := 0 }
  if st.numLblsInCurPt = 0 then throw (.exit "No label found for point")
  pure { st with lineCnt := u32 (st.lineCnt + 1) }

/-- The fill pass of `parse_label_file`, over tables of the sizes the metadata pass counted. -/
def fillPass (labelBits : Nat) (s : List Char) : Except LabelFault FillState :=
  let md := getLabelFileMetadata s
  (labelFileLines s).foldlM (fillLine labelBits s)
    ⟨List.replicate md.1 0, List.replicate md.1 0, List.replicate md.2 0, 0, 0, 0⟩

/-- `parse_label_file`: the tables and `num_points_labels`. -/
def parseLabelFile (labelBits : Nat) (s : List Char) : Except LabelFault (LabelTables × Nat) := do
  let st ← fillPass labelBits s
  pure (⟨st.offsets, st.counts, st.labels⟩, st.lineCnt)

/-! ## The two passes agree -/

theorem labelSpans_of_le {s : List Char} {clamp : Bool} {nextPos lblPos : Nat}
    (h : nextPos ≤ lblPos) : ∀ fuel, labelSpans s clamp nextPos fuel lblPos = []
  | 0 => rfl
  | _ + 1 => by simp [labelSpans, Nat.not_lt.2 h]

/-- (PROVED) The metadata pass and the fill pass visit the same number of labels on a line:
    a `','` past the line end ends the line's last label in both. -/
theorem length_labelSpans_clamp (s : List Char) (nextPos : Nat) :
    ∀ fuel lblPos, (labelSpans s false nextPos fuel lblPos).length =
      (labelSpans s true nextPos fuel lblPos).length
  | 0, _ => rfl
  | fuel + 1, lblPos => by
    by_cases h : lblPos < nextPos
    · by_cases hn : nextPos < (findFrom ',' s lblPos).getD nextPos
      · simp [labelSpans, h, hn, labelSpans_of_le (Nat.le_succ_of_le hn.le),
          labelSpans_of_le (Nat.le_succ nextPos)]
      · simp [labelSpans, h, hn, length_labelSpans_clamp s nextPos fuel]
    · simp [labelSpans, h]

/-- The label counts the fill pass finds on each line. -/
def fillCounts (s : List Char) : List Nat := (labelFileLines s).map fun l => (lineLabels s true l).length

/-- Below `2^32` lines and labels, the metadata counts the lines and the fill pass's labels. -/
theorem getLabelFileMetadata_eq {s : List Char} (hpts : (labelFileLines s).length < 2 ^ 32)
    (hlbl : (fillCounts s).sum < 2 ^ 32) :
    getLabelFileMetadata s = ((labelFileLines s).length, (fillCounts s).sum) := by
  have hsum : ((labelFileLines s).map fun l => (lineLabels s false l).length) = fillCounts s :=
    List.map_congr_left fun l _ => length_labelSpans_clamp s l.2 _ l.1
  rw [getLabelFileMetadata, hsum, u32, u32, Nat.mod_eq_of_lt hpts, Nat.mod_eq_of_lt hlbl]

/-! ## The lines are the newlines -/

theorem findFrom_some {c : Char} :
    ∀ {s : List Char} {pos i : Nat}, findFrom c s pos = some i →
      pos ≤ i ∧ (s.drop pos).count c = (s.drop (i + 1)).count c + 1
  | [], _, _, h => by cases h
  | x :: xs, 0, i, h => by
    simp only [findFrom] at h
    split_ifs at h with hx
    · cases h; simp [hx]
    · obtain ⟨j, hj, rfl⟩ := Option.map_eq_some'.1 h
      have hc := (findFrom_some hj).2
      rw [List.drop_zero] at hc
      simp [List.count_cons, hx, hc]
  | x :: xs, pos + 1, i, h => by
    obtain ⟨j, hj, rfl⟩ := Option.map_eq_some'.1 h
    obtain ⟨hle, hc⟩ := findFrom_some hj
    exact ⟨by omega, by simpa using hc⟩

theorem findFrom_none {c : Char} :
    ∀ {s : List Char} {pos : Nat}, findFrom c s pos = none → (s.drop pos).count c = 0
  | [], _, _ => by simp
  | x :: xs, 0, h => by
    simp only [findFrom] at h
    split_ifs at h with hx
    have hc := findFrom_none (Option.map_eq_none'.1 h)
    rw [List.drop_zero] at hc
    simp [List.count_cons, hx, hc]
  | _ :: xs, pos + 1, h => by simpa using findFrom_none (Option.map_eq_none'.1 h)

theorem length_lineSpans (s : List Char) :
    ∀ fuel curPos, s.length - curPos < fuel →
      (lineSpans s fuel curPos).length = (s.drop curPos).count '\n'
  | 0, _, h => absurd h (Nat.not_lt_zero _)
  | fuel + 1, curPos, h => by
    simp only [lineSpans]
    split_ifs with hc
    · split
      · rename_i hf; exact (findFrom_none hf).symm
      · rename_i nextPos hf
        obtain ⟨hle, hcount⟩ := findFrom_some hf
        rw [List.length_cons, length_lineSpans s fuel _ (by omega), hcount]
    · simp [List.drop_of_length_le (Nat.le_of_not_lt hc)]

/-- (PROVED) The lines the two passes visit are exactly the newlines of the file. -/
theorem length_labelFileLines (s : List Char) : (labelFileLines s).length = s.count '\n' :=
  length_lineSpans s _ 0 (by omega)

/-! ## The fill pass, line by line -/

/-- An invariant over the processed prefix of a `foldlM` in `Except`: a step keeps it or
    fails with a fault `Q` allows. -/
theorem foldlM_prefix_inv {α β ε : Type} {f : β → α → Except ε β} {L : List α}
    {P : List α → β → Prop} {Q : ε → Prop}
    (hstep : ∀ pre a rest b, pre ++ a :: rest = L → P pre b →
      (∀ b', f b a = .ok b' → P (pre ++ [a]) b') ∧ ∀ e, f b a = .error e → Q e) :
    ∀ (rest pre : List α) (b : β), pre ++ rest = L → P pre b →
      (∀ b', rest.foldlM f b = .ok b' → P L b') ∧ ∀ e, rest.foldlM f b = .error e → Q e
  | [], pre, b, hL, hP => by
    simp only [List.append_nil] at hL
    exact ⟨fun b' e => (by cases e; exact hL ▸ hP), fun e h => (by cases h)⟩
  | a :: rest, pre, b, hL, hP => by
    obtain ⟨hok, herr⟩ := hstep pre a rest b hL hP
    rw [List.foldlM_cons]
    cases hf : f b a with
    | error e => exact ⟨fun b' h => (by cases h), fun e' h => (by cases h; exact herr e hf)⟩
    | ok b₁ => exact foldlM_prefix_inv hstep rest (pre ++ [a]) b₁ (by simp [hL]) (hok b₁ hf)

/-- Not a write past a table. -/
def NotWriteFault (e : LabelFault) : Prop := ∀ table, e ≠ .writePastEnd table

theorem writeAt_ok {table : String} {a : List Nat} {i v : Nat} (h : i < a.length) :
    writeAt table a i v = .ok (a.set i v) := if_pos h

theorem stoul_not_write {str : List Char} {e : LabelFault} (h : stoul str = .error e) :
    NotWriteFault e := by
  dsimp only [stoul] at h
  split_ifs at h <;> cases h <;> nofun

/-- Reading one label writes nothing. -/
theorem parseLabel_not_write {labelBits : Nat} {s : List Char} {span : Nat × Nat} {e : LabelFault}
    (h : parseLabel labelBits s span = .error e) : NotWriteFault e := by
  dsimp only [parseLabel] at h
  split at h
  · cases h; nofun
  · cases hs : stoul _ with
    | error e' => rw [hs] at h; cases h; exact stoul_not_write hs
    | ok v => rw [hs] at h; cases h

/-! ## Where each line's labels go -/

/-- What the labels of a line read as: each one's `LabelT` value, `none` where it throws. -/
def lineValues (labelBits : Nat) (s : List Char) (line : Nat × Nat) : List (Option Nat) :=
  (lineLabels s true line).map fun span => (parseLabel labelBits s span).toOption

/-- The values of every line of the file. -/
def fileValues (labelBits : Nat) (s : List Char) : List (List (Option Nat)) :=
  (labelFileLines s).map (lineValues labelBits s)

theorem map_length_fileValues (labelBits : Nat) (s : List Char) :
    (fileValues labelBits s).map List.length = fillCounts s := by
  simp [fileValues, fillCounts, lineValues, Function.comp_def]

/-- Where the labels of line `i` start in `_pts_to_labels`. -/
def lineOffset (vals : List (List (Option Nat))) (i : Nat) : Nat :=
  ((vals.map List.length).take i).sum

theorem lineOffset_succ {vals : List (List (Option Nat))} {i : Nat} {vs : List (Option Nat)}
    (h : vals[i]? = some vs) : lineOffset vals (i + 1) = lineOffset vals i + vs.length := by
  obtain ⟨hi, hv⟩ := List.getElem?_eq_some_iff.1 h
  simp [lineOffset, List.sum_take_succ (vals.map List.length) i (by simpa using hi), hv]

theorem lineOffset_mono (vals : List (List (Option Nat))) {i k : Nat} (h : i ≤ k) :
    lineOffset vals i ≤ lineOffset vals k := by
  have := List.sum_take_add_sum_drop ((vals.map List.length).take k) i
  rw [List.take_take, Nat.min_eq_left h] at this
  unfold lineOffset
  omega

theorem lineOffset_le_sum (vals : List (List (Option Nat))) (i : Nat) :
    lineOffset vals i ≤ (vals.map List.length).sum := by
  have := List.sum_take_add_sum_drop (vals.map List.length) i
  unfold lineOffset
  omega

/-- The labels of an earlier line lie before those of line `k`. -/
theorem lineOffset_add_lt {vals : List (List (Option Nat))} {i k j : Nat} {vs : List (Option Nat)}
    (hik : i < k) (hv : vals[i]? = some vs) (hj : j < vs.length) :
    lineOffset vals i + j < lineOffset vals k := by
  have := lineOffset_mono vals hik
  rw [lineOffset_succ hv] at this
  omega

/-- The tables after `k` lines, given the lines' label values `vals`: their allocated sizes,
    `line_cnt = k`, and the offsets, counts and labels of the first `k` lines. -/
structure TablesOk (np nt : Nat) (vals : List (List (Option Nat))) (k : Nat) (st : FillState) :
    Prop where
  offsets_len : st.offsets.length = np
  counts_len : st.counts.length = np
  labels_len : st.labels.length = nt
  line_cnt : st.lineCnt = k
  offsets : ∀ i < k, st.offsets[i]? = some (lineOffset vals i)
  counts : ∀ i < k, st.counts[i]? = vals[i]?.map List.length
  labels : ∀ i < k, ∀ vs, vals[i]? = some vs → ∀ j < vs.length,
    vs[j]? = some st.labels[lineOffset vals i + j]?
  counts_pos : ∀ i < k, ∀ vs, vals[i]? = some vs → vs ≠ []

/-- Inside line `k`, whose labels read as `cur`, after `j` of them. -/
structure InLine (np nt : Nat) (vals : List (List (Option Nat))) (k : Nat) (cur : List (Option Nat))
    (j : Nat) (st : FillState) : Prop where
  tables : TablesOk np nt vals k st
  seen : st.labelsSeenSoFar = lineOffset vals k + j
  num : st.numLblsInCurPt = j
  offset : st.offsets[k]? = some (lineOffset vals k)
  count : st.counts[k]? = some j
  labels : ∀ j' < j, cur[j']? = some st.labels[lineOffset vals k + j']?

section Fill

variable {labelBits : Nat} {s : List Char} {np nt : Nat} {vals : List (List (Option Nat))} {k : Nat}

/-- A label with room left in `_pts_to_labels` and in the `uint32_t` counters stores its value
    and keeps `InLine`; it can only fail in `parseLabel`. -/
theorem InLine.label {cur : List (Option Nat)} {j : Nat} {st : FillState} {span : Nat × Nat}
    (h : InLine np nt vals k cur j st) (hk : k < np) (hroom : lineOffset vals k + j < nt)
    (hnt : nt < 2 ^ 32) (hcur : cur[j]? = some (parseLabel labelBits s span).toOption) :
    (∀ st', fillLabel labelBits s st span = .ok st' → InLine np nt vals k cur (j + 1) st') ∧
      ∀ e, fillLabel labelBits s st span = .error e → NotWriteFault e := by
  have hl : st.labelsSeenSoFar < st.labels.length := by rw [h.seen, h.tables.labels_len]; exact hroom
  have hc : st.lineCnt < st.counts.length := by rw [h.tables.line_cnt, h.tables.counts_len]; exact hk
  unfold fillLabel
  cases hp : parseLabel labelBits s span with
  | error e =>
    refine ⟨fun st' e' => (by simp [hp] at e'; cases e'), fun e' he => ?_⟩
    simp only [hp] at he
    cases he
    exact parseLabel_not_write hp
  | ok l =>
    simp only [hp, writeAt_ok hl, writeAt_ok hc]
    refine ⟨fun st' e' => ?_, fun e' he => (by cases he)⟩
    cases e'
    have hj : j + 1 < 2 ^ 32 := by omega
    have hs : lineOffset vals k + j + 1 < 2 ^ 32 := by omega
    refine ⟨⟨by simpa using h.tables.offsets_len, by simpa using h.tables.counts_len,
      by simpa using h.tables.labels_len, h.tables.line_cnt, h.tables.offsets,
      fun i hi => ?_, fun i hi vs hv j' hj' => ?_, h.tables.counts_pos⟩, ?_, ?_, h.offset, ?_,
      fun j' hj' => ?_⟩
    · rw [h.tables.line_cnt, List.getElem?_set_ne (Nat.ne_of_gt hi)]; exact h.tables.counts i hi
    · -- a label of an earlier line
      have := lineOffset_add_lt hi hv hj'
      dsimp only
      rw [h.seen, List.getElem?_set_ne (by omega)]
      exact h.tables.labels i hi vs hv j' hj'
    · simp only [u32, h.seen]; omega
    · simp only [u32, h.num]; omega
    · rw [h.tables.line_cnt, List.getElem?_set_self (by rw [← h.tables.line_cnt]; exact hc), h.num,
        u32, Nat.mod_eq_of_lt hj]
    · dsimp only
      rw [h.seen]
      rcases Nat.lt_succ_iff_lt_or_eq.1 hj' with hj' | rfl
      · rw [List.getElem?_set_ne (by omega)]; exact h.labels j' hj'
      · rw [List.getElem?_set_self (by rw [← h.seen]; exact hl), hcur, hp]; rfl

/-- The start of line `k`: its offset and a zero count are written. -/
theorem TablesOk.start {cur : List (Option Nat)} {st : FillState} (h : TablesOk np nt vals k st)
    (hseen : st.labelsSeenSoFar = lineOffset vals k) (hk : k < np) :
    InLine np nt vals k cur 0 { st with
      offsets := st.offsets.set st.lineCnt st.labelsSeenSoFar
      counts := st.counts.set st.lineCnt 0
      numLblsInCurPt := 0 } := by
  refine ⟨⟨by simpa using h.offsets_len, by simpa using h.counts_len, h.labels_len,
    h.line_cnt, fun i hi => ?_, fun i hi => ?_, h.labels, h.counts_pos⟩, hseen, rfl, ?_, ?_,
    fun j' hj' => absurd hj' (Nat.not_lt_zero _)⟩ <;> dsimp only <;> rw [h.line_cnt]
  · rw [List.getElem?_set_ne (Nat.ne_of_gt hi)]; exact h.offsets i hi
  · rw [List.getElem?_set_ne (Nat.ne_of_gt hi)]; exact h.counts i hi
  · rw [List.getElem?_set_self (by rw [h.offsets_len]; exact hk), hseen]
  · rw [List.getElem?_set_self (by rw [h.counts_len]; exact hk)]

/-- The end of line `k`, after all its labels, of which there is one at least: `line_cnt`
    moves on, and the line joins the finished ones. -/
theorem InLine.finish {cur : List (Option Nat)} {j : Nat} {st : FillState}
    (h : InLine np nt vals k cur j st) (hval : vals[k]? = some cur) (hj : cur.length = j)
    (hj0 : j ≠ 0) (hk1 : k + 1 < 2 ^ 32) :
    TablesOk np nt vals (k + 1) { st with lineCnt := u32 (st.lineCnt + 1) } ∧
      st.labelsSeenSoFar = lineOffset vals (k + 1) := by
  refine ⟨⟨h.tables.offsets_len, h.tables.counts_len, h.tables.labels_len,
    by show u32 (st.lineCnt + 1) = k + 1; rw [h.tables.line_cnt, u32, Nat.mod_eq_of_lt hk1],
    fun i hi => ?_, fun i hi => ?_, fun i hi vs hv j' hj' => ?_, fun i hi vs hv => ?_⟩,
    by rw [lineOffset_succ hval, hj]; exact h.seen⟩
  · rcases Nat.lt_succ_iff_lt_or_eq.1 hi with hi | rfl
    · exact h.tables.offsets i hi
    · exact h.offset
  · rcases Nat.lt_succ_iff_lt_or_eq.1 hi with hi | rfl
    · exact h.tables.counts i hi
    · rw [h.count, hval, Option.map_some', hj]
  · rcases Nat.lt_succ_iff_lt_or_eq.1 hi with hi | rfl
    · exact h.tables.labels i hi vs hv j' hj'
    · obtain rfl := Option.some.inj (hv.symm.trans hval)
      exact h.labels j' (hj ▸ hj')
  · rcases Nat.lt_succ_iff_lt_or_eq.1 hi with hi | rfl
    · exact h.tables.counts_pos i hi vs hv
    · obtain rfl := Option.some.inj (hv.symm.trans hval)
      exact fun hnil => hj0 (by rw [← hj, hnil, List.length_nil])

/-- The label loop of line `k`: label by label it keeps `InLine`, so that it ends with every
    label of the line stored, and it can only fail in `parseLabel`. -/
theorem InLine.labelLoop {st : FillState} {line : Nat × Nat} (hk : k < np) (hnt : nt < 2 ^ 32)
    (hroom : lineOffset vals k + (lineLabels s true line).length ≤ nt)
    (h : InLine np nt vals k (lineValues labelBits s line) 0 st) :
    (∀ st', (lineLabels s true line).foldlM (fillLabel labelBits s) st = .ok st' →
        InLine np nt vals k (lineValues labelBits s line) (lineLabels s true line).length st') ∧
      ∀ e, (lineLabels s true line).foldlM (fillLabel labelBits s) st = .error e →
        NotWriteFault e :=
  foldlM_prefix_inv (f := fillLabel labelBits s) (L := lineLabels s true line)
    (P := fun pre st => InLine np nt vals k (lineValues labelBits s line) pre.length st)
    (Q := NotWriteFault)
    (fun pre a rest b hL hb => by
      have hpos : pre.length < (lineLabels s true line).length := by rw [← hL]; simp
      have hcur : (lineValues labelBits s line)[pre.length]? =
          some (parseLabel labelBits s a).toOption := by
        rw [lineValues, List.getElem?_map, ← hL, List.getElem?_append_right (Nat.le_refl _),
          Nat.sub_self]
        simp
      simpa using hb.label hk (by omega) hnt hcur)
    (lineLabels s true line) [] _ rfl h

/-- A line with its allocated slot, whose labels fit what is left of `_pts_to_labels`, moves
    the tables on by one line; it can only fail in `parseLabel` or on a line without labels. -/
theorem TablesOk.line {st : FillState} {line : Nat × Nat} (h : TablesOk np nt vals k st)
    (hseen : st.labelsSeenSoFar = lineOffset vals k) (hk : k < np) (hnp : np < 2 ^ 32)
    (hval : vals[k]? = some (lineValues labelBits s line))
    (hroom : lineOffset vals (k + 1) ≤ nt) (hnt : nt < 2 ^ 32) :
    (∀ st', fillLine labelBits s st line = .ok st' →
        TablesOk np nt vals (k + 1) st' ∧ st'.labelsSeenSoFar = lineOffset vals (k + 1)) ∧
      ∀ e, fillLine labelBits s st line = .error e → NotWriteFault e := by
  have hlen := lineOffset_succ hval
  have hcnt : (lineValues labelBits s line).length = (lineLabels s true line).length :=
    List.length_map _ _
  have ho : st.lineCnt < st.offsets.length := by rw [h.line_cnt, h.offsets_len]; exact hk
  have hc : st.lineCnt < st.counts.length := by rw [h.line_cnt, h.counts_len]; exact hk
  unfold fillLine
  simp only [writeAt_ok ho, writeAt_ok hc, bind, Except.bind]
  obtain ⟨hok, herr⟩ :=
    InLine.labelLoop hk hnt (by rw [← hcnt, ← hlen]; exact hroom) (h.start hseen hk)
  split
  next e hf => exact ⟨fun st' e' => (by cases e'), fun e' he => (by cases he; exact herr e hf)⟩
  next st₁ hf =>
    have h₁ := hok st₁ hf
    split_ifs with hz
    · exact ⟨fun st' e' => (by cases e'), fun e' he => (by cases he; intro table ht; cases ht)⟩
    · refine ⟨fun st' e' => ?_, fun e' he => (by cases he)⟩
      cases e'
      exact h₁.finish hval hcnt (h₁.num ▸ hz) (by omega)

end Fill

/-- After the last line, `labels_seen_so_far` has counted every label of the fill pass. -/
theorem lineOffset_fileValues_length (labelBits : Nat) (s : List Char) :
    lineOffset (fileValues labelBits s) (labelFileLines s).length = (fillCounts s).sum := by
  rw [lineOffset, map_length_fileValues, List.take_of_length_le (by simp [fillCounts])]

/-- Below `2^32` lines and labels, the fill pass writes no table past its end, and a pass that
    returns leaves the tables of every line with `labels_seen_so_far = num_total_labels`. -/
theorem fillPass_tables (labelBits : Nat) (s : List Char)
    (hpts : (labelFileLines s).length < 2 ^ 32) (hlbl : (fillCounts s).sum < 2 ^ 32) :
    (∀ e, fillPass labelBits s = .error e → NotWriteFault e) ∧
      ∀ st, fillPass labelBits s = .ok st →
        TablesOk (labelFileLines s).length (fillCounts s).sum (fileValues labelBits s)
          (labelFileLines s).length st ∧ st.labelsSeenSoFar = (fillCounts s).sum := by
  have hmap := map_length_fileValues labelBits s
  have hend := lineOffset_fileValues_length labelBits s
  -- the lines, one at a time
  obtain ⟨hok, herr⟩ := foldlM_prefix_inv (f := fillLine labelBits s) (L := labelFileLines s)
    (P := fun pre st => TablesOk (labelFileLines s).length (fillCounts s).sum
      (fileValues labelBits s) pre.length st ∧
      st.labelsSeenSoFar = lineOffset (fileValues labelBits s) pre.length)
    (Q := NotWriteFault)
    (fun pre a rest b hL hb => by
      have hk : pre.length < (labelFileLines s).length := by simp [← hL]
      have hval : (fileValues labelBits s)[pre.length]? = some (lineValues labelBits s a) := by
        rw [fileValues, List.getElem?_map, ← hL, List.getElem?_append_right (Nat.le_refl _),
          Nat.sub_self]
        simp
      have hroom := lineOffset_le_sum (fileValues labelBits s) (pre.length + 1)
      rw [hmap] at hroom
      simpa using hb.1.line hb.2 hk hpts hval hroom hlbl)
    (labelFileLines s) [] ⟨List.replicate (labelFileLines s).length 0,
      List.replicate (labelFileLines s).length 0, List.replicate (fillCounts s).sum 0, 0, 0, 0⟩ rfl
    ⟨⟨by simp, by simp, by simp, rfl, fun i hi => absurd hi (Nat.not_lt_zero _),
      fun i hi => absurd hi (Nat.not_lt_zero _), fun i hi => absurd hi (Nat.not_lt_zero _),
      fun i hi => absurd hi (Nat.not_lt_zero _)⟩, rfl⟩
  simp only [fillPass, getLabelFileMetadata_eq hpts hlbl]
  exact ⟨herr, fun st h => ⟨(hok st h).1, (hok st h).2.trans hend⟩⟩

theorem parseLabelFile_eq_ok {labelBits : Nat} {s : List Char} {t : LabelTables} {n : Nat} :
    parseLabelFile labelBits s = .ok (t, n) ↔
      ∃ st, fillPass labelBits s = .ok st ∧ t = ⟨st.offsets, st.counts, st.labels⟩ ∧ n = st.lineCnt := by
  unfold parseLabelFile
  cases fillPass labelBits s with
  | error e => exact iff_of_false (by nofun) (by simp)
  | ok st => simp [pure, Except.pure, bind, Except.bind, eq_comm]

/-- The counts a returned fill pass leaves are the lines' label counts. -/
theorem TablesOk.counts_eq {labelBits : Nat} {s : List Char} {st : FillState}
    (h : TablesOk (labelFileLines s).length (fillCounts s).sum (fileValues labelBits s)
      (labelFileLines s).length st) : st.counts = fillCounts s := by
  have hlen : (fillCounts s).length = (labelFileLines s).length := List.length_map _ _
  refine List.ext_getElem? fun i => if hi : i < (labelFileLines s).length then ?_ else ?_
  · rw [h.counts i hi, ← map_length_fileValues labelBits s, List.getElem?_map]
  · rw [List.getElem?_eq_none (by rw [h.counts_len]; omega), List.getElem?_eq_none (by omega)]

/-- (PROVED) For every label file below `2^32` lines and labels: the two passes count the
    same labels on every line, no write goes past a table, and a fill pass that returns has
    `line_cnt = num_pts`, `labels_seen_so_far = num_total_labels`, counts summing to it, and
    offsets that are the running sums of the counts (`offsets[0] = 0`,
    `offsets[p + 1] = offsets[p] + counts[p]`); `parse_label_file` returns these tables. -/
theorem parseLabelFile_csr (labelBits : Nat) (s : List Char)
    (hpts : (labelFileLines s).length < 2 ^ 32) (hlbl : (fillCounts s).sum < 2 ^ 32) :
    (∀ l ∈ labelFileLines s, (lineLabels s false l).length = (lineLabels s true l).length) ∧
      (∀ table, parseLabelFile labelBits s ≠ .error (.writePastEnd table)) ∧
      ∀ st, fillPass labelBits s = .ok st →
        parseLabelFile labelBits s = .ok (⟨st.offsets, st.counts, st.labels⟩, st.lineCnt) ∧
        st.lineCnt = (getLabelFileMetadata s).1 ∧ st.labelsSeenSoFar = (getLabelFileMetadata s).2 ∧
        st.offsets.length = st.lineCnt ∧ st.counts.length = st.lineCnt ∧
        st.labels.length = st.labelsSeenSoFar ∧ st.counts.sum = st.labelsSeenSoFar ∧
        ∀ i < st.lineCnt, st.offsets[i]? = some (st.counts.take i).sum := by
  obtain ⟨herr, hok⟩ := fillPass_tables labelBits s hpts hlbl
  refine ⟨fun l _ => length_labelSpans_clamp s l.2 _ l.1, fun table e => ?_, fun st hf => ?_⟩
  · unfold parseLabelFile at e
    cases hf : fillPass labelBits s with
    | error e' => rw [hf] at e; cases e; exact herr _ hf table rfl
    | ok st => rw [hf] at e; cases e
  · obtain ⟨h, hseen⟩ := hok st hf
    have hcounts := h.counts_eq
    rw [getLabelFileMetadata_eq hpts hlbl]
    refine ⟨parseLabelFile_eq_ok.2 ⟨st, hf, rfl, rfl⟩, h.line_cnt, hseen,
      by rw [h.offsets_len, h.line_cnt], by rw [h.counts_len, h.line_cnt], by rw [h.labels_len, hseen],
      by rw [hcounts, hseen], fun i hi => ?_⟩
    rw [h.offsets i (h.line_cnt ▸ hi), hcounts, lineOffset, map_length_fileValues]

theorem twoLineFile_csr :
    (labelFileLines ['1', ',', '2', '\n', '3', '\n']).length < 2 ^ 32 ∧
      (fillCounts ['1', ',', '2', '\n', '3', '\n']).sum < 2 ^ 32 ∧
      (∀ l ∈ labelFileLines ['1', ',', '2', '\n', '3', '\n'],
        (lineLabels ['1', ',', '2', '\n', '3', '\n'] false l).length =
          (lineLabels ['1', ',', '2', '\n', '3', '\n'] true l).length) ∧
      (∀ table, parseLabelFile 32 ['1', ',', '2', '\n', '3', '\n'] ≠ .error (.writePastEnd table)) ∧
      ∀ st, fillPass 32 ['1', ',', '2', '\n', '3', '\n'] = .ok st →
        parseLabelFile 32 ['1', ',', '2', '\n', '3', '\n'] =
          .ok (⟨st.offsets, st.counts, st.labels⟩, st.lineCnt) ∧
        st.lineCnt = (getLabelFileMetadata ['1', ',', '2', '\n', '3', '\n']).1 ∧
        st.labelsSeenSoFar = (getLabelFileMetadata ['1', ',', '2', '\n', '3', '\n']).2 ∧
        st.offsets.length = st.lineCnt ∧ st.counts.length = st.lineCnt ∧
        st.labels.length = st.labelsSeenSoFar ∧ st.counts.sum = st.labelsSeenSoFar ∧
        ∀ i < st.lineCnt, st.offsets[i]? = some (st.counts.take i).sum :=
  ⟨by decide, by decide, parseLabelFile_csr 32 _ (by decide) (by decide)⟩

example : parseLabelFile 32 ['1', ',', '2', '\n', '3', '\n'] = .ok (⟨[0, 2], [2, 1], [1, 2, 3]⟩, 2) :=
  rfl

/-! ## What `point_has_label` answers -/

theorem findLabel_eq {labels : List Nat} {l : Nat} :
    ∀ {pos n : Nat}, pos + n ≤ labels.length →
      findLabel labels l pos n = some (decide (l ∈ (labels.drop pos).take n))
  | _, 0, _ => by simp [findLabel]
  | pos, n + 1, h => by
    have hpos : pos < labels.length := by omega
    rw [findLabel, List.getElem?_eq_getElem hpos, Option.some_bind, findLabel_eq (by omega),
      List.drop_eq_getElem_cons hpos, List.take_succ_cons]
    by_cases hl : labels[pos] = l
    · simp [hl]
    · simp [hl, Ne.symm hl]

/-- A line's values are the slice of `_pts_to_labels` the tables give it. -/
theorem TablesOk.slice {np nt k i : Nat} {vals : List (List (Option Nat))} {st : FillState}
    {vs : List (Option Nat)} (h : TablesOk np nt vals k st) (hi : i < k) (hv : vals[i]? = some vs)
    (hroom : lineOffset vals i + vs.length ≤ st.labels.length) :
    vs = ((st.labels.drop (lineOffset vals i)).take vs.length).map some := by
  refine List.ext_getElem? fun j => if hj : j < vs.length then ?_ else ?_
  · rw [h.labels i hi vs hv j hj, List.getElem?_map, List.getElem?_take_of_lt hj,
      List.getElem?_drop, List.getElem?_eq_getElem (by omega)]
    rfl
  · rw [List.getElem?_eq_none (by omega), List.getElem?_eq_none (by
      simp only [List.length_map, List.length_take, List.length_drop]; omega)]

/-- (PROVED) Below `2^32` lines and labels, after a parse that returns, `point_has_label`
    answers for the point of every newline-terminated line whether the label is among the
    values of that line. -/
theorem parseLabelFile_point_has_label (labelBits : Nat) (s : List Char)
    (hpts : (labelFileLines s).length < 2 ^ 32) (hlbl : (fillCounts s).sum < 2 ^ 32)
    {t : LabelTables} {n : Nat} (e : parseLabelFile labelBits s = .ok (t, n)) {p : Nat}
    {line : Nat × Nat} (hp : (labelFileLines s)[p]? = some line) (l : Nat) :
    pointHasLabel t p l = some (decide (some l ∈ lineValues labelBits s line)) := by
  obtain ⟨st, hf, rfl, -⟩ := parseLabelFile_eq_ok.1 e
  obtain ⟨h, hseen⟩ := (fillPass_tables labelBits s hpts hlbl).2 st hf
  have hpk : p < (labelFileLines s).length := (List.getElem?_eq_some_iff.1 hp).1
  have hv : (fileValues labelBits s)[p]? = some (lineValues labelBits s line) := by
    rw [fileValues, List.getElem?_map, hp]; rfl
  have hroom : lineOffset (fileValues labelBits s) p + (lineValues labelBits s line).length ≤
      st.labels.length := by
    have := lineOffset_le_sum (fileValues labelBits s) (p + 1)
    rw [lineOffset_succ hv, map_length_fileValues] at this
    rw [h.labels_len]; exact this
  rw [pointHasLabel, h.offsets p hpk, Option.some_bind, h.counts p hpk, hv, Option.map_some',
    Option.some_bind, findLabel_eq hroom]
  conv_rhs => rw [h.slice hpk hv hroom]
  simp only [List.mem_map, Option.some.injEq, exists_eq_right]

/-! ## `generate_random_labels` -/

/-- `generate_random_labels` (lines 660-685): `num_total_labels` from the entries of point
    `_num_points - 1`, a `uint64_t` subtraction, then `num_labels` draws, each reading
    `_pts_to_labels` where it lands. Draw `i` is `rnd i` reduced into `[0, num_total_labels)`,
    which stands for any value `uniform_int_distribution` returns. -/
def generateRandomLabels (t : LabelTables) (numPoints numLabels : Nat) (rnd : Nat → Nat) :
    Except LabelFault (List Nat) :=
  let last := u64 (numPoints + 2 ^ 64 - 1)
  match t.ptsToLabelOffsets[last]? with
  | none => throw (.readPastEnd "_pts_to_label_offsets")
  | some o =>
    match t.ptsToLabelCounts[last]? with
    | none => throw (.readPastEnd "_pts_to_label_counts")
    | some c =>
      if o + c = 0 then throw (.thrown "No labels found in data. Not sampling random labels ")
      else (List.range numLabels).mapM fun i =>
        match t.ptsToLabels[rnd i % (o + c)]? with
        | some l => pure l
        | none => throw (.readPastEnd "_pts_to_labels")

theorem mapM_except_ok {α β ε : Type} {f : α → Except ε β} {g : α → β} :
    ∀ {l : List α}, (∀ x ∈ l, f x = .ok (g x)) → l.mapM f = .ok (l.map g)
  | [], _ => rfl
  | x :: l, h => by
    rw [List.mapM_cons, h x (List.mem_cons_self _ _),
      mapM_except_ok fun y hy => h y (List.mem_cons_of_mem _ hy)]
    rfl

/-- (PROVED) Below `2^32` lines and labels, after a parse that returns `n > 0` points,
    `generate_random_labels` for those `n` points counts every label in `num_total_labels`,
    and every draw reads inside `_pts_to_labels`. -/
theorem generateRandomLabels_in_table (labelBits : Nat) (s : List Char)
    (hpts : (labelFileLines s).length < 2 ^ 32) (hlbl : (fillCounts s).sum < 2 ^ 32)
    {t : LabelTables} {n : Nat} (e : parseLabelFile labelBits s = .ok (t, n)) (hn : 0 < n)
    (numLabels : Nat) (rnd : Nat → Nat) :
    generateRandomLabels t n numLabels rnd = .ok ((List.range numLabels).map fun i =>
      t.ptsToLabels.getD (rnd i % t.ptsToLabels.length) 0) := by
  obtain ⟨st, hf, rfl, rfl⟩ := parseLabelFile_eq_ok.1 e
  obtain ⟨h, -⟩ := (fillPass_tables labelBits s hpts hlbl).2 st hf
  -- the last point `p`, and its labels `vs`
  obtain ⟨p, hp⟩ : ∃ p, st.lineCnt = p + 1 := ⟨st.lineCnt - 1, by omega⟩
  have hpk : p < (labelFileLines s).length := by rw [← h.line_cnt, hp]; omega
  have hlast : u64 (st.lineCnt + 2 ^ 64 - 1) = p := by rw [u64, hp]; omega
  obtain ⟨vs, hv⟩ : ∃ vs, (fileValues labelBits s)[p]? = some vs :=
    ⟨_, List.getElem?_eq_getElem (by simpa [fileValues] using hpk)⟩
  have htotal : lineOffset (fileValues labelBits s) p + vs.length = st.labels.length := by
    rw [← lineOffset_succ hv, h.labels_len, ← lineOffset_fileValues_length labelBits s, ← h.line_cnt,
      hp]
  have hpos : 0 < st.labels.length := by
    have := h.counts_pos p hpk vs hv
    rw [← htotal]
    exact Nat.lt_add_left _ (List.length_pos.2 this)
  simp only [generateRandomLabels, hlast, h.offsets p hpk, h.counts p hpk, hv, Option.map_some',
    htotal, if_neg (Nat.ne_of_gt hpos)]
  refine mapM_except_ok fun i _ => ?_
  rw [List.getD_eq_getElem?_getD, List.getElem?_eq_getElem (Nat.mod_lt _ hpos)]
  rfl

/-- (PROVED) Below `2^32` lines and labels, after a parse that returns `n` points,
    `generate_random_labels` for `n + 1` points, the count of a file whose last line has no
    newline, reads `_pts_to_label_offsets` past its end. -/
theorem generateRandomLabels_unterminated (labelBits : Nat) (s : List Char)
    (hpts : (labelFileLines s).length < 2 ^ 32) (hlbl : (fillCounts s).sum < 2 ^ 32)
    {t : LabelTables} {n : Nat} (e : parseLabelFile labelBits s = .ok (t, n))
    (numLabels : Nat) (rnd : Nat → Nat) :
    generateRandomLabels t (n + 1) numLabels rnd =
      .error (.readPastEnd "_pts_to_label_offsets") := by
  obtain ⟨st, hf, rfl, rfl⟩ := parseLabelFile_eq_ok.1 e
  obtain ⟨h, -⟩ := (fillPass_tables labelBits s hpts hlbl).2 st hf
  have hlast : u64 (st.lineCnt + 1 + 2 ^ 64 - 1) = st.lineCnt := by
    have := h.line_cnt
    rw [u64]
    omega
  simp only [generateRandomLabels, hlast,
    List.getElem?_eq_none (by rw [h.offsets_len, h.line_cnt] : st.offsets.length ≤ st.lineCnt)]
  rfl

/-! ## `2^32` lines -/

/-- When the number of lines is a nonzero multiple of `2^32`, `num_pts` wraps to `0` and the
    first line's offset is written past the end of `_pts_to_label_offsets`. -/
theorem parseLabelFile_wraps (labelBits : Nat) (s : List Char) (hne : labelFileLines s ≠ [])
    (hwrap : (labelFileLines s).length % 2 ^ 32 = 0) :
    parseLabelFile labelBits s = .error (.writePastEnd "_pts_to_label_offsets") := by
  obtain ⟨line, rest, hL⟩ := List.exists_cons_of_ne_nil hne
  have hmd : (getLabelFileMetadata s).1 = 0 := hwrap
  unfold parseLabelFile fillPass
  simp only [hmd, hL, List.foldlM_cons, List.replicate_zero]
  rfl

/-- `2^32` lines of `"1"`. -/
def manyLinesFile : List Char := (List.replicate (2 ^ 32) ['1', '\n']).flatten

theorem parseLabelFile_many_lines :
    parseLabelFile 32 manyLinesFile = .error (.writePastEnd "_pts_to_label_offsets") := by
  have hcount : (labelFileLines manyLinesFile).length = 2 ^ 32 := by
    rw [length_labelFileLines, manyLinesFile, List.count_flatten, List.map_replicate,
      List.sum_replicate, Nat.nsmul_eq_mul]
    rfl
  exact parseLabelFile_wraps 32 _ (List.ne_nil_of_length_pos (by rw [hcount]; decide))
    (by rw [hcount]; rfl)

/-! ## A final line without a newline -/

/-- (PROVED) Below `2^32` lines and labels, a parse that returns records one entry per
    newline: a final line without one gets no entry, and `point_has_label` on its point
    reads `_pts_to_label_offsets` past its end. -/
theorem parseLabelFile_num_points (labelBits : Nat) (s : List Char)
    (hpts : (labelFileLines s).length < 2 ^ 32) (hlbl : (fillCounts s).sum < 2 ^ 32)
    {t : LabelTables} {n : Nat} (e : parseLabelFile labelBits s = .ok (t, n)) :
    n = s.count '\n' ∧ ∀ l, pointHasLabel t n l = none := by
  obtain ⟨st, hf, rfl, rfl⟩ := parseLabelFile_eq_ok.1 e
  obtain ⟨h, -⟩ := (fillPass_tables labelBits s hpts hlbl).2 st hf
  refine ⟨h.line_cnt.trans (length_labelFileLines s), fun l => ?_⟩
  rw [pointHasLabel, List.getElem?_eq_none (by rw [h.offsets_len, h.line_cnt]), Option.none_bind]

theorem unterminatedFile_num_points :
    (labelFileLines ['1', '\n', '2']).length < 2 ^ 32 ∧ (fillCounts ['1', '\n', '2']).sum < 2 ^ 32 ∧
      parseLabelFile 32 ['1', '\n', '2'] = .ok (⟨[0], [1], [1]⟩, 1) ∧
      1 = List.count '\n' ['1', '\n', '2'] ∧ ∀ l, pointHasLabel ⟨[0], [1], [1]⟩ 1 l = none :=
  have e : parseLabelFile 32 ['1', '\n', '2'] = .ok (⟨[0], [1], [1]⟩, 1) := rfl
  ⟨by decide, by decide, e, parseLabelFile_num_points 32 _ (by decide) (by decide) e⟩

end DiskAnn
