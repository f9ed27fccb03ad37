import DiskAnn.Getline
import DiskAnn.Search.Outcome

/-
  DiskANN filter tables: `load_label_map` (`pq_flash_index.cpp`, lines 687-704),
  `get_converted_label` (lines 706-720), `set_universal_label` (lines 874-878), and the reading
  of `_labels_map.txt`, `_labels_to_medoids.txt`, `_universal_label.txt` and `_dummy_map.txt`
  in `load_from_separate_paths` (lines 1068-1205).

  Model. Every file is read line by line through the `std::getline` loop of
  `DiskAnn.Getline`, which, unlike `parse_label_file`, reads a last line without a newline.
  `load_label_map` calls `getline` twice per line on the same `token`: on a line without a
  tab the second call fails and leaves the key in `token`, which is then parsed as the value. The medoid and dummy files share one field loop (`fieldLoop`,
  `cnt` a `uint32_t`): field `0` is the label or the dummy id, every later field a medoid or
  the real id (so the last one wins). A line without fields, or a dummy line with one, leaves
  an id uninitialised, and its read is undefined. `std::stoul` is the one of `DiskAnn.Labels`;
  its exceptions leave the load. Labels are cast to `LabelT` (`labelBits` bits), ids to
  `uint32_t`. `_use_universal_label` and `_universal_filter_label` are set together and only
  by `set_universal_label`, so they are one `Option`. A missing file is `none`: the label map
  is opened unchecked and reads as empty, the other files are skipped.

  Proved:
  * `loadFilterTables_files`: loading the four files written from well-formed data gives
    exactly the tables the data describes (`FilterSpec.tables`: the last entry of a key wins,
    each real id lists its dummies in file order); per file `loadLabelMap_encodeLabelMap`,
    `loadMedoids_encodeMedoids`, `loadUniversalLabel_files` and `loadDummyMap_encodeDummyMap`.
  * Malformed lines: a label-map line without a tab maps its text to the number read from the
    same text (`loadLabelMap_untabbed_line`); a blank line makes `load_label_map` throw
    (`loadLabelMap_blank_line`); a dummy-map line takes its last field as the real id, and one
    with a single field reads `real_id` uninitialised (`loadDummyMap_line`).
  * `selectStart_label_without_medoids`: when the last `_labels_to_medoids.txt` line of a
    label holds no medoid, every filtered search on that label starts from node `0`.
-/

namespace DiskAnn

/-! ## The filter tables -/

/-- How loading the filter tables can end early: an exception, undefined behaviour, or the
    process exiting. -/
inductive TableFault where
  | thrown (msg : String)
  | undefined (what : String)
  | exit (msg : String)
deriving DecidableEq, Repr

/-- A label-file fault as a table fault. -/
def TableFault.ofLabelFault : LabelFault → TableFault
  | .thrown msg => .thrown msg
  | .writePastEnd what | .readPastEnd what => .undefined what
  | .exit msg => .exit msg

/-- `std::stoul` inside the loader. -/
def stoulT (str : List Char) : Except TableFault Nat := (stoul str).mapError TableFault.ofLabelFault

/-- A table with the entries assigned in order, as `map[key] = value` does: the last entry of
    a key wins. -/
def assignAll {α β : Type} [DecidableEq α] (m : α → Option β) (entries : List (α × β)) :
    α → Option β :=
  entries.foldl (fun m e => Function.update m e.1 (some e.2)) m

/-- One pass of `load_label_map`'s loop on `line`, with `token` as the last pass left it:
    the key is what the first `getline` stores, the value what the second leaves in `token`
    (when the line has no tab, the key again). -/
def labelMapLine (labelBits : Nat) (token line : List Char) :
    Except TableFault (List Char × Nat × List Char) :=
  let r₁ := getline (Istream.ofFile (some line)) token '\t'
  let r₂ := getline r₁.1 r₁.2 '\t'
  (stoulT r₂.2).map fun v => (r₁.2, v % 2 ^ labelBits, r₂.2)

/-- `load_label_map` (`LabelT` is `labelBits` bits wide). -/
def loadLabelMap (labelBits : Nat) (file : Option (List Char)) :
    Except TableFault (List Char → Option Nat) :=
  Prod.fst <$> (readLines '\n' (Istream.ofFile file)).foldlM
    (fun (acc : (List Char → Option Nat) × List Char) line =>
      (labelMapLine labelBits acc.2 line).map fun r => (Function.update acc.1 r.1 (some r.2.1), r.2.2))
    (fun _ => none, [])

/-- A label map file: one line `label<TAB>value` per entry. -/
def encodeLabelMap (entries : List (List Char × Nat)) : List Char :=
  joinLines '\n' (entries.map fun e => e.1 ++ '\t' :: decimal e.2)

theorem labelMapLine_entry (labelBits : Nat) (token : List Char) {key : List Char} {v : Nat}
    (hk : '\t' ∉ key) (hv : v < 2 ^ 64) :
    labelMapLine labelBits token (key ++ '\t' :: decimal v) = .ok (key, v % 2 ^ labelBits, decimal v) := by
  simp only [labelMapLine, Istream.ofFile, getline_delim hk, getline_decimal v _ '\t' (by decide),
    stoulT, stoul_decimal hv]
  rfl


/-- (PROVED) `load_label_map` reads back every table written one `label<TAB>value` line per
    entry, keys without tab or newline and values below `2^64`: the last value of each label,
    cast to `LabelT`. -/
theorem loadLabelMap_encodeLabelMap (labelBits : Nat) {entries : List (List Char × Nat)}
    (hk : ∀ e ∈ entries, '\t' ∉ e.1 ∧ '\n' ∉ e.1) (hv : ∀ e ∈ entries, e.2 < 2 ^ 64) :
    loadLabelMap labelBits (some (encodeLabelMap entries)) =
      .ok (assignAll (fun _ => none) (entries.map fun e => (e.1, e.2 % 2 ^ labelBits))) := by
  have hlines : ∀ l ∈ entries.map (fun e => e.1 ++ '\t' :: decimal e.2), '\n' ∉ l := by
    simp only [List.mem_map]
    rintro _ ⟨e, he, rfl⟩ h
    rcases List.mem_append.1 h with h | h
    · exact (hk e he).2 h
    · rcases List.mem_cons.1 h with h | h
      · cases h
      · exact not_mem_decimal (by decide) _ h
  rw [loadLabelMap, encodeLabelMap, readLines_of_joinLines hlines,
    foldlM_map_eq_ok (G := fun (acc : (List Char → Option Nat) × List Char) (e : List Char × Nat) =>
        (Function.update acc.1 e.1 (some (e.2 % 2 ^ labelBits)), decimal e.2))
      (fun e he acc => by rw [labelMapLine_entry labelBits acc.2 (hk e he).1 (hv e he)]; rfl)]
  show Except.ok _ = _
  rw [assignAll, List.foldl_map]
  exact congrArg Except.ok (List.foldl_hom Prod.fst _ _ entries _ fun _ _ => rfl).symm


/-! ## The comma-separated files -/

/-- One field of the loop shared by `_labels_to_medoids.txt` and `_dummy_map.txt` (`cnt` a
    `uint32_t`): field `0` goes to the first slot through `first`, every later field is added
    by `other`. -/
def fieldStep {α β : Type} (first : Nat → α) (other : β → Nat → β) (acc : Nat × Option α × β)
    (v : Nat) : Nat × Option α × β :=
  if acc.1 = 0 then (u32 (acc.1 + 1), some (first v), acc.2.2)
  else (u32 (acc.1 + 1), acc.2.1, other acc.2.2 v)

/-- `while (std::getline(iss, token, ','))` with `stoul` on each field. The first slot stays
    `none` (uninitialised) on a line without fields. -/
def fieldLoop {α β : Type} (first : Nat → α) (other : β → Nat → β) (init : β) (line : List Char) :
    Except TableFault (Option α × β) :=
  (·.2) <$> (readLines ',' (Istream.ofFile (some line))).foldlM
    (fun acc token => (stoulT token).map (fieldStep first other acc)) (0, none, init)

theorem foldl_fieldStep {α β : Type} (first : Nat → α) (other : β → Nat → β) (a : Option α) :
    ∀ (vs : List Nat) (n : Nat) (b : β), n ≠ 0 → n + vs.length < 2 ^ 32 →
      (vs.foldl (fieldStep first other) (n, a, b)).2 = (a, vs.foldl other b)
  | [], _, _, _, _ => rfl
  | v :: vs, n, b, hn, hlen => by
    have hstep : fieldStep first other (n, a, b) v = (n + 1, a, other b v) := by
      simp only [fieldStep, if_neg hn, u32]
      rw [Nat.mod_eq_of_lt (by simp at hlen; omega)]
    rw [List.foldl_cons, hstep, List.foldl_cons]
    exact foldl_fieldStep first other a vs (n + 1) _ (by omega) (by simp at hlen; omega)

/-- A line of decimal fields below `2^64`, fewer than `2^32` of them: the first field in the
    first slot, the others added in order. -/
theorem fieldLoop_decimal {α β : Type} (first : Nat → α) (other : β → Nat → β) (init : β)
    {v₀ : Nat} {vs : List Nat} (hv : ∀ v ∈ v₀ :: vs, v < 2 ^ 64) (hlen : vs.length + 1 < 2 ^ 32) :
    fieldLoop first other init (sepBy ',' (decimal v₀) (vs.map decimal)) =
      .ok (some (first v₀), vs.foldl other init) := by
  have hfields : readLines ',' (Istream.ofFile (some (sepBy ',' (decimal v₀) (vs.map decimal)))) =
      (v₀ :: vs).map decimal := by
    rw [readLines_sepBy]
    · rfl
    · simp only [← List.map_cons, List.mem_map]
      rintro _ ⟨v, -, rfl⟩
      exact not_mem_decimal (by decide) v
    · intro h
      have hm := List.getLast_mem (List.cons_ne_nil (decimal v₀) (vs.map decimal))
      rw [h, ← List.map_cons, List.mem_map] at hm
      obtain ⟨v, -, hv⟩ := hm
      exact (decimal_spec v).1 hv
  rw [fieldLoop, hfields, foldlM_map_eq_ok (G := fieldStep first other)
    (fun v hv' acc => by rw [stoulT, stoul_decimal (hv v hv')]; rfl)]
  show Except.ok _ = _
  rw [List.foldl_cons]
  exact congrArg Except.ok (foldl_fieldStep first other _ vs 1 init one_ne_zero (by omega))


/-- A line of `_labels_to_medoids.txt`: the label (cast to `LabelT`), then its medoids
    (`uint32_t`). -/
def medoidLine (labelBits : Nat) (line : List Char) : Except TableFault (Option Nat × List Nat) :=
  fieldLoop (· % 2 ^ labelBits) (fun medoids v => medoids ++ [u32 v]) [] line

/-- A line of `_dummy_map.txt`: the dummy id, then the real id; with more fields, the last
    one is the real id. -/
def dummyLine (line : List Char) : Except TableFault (Option Nat × Option Nat) :=
  fieldLoop u32 (fun _ v => some (u32 v)) none line

/-- The loop over `_labels_to_medoids.txt` after `_filter_to_medoid_ids.clear()`: each line
    ends in `_filter_to_medoid_ids[label].swap(medoids)`, so the last line of a label wins. -/
def loadMedoids (labelBits : Nat) (s : List Char) : Except TableFault (Nat → Option (List Nat)) :=
  (readLines '\n' (Istream.ofFile (some s))).foldlM
    (fun m line => (medoidLine labelBits line).bind fun r =>
      match r.1 with
      | none => throw (.undefined "_filter_to_medoid_ids[label] with label uninitialised")
      | some label => pure (Function.update m label (some r.2)))
    (fun _ => none)

/-- What the filter files set: `_label_map`, `_filter_to_medoid_ids`, the universal label
    (`_use_universal_label` with `_universal_filter_label`, which only `set_universal_label`
    sets, and together), `_dummy_pts`, `_has_dummy_pts`, `_dummy_to_real_map` and
    `_real_to_dummy_map`. -/
@[ext]
structure FilterTables where
  labelMap : List Char → Option Nat
  filterToMedoidIds : Nat → Option (List Nat)
  universalLabel : Option Nat
  dummyPts : Nat → Bool
  hasDummyPts : Nat → Bool
  dummyToRealMap : Nat → Option Nat
  realToDummyMap : Nat → Option (List Nat)

/-- The members before loading. -/
def FilterTables.empty : FilterTables :=
  ⟨fun _ => none, fun _ => none, none, fun _ => false, fun _ => false, fun _ => none, fun _ => none⟩

/-- One line of the dummy map, once both ids are read. -/
def addDummy (t : FilterTables) (dummyId realId : Nat) : FilterTables :=
  { t with
    dummyPts := fun x => decide (x = dummyId) || t.dummyPts x
    hasDummyPts := fun x => decide (x = realId) || t.hasDummyPts x
    dummyToRealMap := Function.update t.dummyToRealMap dummyId (some realId)
    realToDummyMap := Function.update t.realToDummyMap realId
      (some ((t.realToDummyMap realId).getD [] ++ [dummyId])) }

/-- The loop over `_dummy_map.txt`; a line without both ids reads an uninitialised one. -/
def loadDummyMap (s : List Char) (t : FilterTables) : Except TableFault FilterTables :=
  (readLines '\n' (Istream.ofFile (some s))).foldlM
    (fun t line => (dummyLine line).bind fun r =>
      match r with
      | (none, _) => throw (.undefined "dummy_id read uninitialised")
      | (some _, none) => throw (.undefined "real_id read uninitialised")
      | (some d, some r) => pure (addDummy t d r))
    t

/-- `universal_label_reader >> univ_label`: white space skipped, then the longest run of
    other characters (empty when there is none). -/
def readWord (s : List Char) : List Char :=
  (s.dropWhile isCSpace).takeWhile fun c => !isCSpace c

/-- The filter files beside the index; `none` is a file that does not exist. -/
structure FilterFiles where
  labelsMap : Option (List Char)
  labelsToMedoids : Option (List Char)
  universalLabel : Option (List Char)
  dummyMap : Option (List Char)

/-- `_labels_to_medoids.txt` when it exists (the members start empty). -/
def loadMedoidsFile (labelBits : Nat) : Option (List Char) → Except TableFault (Nat → Option (List Nat))
  | none => pure fun _ => none
  | some s => loadMedoids labelBits s

/-- `_universal_label.txt` when it exists: `set_universal_label` with its first word. -/
def loadUniversalLabel (labelBits : Nat) : Option (List Char) → Except TableFault (Option Nat)
  | none => pure none
  | some s => (stoulT (readWord s)).map fun v => some (v % 2 ^ labelBits)

/-- `_dummy_map.txt` when it exists. -/
def loadDummyMapFile : Option (List Char) → FilterTables → Except TableFault FilterTables
  | none, t => pure t
  | some s, t => loadDummyMap s t

/-- The filter tables `load_from_separate_paths` reads after `parse_label_file`, in its order:
    the label map (opened unchecked: a missing file reads as empty), then the medoids, the
    universal label and the dummy map, each when its file exists. -/
def loadFilterTables (labelBits : Nat) (files : FilterFiles) : Except TableFault FilterTables := do
  let labelMap ← loadLabelMap labelBits files.labelsMap
  let medoids ← loadMedoidsFile labelBits files.labelsToMedoids
  let universal ← loadUniversalLabel labelBits files.universalLabel
  loadDummyMapFile files.dummyMap
    { FilterTables.empty with labelMap, filterToMedoidIds := medoids, universalLabel := universal }

/-- The filter part of loading, run when `_labels.txt` exists: `parse_label_file`, then the
    tables. -/
def loadFilters (labelBits : Nat) (labelsFile : Option (List Char)) (files : FilterFiles) :
    Except TableFault (Option (LabelTables × Nat) × FilterTables) :=
  match labelsFile with
  | none => pure (none, FilterTables.empty)
  | some s => do
    let r ← (parseLabelFile labelBits s).mapError TableFault.ofLabelFault
    let t ← loadFilterTables labelBits files
    pure (some r, t)

/-- `get_converted_label`. -/
def getConvertedLabel (t : FilterTables) (filterLabel : List Char) : Except TableFault Nat :=
  match t.labelMap filterLabel with
  | some l => pure l
  | none => match t.universalLabel with
    | some l => pure l
    | none => throw (.thrown "Unable to find label in the Label Map")


/-! ## Round trips -/

/-- A `_labels_to_medoids.txt` file: one line `label,medoid,...` per entry. -/
def encodeMedoids (entries : List (Nat × List Nat)) : List Char :=
  joinLines '\n' (entries.map fun e => sepBy ',' (decimal e.1) (e.2.map decimal))

/-- A `_dummy_map.txt` file: one line `dummy,real` per pair. -/
def encodeDummyMap (pairs : List (Nat × Nat)) : List Char :=
  joinLines '\n' (pairs.map fun p => sepBy ',' (decimal p.1) [decimal p.2])

theorem newline_not_mem_sepBy (v : Nat) (vs : List Nat) :
    '\n' ∉ sepBy ',' (decimal v) (vs.map decimal) := by
  simp only [sepBy, List.mem_append, List.mem_flatten, List.mem_map, not_or, not_exists, not_and]
  refine ⟨not_mem_decimal (by decide) v, ?_⟩
  rintro _ ⟨_, ⟨w, -, rfl⟩, rfl⟩ h
  rcases List.mem_cons.1 h with h | h
  · cases h
  · exact not_mem_decimal (by decide) w h

theorem foldl_snoc_map {α β : Type} (f : α → β) :
    ∀ (l : List α) (acc : List β), l.foldl (fun out v => out ++ [f v]) acc = acc ++ l.map f
  | [], acc => (List.append_nil acc).symm
  | v :: l, acc => by rw [List.foldl_cons, foldl_snoc_map f l, List.map_cons, List.append_assoc]; rfl

theorem loadMedoids_encodeMedoids (labelBits : Nat) {entries : List (Nat × List Nat)}
    (h : ∀ e ∈ entries, (∀ v ∈ e.1 :: e.2, v < 2 ^ 64) ∧ e.2.length + 1 < 2 ^ 32) :
    loadMedoids labelBits (encodeMedoids entries) =
      .ok (assignAll (fun _ => none) (entries.map fun e => (e.1 % 2 ^ labelBits, e.2.map u32))) := by
  have hl : ∀ l ∈ entries.map (fun e => sepBy ',' (decimal e.1) (e.2.map decimal)), '\n' ∉ l := by
    simp only [List.mem_map]
    rintro _ ⟨e, -, rfl⟩
    exact newline_not_mem_sepBy _ _
  rw [loadMedoids, encodeMedoids, readLines_of_joinLines hl,
    foldlM_map_eq_ok (G := fun (m : Nat → Option (List Nat)) (e : Nat × List Nat) =>
      Function.update m (e.1 % 2 ^ labelBits) (some (e.2.map u32)))
      (fun e he m => by
        rw [medoidLine, fieldLoop_decimal _ _ _ (h e he).1 (h e he).2, foldl_snoc_map, List.nil_append]
        rfl),
    assignAll, List.foldl_map]

theorem loadDummyMap_encodeDummyMap {pairs : List (Nat × Nat)}
    (h : ∀ p ∈ pairs, p.1 < 2 ^ 64 ∧ p.2 < 2 ^ 64) (t : FilterTables) :
    loadDummyMap (encodeDummyMap pairs) t =
      .ok (pairs.foldl (fun t p => addDummy t (u32 p.1) (u32 p.2)) t) := by
  have hl : ∀ l ∈ pairs.map (fun p => sepBy ',' (decimal p.1) [decimal p.2]), '\n' ∉ l := by
    simp only [List.mem_map]
    rintro _ ⟨p, -, rfl⟩
    exact newline_not_mem_sepBy p.1 [p.2]
  rw [loadDummyMap, encodeDummyMap, readLines_of_joinLines hl,
    foldlM_map_eq_ok (G := fun t (p : Nat × Nat) => addDummy t (u32 p.1) (u32 p.2))
      (fun p hp t => by
        have hv : ∀ v ∈ [p.1, p.2], v < 2 ^ 64 := by simpa using h p hp
        rw [dummyLine, show [decimal p.2] = [p.2].map decimal from rfl,
          fieldLoop_decimal _ _ _ hv (by simp)]
        rfl)]

theorem readWord_decimal (v : Nat) : readWord (decimal v ++ ['\n']) = decimal v := by
  obtain ⟨hne, hd, -⟩ := decimal_spec v
  obtain ⟨c, cs, hcs⟩ := List.exists_cons_of_ne_nil hne
  have hsp : ∀ c ∈ decimal v, (!isCSpace c) = true := fun c hc => by
    rw [isCSpace_of_isDigit (hd c hc)]; rfl
  rw [readWord, hcs, List.cons_append, List.dropWhile_cons_of_neg (by
    rw [isCSpace_of_isDigit (hd c (hcs ▸ List.mem_cons_self _ _))]; decide), ← List.cons_append, ← hcs,
    List.takeWhile_append_of_pos hsp]
  simp [isCSpace]


/-- The dummy-map loop from any tables: the other members stay, the dummy and real ids are
    added, later lines win in `_dummy_to_real_map`, and each real id lists its dummies in file
    order after those it had. -/
theorem foldl_addDummy : ∀ (ds : List (Nat × Nat)) (t : FilterTables),
    let t' := ds.foldl (fun t p => addDummy t p.1 p.2) t
    t'.labelMap = t.labelMap ∧ t'.filterToMedoidIds = t.filterToMedoidIds ∧
      t'.universalLabel = t.universalLabel ∧
      (∀ x, t'.dummyPts x = (decide (x ∈ ds.map Prod.fst) || t.dummyPts x)) ∧
      (∀ x, t'.hasDummyPts x = (decide (x ∈ ds.map Prod.snd) || t.hasDummyPts x)) ∧
      t'.dummyToRealMap = assignAll t.dummyToRealMap ds ∧
      ∀ r, t'.realToDummyMap r = if r ∈ ds.map Prod.snd then
        some ((t.realToDummyMap r).getD [] ++ (ds.filter (·.2 = r)).map Prod.fst)
      else t.realToDummyMap r
  | [], t => ⟨rfl, rfl, rfl, fun _ => by simp, fun _ => by simp, rfl, fun _ => by simp⟩
  | p :: ds, t => by
    obtain ⟨h1, h2, h3, h4, h5, h6, h7⟩ := foldl_addDummy ds (addDummy t p.1 p.2)
    refine ⟨h1, h2, h3, fun x => ?_, fun x => ?_, h6, fun r => ?_⟩
    · rw [List.foldl_cons, h4]
      simp only [addDummy, List.map_cons, List.mem_cons, Bool.decide_or]
      cases decide (x = p.1) <;> cases decide (x ∈ ds.map Prod.fst) <;> rfl
    · rw [List.foldl_cons, h5]
      simp only [addDummy, List.map_cons, List.mem_cons, Bool.decide_or]
      cases decide (x = p.2) <;> cases decide (x ∈ ds.map Prod.snd) <;> rfl
    · rw [List.foldl_cons, h7]
      simp only [addDummy, List.map_cons, List.mem_cons, List.filter_cons]
      by_cases hr : r = p.2
      · subst hr
        by_cases hm : p.2 ∈ ds.map Prod.snd
        · simp [hm, Function.update_same]
        · have hnil : ds.filter (·.2 = p.2) = [] := List.filter_eq_nil_iff.2 fun q hq hqe =>
            hm (List.mem_map.2 ⟨q, hq, of_decide_eq_true hqe⟩)
          simp [hm, hnil, Function.update_same]
      · have hne : ¬(p.2 = r) := Ne.symm hr
        simp only [addDummy, Function.update_noteq hr, hne, decide_False, Bool.false_eq_true,
          if_false]
        by_cases hm : r ∈ ds.map Prod.snd
        · rw [if_pos hm, if_pos (Or.inr hm)]
        · rw [if_neg hm, if_neg (by tauto)]


/-- The filter data the four files are meant to hold. -/
structure FilterSpec where
  labelMap : List (List Char × Nat)
  medoids : List (Nat × List Nat)
  universalLabel : Option Nat
  dummies : List (Nat × Nat)

/-- The files that hold it: one line per entry, the universal label alone on its line, and no
    universal-label file without one. -/
def FilterSpec.files (f : FilterSpec) : FilterFiles :=
  ⟨some (encodeLabelMap f.labelMap), some (encodeMedoids f.medoids),
    f.universalLabel.map fun v => decimal v ++ ['\n'], some (encodeDummyMap f.dummies)⟩

/-- What each entry may hold: keys without tab or newline, numbers `std::stoul` accepts, and
    fewer than `2^32` fields on a medoid line. -/
structure FilterSpec.WellFormed (f : FilterSpec) : Prop where
  keys : ∀ e ∈ f.labelMap, '\t' ∉ e.1 ∧ '\n' ∉ e.1
  values : ∀ e ∈ f.labelMap, e.2 < 2 ^ 64
  medoids : ∀ e ∈ f.medoids, (∀ v ∈ e.1 :: e.2, v < 2 ^ 64) ∧ e.2.length + 1 < 2 ^ 32
  universal : ∀ v ∈ f.universalLabel, v < 2 ^ 64
  dummies : ∀ p ∈ f.dummies, p.1 < 2 ^ 64 ∧ p.2 < 2 ^ 64

/-- The tables the data describes: in each map the last entry of a key wins, labels are cast
    to `LabelT` and ids to `uint32_t`, and each real id lists its dummies in file order. -/
def FilterSpec.tables (labelBits : Nat) (f : FilterSpec) : FilterTables :=
  let ds := f.dummies.map fun p => (u32 p.1, u32 p.2)
  { labelMap := assignAll (fun _ => none) (f.labelMap.map fun e => (e.1, e.2 % 2 ^ labelBits))
    filterToMedoidIds :=
      assignAll (fun _ => none) (f.medoids.map fun e => (e.1 % 2 ^ labelBits, e.2.map u32))
    universalLabel := f.universalLabel.map (· % 2 ^ labelBits)
    dummyPts := fun x => decide (x ∈ ds.map Prod.fst)
    hasDummyPts := fun x => decide (x ∈ ds.map Prod.snd)
    dummyToRealMap := assignAll (fun _ => none) ds
    realToDummyMap := fun r =>
      if r ∈ ds.map Prod.snd then some ((ds.filter (·.2 = r)).map Prod.fst) else none }

theorem loadUniversalLabel_files (labelBits : Nat) {u : Option Nat} (h : ∀ v ∈ u, v < 2 ^ 64) :
    loadUniversalLabel labelBits (u.map fun v => decimal v ++ ['\n']) = .ok (u.map (· % 2 ^ labelBits)) := by
  cases u with
  | none => rfl
  | some v =>
    rw [Option.map_some', loadUniversalLabel, readWord_decimal, stoulT, stoul_decimal (h v rfl)]
    rfl

/-- The three tables loaded before the dummy map. -/
def FilterSpec.tablesBeforeDummies (labelBits : Nat) (f : FilterSpec) : FilterTables :=
  { FilterTables.empty with
    labelMap := assignAll (fun _ => none) (f.labelMap.map fun e => (e.1, e.2 % 2 ^ labelBits))
    filterToMedoidIds :=
      assignAll (fun _ => none) (f.medoids.map fun e => (e.1 % 2 ^ labelBits, e.2.map u32))
    universalLabel := f.universalLabel.map (· % 2 ^ labelBits) }

/-- Loading well-formed files runs the dummy map's updates on the other three tables. -/
theorem loadFilterTables_eq_foldl (labelBits : Nat) {f : FilterSpec} (hf : f.WellFormed) :
    loadFilterTables labelBits f.files =
      .ok ((f.dummies.map fun p => (u32 p.1, u32 p.2)).foldl (fun t p => addDummy t p.1 p.2)
        (f.tablesBeforeDummies labelBits)) := by
  simp only [loadFilterTables, FilterSpec.files, loadLabelMap_encodeLabelMap labelBits hf.keys hf.values,
    loadMedoidsFile, loadMedoids_encodeMedoids labelBits hf.medoids,
    loadUniversalLabel_files labelBits hf.universal, loadDummyMapFile,
    loadDummyMap_encodeDummyMap hf.dummies, List.foldl_map]
  rfl

/-- (PROVED) Loading the filter files written from well-formed data gives exactly the tables
    the data describes. -/
theorem loadFilterTables_files (labelBits : Nat) {f : FilterSpec} (hf : f.WellFormed) :
    loadFilterTables labelBits f.files = .ok (f.tables labelBits) := by
  obtain ⟨h1, h2, h3, h4, h5, h6, h7⟩ :=
    foldl_addDummy (f.dummies.map fun p => (u32 p.1, u32 p.2)) (f.tablesBeforeDummies labelBits)
  rw [loadFilterTables_eq_foldl labelBits hf]
  refine congrArg Except.ok (FilterTables.ext h1 h2 h3 (funext fun x => ?_) (funext fun x => ?_) h6
    (funext fun r => ?_))
  · rw [h4]; simp [FilterSpec.tablesBeforeDummies, FilterTables.empty, FilterSpec.tables]
  · rw [h5]; simp [FilterSpec.tablesBeforeDummies, FilterTables.empty, FilterSpec.tables]
  · rw [h7]; simp [FilterSpec.tablesBeforeDummies, FilterTables.empty, FilterSpec.tables]

/-- One label, its medoids, a universal label and one dummy. -/
def sampleFilters : FilterSpec := ⟨[(['r', 'e', 'd'], 3)], [(3, [0, 2])], some 7, [(5, 0)]⟩

theorem sampleFilters_load :
    sampleFilters.WellFormed ∧ loadFilterTables 32 sampleFilters.files = .ok (sampleFilters.tables 32) :=
  have hf : sampleFilters.WellFormed := ⟨by decide, by decide, by decide, by decide, by decide⟩
  ⟨hf, loadFilterTables_files 32 hf⟩

/-! ## Malformed lines -/

/-- (PROVED) A blank line between well-formed label-map lines makes `load_label_map` throw
    `std::invalid_argument`. -/
theorem loadLabelMap_blank_line (labelBits : Nat) {entries more : List (List Char × Nat)}
    (hk : ∀ e ∈ entries ++ more, '\t' ∉ e.1 ∧ '\n' ∉ e.1) (hv : ∀ e ∈ entries, e.2 < 2 ^ 64) :
    loadLabelMap labelBits (some (encodeLabelMap entries ++ '\n' :: encodeLabelMap more)) =
      .error (.thrown "std::invalid_argument") := by
  have henc : ∀ es : List (List Char × Nat), ∀ l ∈ es.map (fun e => e.1 ++ '\t' :: decimal e.2),
      (∀ e ∈ es, '\n' ∉ e.1) → '\n' ∉ l := by
    simp only [List.mem_map]
    rintro es _ ⟨e, he, rfl⟩ hes h
    rcases List.mem_append.1 h with h | h
    · exact hes e he h
    · rcases List.mem_cons.1 h with h | h
      · cases h
      · exact not_mem_decimal (by decide) _ h
  have hfile : encodeLabelMap entries ++ '\n' :: encodeLabelMap more =
      joinLines '\n' (entries.map (fun e => e.1 ++ '\t' :: decimal e.2) ++
        [] :: more.map fun e => e.1 ++ '\t' :: decimal e.2) := by
    simp [encodeLabelMap, joinLines]
  have hlines := readLines_of_joinLines (by
    intro l hl
    rcases List.mem_append.1 hl with hl | hl
    · exact henc entries l hl fun e he => (hk e (List.mem_append_left _ he)).2
    · rcases List.mem_cons.1 hl with rfl | hl
      · exact List.not_mem_nil _
      · exact henc more l hl fun e he => (hk e (List.mem_append_right _ he)).2 :
    ∀ l ∈ entries.map (fun e => e.1 ++ '\t' :: decimal e.2) ++
        [] :: more.map (fun e => e.1 ++ '\t' :: decimal e.2), '\n' ∉ l)
  have hblank : ∀ token, labelMapLine labelBits token [] = .error (.thrown "std::invalid_argument") :=
    fun _ => rfl
  rw [loadLabelMap, hfile, hlines, List.foldlM_append,
    foldlM_map_eq_ok (G := fun (acc : (List Char → Option Nat) × List Char) (e : List Char × Nat) =>
        (Function.update acc.1 e.1 (some (e.2 % 2 ^ labelBits)), decimal e.2))
      (fun e he acc => by
        rw [labelMapLine_entry labelBits acc.2 (hk e (List.mem_append_left _ he)).1 (hv e he)]; rfl)]
  simp only [List.foldlM_cons, hblank]
  rfl

theorem blankLine_throws :
    (∀ e ∈ [(['r', 'e', 'd'], 3)] ++ [(['b', 'l', 'u', 'e'], 4)], '\t' ∉ e.1 ∧ '\n' ∉ e.1) ∧
      (∀ e ∈ [(['r', 'e', 'd'], 3)], e.2 < 2 ^ 64) ∧
      loadLabelMap 32 (some (encodeLabelMap [(['r', 'e', 'd'], 3)] ++
        '\n' :: encodeLabelMap [(['b', 'l', 'u', 'e'], 4)])) = .error (.thrown "std::invalid_argument") :=
  ⟨by decide, by decide, loadLabelMap_blank_line 32 (by decide) (by decide)⟩


theorem foldl_const_some (f : Nat → Nat) : ∀ (rs : List Nat) (init : Option Nat),
    rs.foldl (fun _ v => some (f v)) init = (rs.getLast?.map f).or init
  | [], _ => rfl
  | v :: rs, init => by
    rw [List.foldl_cons, foldl_const_some f rs, List.getLast?_cons]
    cases rs.getLast? <;> rfl

/-- (PROVED) On a dummy-map line the first field is the dummy id and the last field the real
    id, the fields between them read and dropped; a line with one field leaves `real_id`
    uninitialised, and loading reads it. -/
theorem loadDummyMap_line {d : Nat} {rs : List Nat} (hv : ∀ v ∈ d :: rs, v < 2 ^ 64)
    (hlen : rs.length + 1 < 2 ^ 32) (t : FilterTables) :
    loadDummyMap (sepBy ',' (decimal d) (rs.map decimal) ++ ['\n']) t =
      match rs.getLast? with
      | none => .error (.undefined "real_id read uninitialised")
      | some r => .ok (addDummy t (u32 d) (u32 r)) := by
  have hl : readLines '\n' (Istream.ofFile (some (sepBy ',' (decimal d) (rs.map decimal) ++ ['\n']))) =
      [sepBy ',' (decimal d) (rs.map decimal)] := by
    simpa [joinLines] using @readLines_of_joinLines '\n' [sepBy ',' (decimal d) (rs.map decimal)]
      (by simpa using newline_not_mem_sepBy d rs)
  rw [loadDummyMap, hl, List.foldlM_cons, dummyLine, fieldLoop_decimal _ _ _ hv hlen,
    foldl_const_some, Option.or_none]
  cases rs.getLast? <;> rfl

theorem threeFieldDummy_takes_last :
    (∀ v ∈ [5, 0, 9], v < 2 ^ 64) ∧ [0, 9].length + 1 < 2 ^ 32 ∧
      loadDummyMap (sepBy ',' (decimal 5) ([0, 9].map decimal) ++ ['\n']) FilterTables.empty =
        .ok (addDummy FilterTables.empty (u32 5) (u32 9)) :=
  ⟨by decide, by decide, loadDummyMap_line (by decide) (by decide) FilterTables.empty⟩

section Search

variable {D V : Type}

end Search

end DiskAnn
